import DebugSymbols.Proofs.Emit.Faults
import DebugSymbols.Proofs.Scope
import DebugSymbols.Proofs.Sink.Place

/-!
# Scripts keep to the protocol

The script of a method can be carried out between any two methods: every command in it may stand at
the place to which the commands before it lead. It breaks off exactly if the scopes are nested too
deeply or a range has no end.
-/

namespace DebugSymbols

open Place (outside untold told)

/-! ## Steps between places -/

/-- Whether steps lead from one place to another one if `count` handles have been given out: each
command may stand where it is issued. Steps may also break off, if the tree is at fault. -/
def Place.Leads (count : Nat) : Place → List Step → Place → Prop
  | place, [], last => place = last
  | place, .tell _ :: rest, last => Leads count place rest last
  | place, .issue command :: rest, last => command.entry.HandlesFit count ∧
      ∃ next, place.next? command.entry = some next ∧ Leads count next rest last
  | _, .fail error :: _, _ => error.OfTree

/-- Commands that may stand at a place without leading to another one can come before any steps from
there. -/
theorem Place.Leads.map_append {α : Type} {count : Nat} {place last : Place} {next : List Step}
    {items : List α} {command : α → Command} (h : place.Leads count next last)
    (hitems : ∀ item ∈ items, (command item).entry.HandlesFit count ∧
      place.next? (command item).entry = some place) :
    place.Leads count (items.map (fun item => .issue (command item)) ++ next) last := by
  induction items with
  | nil => exact h
  | cons item items ih =>
    rw [List.forall_mem_cons] at hitems
    exact ⟨hitems.1.1, place, hitems.1.2, ih hitems.2⟩

/-! ## Scopes -/

namespace Scope

variable {count : Nat} {last : Place} {method : Token}

mutual

/-- The script of a scope can be carried out wherever a scope may be opened, and leads to what is
around it. -/
theorem leads_scriptThen (context : ScopeContext) (extra : List Constant) (depth : Nat)
    {place : Place} {outer : List UInt32}
    (hopen : ∀ start, place.next? (.openScope start) = some (told method (start :: outer))) :
    ∀ (scope : Scope) {next : List Step}, (told method outer).Leads count next last →
      place.Leads count (scope.scriptThen context extra depth next) last
  | ⟨span, locals, constants, children⟩, next, h => by
    rw [scriptThen]
    split
    · exact trivial
    · split
      · rename_i error hstop
        exact FailsOnTree.stop span error hstop
      · rename_i stop hstop
        obtain ⟨hreach, rfl⟩ := Span.stop_eq_ok_iff.1 hstop
        have hordered : span.offset ≤ span.offset + span.length := by
          rw [UInt32.le_iff_toNat_le, Span.toNat_offset_add_length hreach]
          exact Nat.le_add_right _ _
        refine ⟨trivial, _, hopen span.offset, ?_⟩
        refine Place.Leads.map_append ?_ fun _ _ => ⟨trivial, rfl⟩
        refine Place.Leads.map_append ?_ fun _ _ => ⟨trivial, rfl⟩
        refine leads_scriptsThen context (depth + 1) children ?_
        exact ⟨trivial, _, if_pos hordered, h⟩

/-- The scripts of scopes can be carried out within a scope. -/
theorem leads_scriptsThen (context : ScopeContext) (depth : Nat) {start : UInt32}
    {outer : List UInt32} :
    ∀ (scopes : List Scope) {next : List Step},
      (told method (start :: outer)).Leads count next last →
        (told method (start :: outer)).Leads count (scriptsThen context depth scopes next) last
  | [], _, h => h
  | scope :: scopes, _, h => by
    rw [scriptsThen]
    exact leads_scriptThen context [] depth (fun _ => rfl) scope
      (leads_scriptsThen context depth scopes h)

end

theorem isFault_map {α : Type} (items : List α) (command : α → Command) :
    ∀ step ∈ items.map fun item => Step.issue (command item), step.isFault = false := by
  rw [List.forall_mem_map]
  exact fun _ _ => rfl

mutual

/-- The script of a scope has no fault exactly if the scope stays within the limit and all ranges
have an end. -/
theorem isFault_scriptThen_iff (context : ScopeContext) (extra : List Constant) (depth : Nat) :
    ∀ (scope : Scope) (next : List Step),
      (∀ step ∈ scope.scriptThen context extra depth next, step.isFault = false) ↔
        depth + scope.height ≤ context.limit + 1 ∧
          (∀ span ∈ scope.spans, span.reach < UInt32.size) ∧
            ∀ step ∈ next, step.isFault = false
  | ⟨span, locals, constants, children⟩, next => by
    rw [scriptThen, add_height_le_iff, spans, List.forall_mem_cons]
    split
    · rename_i hdepth
      constructor
      · intro h
        cases h _ List.mem_cons_self
      · rintro ⟨⟨hle, -⟩, -⟩
        exact absurd hle (Nat.not_le.2 hdepth)
    · rename_i hdepth
      cases hstop : span.stop with
      | error error =>
        constructor
        · intro h
          cases h _ List.mem_cons_self
        · rintro ⟨-, ⟨hreach, -⟩, -⟩
          rw [Span.stop_eq_ok_iff.2 ⟨hreach, rfl⟩] at hstop
          cases hstop
      | ok stop =>
        have hreach := (Span.stop_eq_ok_iff.1 hstop).1
        simp only [List.forall_mem_cons, List.forall_mem_append,
          isFault_scriptsThen_iff context (depth + 1) children]
        constructor
        · rintro ⟨-, -, -, -, hchildren, hspans, -, hnext⟩
          exact ⟨⟨Nat.not_lt.1 hdepth, hchildren⟩, ⟨hreach, hspans⟩, hnext⟩
        · rintro ⟨⟨-, hchildren⟩, ⟨-, hspans⟩, hnext⟩
          exact ⟨rfl, rfl, isFault_map locals _, isFault_map (constants ++ extra) _, hchildren,
            hspans, rfl, hnext⟩

/-- The scripts of scopes have no fault exactly if none of the scopes has one. -/
theorem isFault_scriptsThen_iff (context : ScopeContext) (depth : Nat) :
    ∀ (scopes : List Scope) (next : List Step),
      (∀ step ∈ scriptsThen context depth scopes next, step.isFault = false) ↔
        (∀ scope ∈ scopes, depth + scope.height ≤ context.limit + 1) ∧
          (∀ span ∈ spansList scopes, span.reach < UInt32.size) ∧
            ∀ step ∈ next, step.isFault = false
  | [], next => by simp [scriptsThen, spansList]
  | scope :: scopes, next => by
    rw [scriptsThen, isFault_scriptThen_iff context [] depth scope,
      isFault_scriptsThen_iff context depth scopes, List.forall_mem_cons, spansList,
      List.forall_mem_append]
    constructor
    · rintro ⟨hscope, hspans, hscopes, hspansList, hnext⟩
      exact ⟨⟨hscope, hscopes⟩, ⟨hspans, hspansList⟩, hnext⟩
    · rintro ⟨⟨hscope, hscopes⟩, ⟨hspans, hspansList⟩, hnext⟩
      exact ⟨hscope, hspans, hscopes, hspansList, hnext⟩

end

end Scope

/-! ## Methods -/

namespace Method

/-- The script of a method leads from between methods to between methods. -/
theorem leads_script {method : Method} {limit count : Nat}
    {batches : List (DocumentHandle × Batch)} (blobs : List (List UInt8))
    (hbatches : ∀ batch ∈ batches, batch.1.index < count ∧ batch.2.isConsistent = true) :
    outside.Leads count (method.script limit batches blobs) outside := by
  refine ⟨trivial, untold method.token, rfl, ?_⟩
  refine Place.Leads.map_append ?_ fun batch hmem => ⟨(hbatches batch hmem).1, ?_⟩
  · refine Scope.leads_scriptThen _ _ _ (fun _ => rfl) _ ?_
    refine Place.Leads.map_append ?_ fun blob _ => ⟨trivial, ?_⟩
    · exact ⟨trivial, outside, rfl, rfl⟩
    · exact if_pos (decide_eq_true rfl)
  · exact if_pos (hbatches batch hmem).2

/-- The script of a method has no fault exactly if its scopes are not too high and have ends. -/
theorem isFault_script_iff {method : Method} {limit : Nat}
    {batches : List (DocumentHandle × Batch)} {blobs : List (List UInt8)} :
    (∀ step ∈ method.script limit batches blobs, step.isFault = false) ↔
      method.scope.height ≤ limit ∧ ∀ span ∈ method.scope.spans, span.reach < UInt32.size := by
  rw [script, List.forall_mem_cons, List.forall_mem_append, Scope.isFault_scriptThen_iff,
    Nat.add_comm 1, Nat.add_le_add_iff_right, List.forall_mem_append]
  constructor
  · rintro ⟨-, -, hheight, hspans, -⟩
    exact ⟨hheight, hspans⟩
  · rintro ⟨hheight, hspans⟩
    exact ⟨rfl, Scope.isFault_map _ _, hheight, hspans, Scope.isFault_map _ _,
      by simp [Step.isFault]⟩

end Method

end DebugSymbols
