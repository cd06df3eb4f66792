import DebugSymbols.Emit.Script
import DebugSymbols.Proofs.Attempt
import DebugSymbols.Proofs.Emit.Serialization

/-!
# Height and nesting of scopes

The checks of a scope tree visit it in two ways: the depth is checked over a list of scopes still to
be visited, the ranges by recursion from parent to child. Here the depth check is tied to the height
of the tree, and the range check to two facts about the tree: every range has an end, and every
child lies within its parent.
-/

namespace DebugSymbols

namespace Span

/-- One range lies within another one. -/
def Covers (outer inner : Span) : Prop :=
  outer.offset ≤ inner.offset ∧ inner.reach ≤ outer.reach

theorem contains_eq_true_iff {outer inner : Span} :
    outer.contains inner = true ↔
      outer.reach < UInt32.size ∧ inner.reach < UInt32.size ∧ outer.Covers inner := by
  constructor
  · intro h
    rw [contains] at h
    split at h
    · rename_i stop innerStop hstop hinnerStop
      obtain ⟨hreach, rfl⟩ := stop?_eq_some_iff.1 hstop
      obtain ⟨hinnerReach, rfl⟩ := stop?_eq_some_iff.1 hinnerStop
      rw [Bool.and_eq_true, decide_eq_true_iff, decide_eq_true_iff, UInt32.le_iff_toNat_le,
        UInt32.le_iff_toNat_le, toNat_offset_add_length hreach,
        toNat_offset_add_length hinnerReach] at h
      exact ⟨hreach, hinnerReach, UInt32.le_iff_toNat_le.2 h.1, h.2⟩
    · cases h
  · rintro ⟨hreach, hinnerReach, hoffset, hcovers⟩
    rw [contains, stop?_eq_some_iff.2 ⟨hreach, rfl⟩, stop?_eq_some_iff.2 ⟨hinnerReach, rfl⟩]
    rw [← toNat_offset_add_length hreach, ← toNat_offset_add_length hinnerReach,
      ← UInt32.le_iff_toNat_le] at hcovers
    simp [hoffset, hcovers]

end Span

namespace Scope

/-! ## Height -/

mutual

/-- The height of a tree; a scope without scopes within has height one. -/
def height : Scope → Nat
  | ⟨_, _, _, children⟩ => heightList children + 1

/-- The height of the highest of several trees. -/
def heightList : List Scope → Nat
  | [] => 0
  | scope :: rest => max scope.height (heightList rest)

end

theorem height_eq (scope : Scope) : scope.height = heightList scope.children + 1 := by
  obtain ⟨span, locals, constants, children⟩ := scope
  rw [height]

theorem heightList_le_iff {scopes : List Scope} {n : Nat} :
    heightList scopes ≤ n ↔ ∀ scope ∈ scopes, scope.height ≤ n := by
  induction scopes with
  | nil => simp [heightList]
  | cons scope scopes ih => rw [heightList, Nat.max_le, ih, List.forall_mem_cons]

/-- A scope at a depth stays within a limit if it does itself and the scopes within do, one
deeper. -/
theorem add_height_le_iff {scope : Scope} {depth limit : Nat} :
    depth + scope.height ≤ limit + 1 ↔
      depth ≤ limit ∧ ∀ child ∈ scope.children, depth + 1 + child.height ≤ limit + 1 := by
  have hheight : depth + scope.height ≤ limit + 1 ↔
      depth ≤ limit ∧ heightList scope.children ≤ limit - depth := by
    rw [height_eq]
    omega
  rw [hheight, heightList_le_iff]
  refine and_congr_right fun hdepth => forall₂_congr fun child _ => ?_
  omega

/-- The depth check looks at all scopes still to be visited and at everything within them. -/
theorem exceedsFrom_eq_false_iff {limit : Nat} {pending : List (Scope × Nat)} :
    exceedsFrom limit pending = false ↔
      ∀ item ∈ pending, item.2 + item.1.height ≤ limit + 1 := by
  fun_induction exceedsFrom limit pending with
  | case1 => simp
  | case2 scope depth rest ih =>
    -- the work list is made with `attach` only so that it ends
    have hattach : (scope.children.attach.map fun child => (child.1, depth + 1)) =
        scope.children.map (·, depth + 1) :=
      List.attach_map_val (f := fun child => (child, depth + 1))
    rw [hattach, List.forall_mem_append, List.forall_mem_map] at ih
    rw [Bool.or_eq_false_iff, ih, List.forall_mem_cons, ← and_assoc, add_height_le_iff,
      decide_eq_false_iff_not, Nat.not_lt]

/-- A tree exceeds a depth exactly if it is higher. -/
theorem exceedsDepth_eq_false_iff {scope : Scope} {limit : Nat} :
    scope.exceedsDepth limit = false ↔ scope.height ≤ limit := by
  rw [exceedsDepth, exceedsFrom_eq_false_iff, List.forall_mem_singleton]
  show 1 + scope.height ≤ limit + 1 ↔ _
  omega

/-! ## Nesting -/

mutual

/-- Every scope in a tree lies within the scope around it. -/
def Nested : Scope → Prop
  | ⟨span, _, _, children⟩ => NestedIn span children

/-- Several scopes lie within a range, and so does every scope in them within the one around it. -/
def NestedIn (parent : Span) : List Scope → Prop
  | [] => True
  | scope :: rest => parent.Covers scope.span ∧ scope.Nested ∧ NestedIn parent rest

end

mutual

/-- The range check succeeds exactly if all ranges have an end and all scopes are nested. -/
theorem validate_eq_ok_iff (method : Token) :
    ∀ scope : Scope, scope.validate method = .ok () ↔
      (∀ span ∈ scope.spans, span.reach < UInt32.size) ∧ scope.Nested
  | ⟨span, locals, constants, children⟩ => by
    rw [validate, bind_eq_ok_iff, spans, List.forall_mem_cons, Nested]
    constructor
    · rintro ⟨stop, hstop, hchildren⟩
      have hreach := (Span.stop_eq_ok_iff.1 hstop).1
      obtain ⟨hspans, hnested⟩ := (validateWithin_eq_ok_iff method hreach children).1 hchildren
      exact ⟨⟨hreach, hspans⟩, hnested⟩
    · rintro ⟨⟨hreach, hspans⟩, hnested⟩
      exact ⟨_, Span.stop_eq_ok_iff.2 ⟨hreach, rfl⟩,
        (validateWithin_eq_ok_iff method hreach children).2 ⟨hspans, hnested⟩⟩

/-- The check of scopes within a range that has an end. -/
theorem validateWithin_eq_ok_iff (method : Token) {parent : Span}
    (hparent : parent.reach < UInt32.size) :
    ∀ scopes : List Scope, validateWithin method parent scopes = .ok () ↔
      (∀ span ∈ spansList scopes, span.reach < UInt32.size) ∧ NestedIn parent scopes
  | [] => by simp [validateWithin, spansList, NestedIn]
  | ⟨span, locals, constants, children⟩ :: rest => by
    rw [validateWithin, spansList, List.forall_mem_append, NestedIn]
    constructor
    · intro h
      split at h
      · cases h
      · rename_i hcontains
        have hcontains : parent.contains span = true := by simpa using hcontains
        obtain ⟨_, hscope, hrest⟩ := bind_eq_ok_iff.1 h
        obtain ⟨hspans, hnested⟩ := (validate_eq_ok_iff method _).1 hscope
        obtain ⟨hspansRest, hnestedRest⟩ := (validateWithin_eq_ok_iff method hparent rest).1 hrest
        exact ⟨⟨hspans, hspansRest⟩, (Span.contains_eq_true_iff.1 hcontains).2.2, hnested,
          hnestedRest⟩
    · rintro ⟨⟨hspans, hspansRest⟩, hcovers, hnested, hnestedRest⟩
      have hreach : span.reach < UInt32.size := by
        rw [spans, List.forall_mem_cons] at hspans
        exact hspans.1
      have hcontains := Span.contains_eq_true_iff.2 ⟨hparent, hreach, hcovers⟩
      rw [if_neg (by simp [hcontains])]
      exact bind_eq_ok_iff.2 ⟨(), (validate_eq_ok_iff method _).2 ⟨hspans, hnested⟩,
        (validateWithin_eq_ok_iff method hparent rest).2 ⟨hspansRest, hnestedRest⟩⟩

end

end Scope

end DebugSymbols
