import DebugSymbols.Sink.Recording

/-!
# The language of the emission protocol

A complete log is a sequence of methods with the end of the sink behind it. A method holds exactly
one outermost scope, and scopes hold scopes. Documents and the entry point may be told anywhere
before the end, sequence points and attributes anywhere in a method, variables and constants
anywhere in a scope. Handles are 32-bit numbers, given out from zero on, and sequence points name
one that has been given out.

This grammar is stated apart from the sink. How the beginning of a log can go on is decided by its
`Place`: `Place.rest_cons_iff` takes the first call off the rest of a log, and every place has such
a rest.
-/

namespace DebugSymbols

/-! ## The grammar -/

namespace Entry

/-- Whether a call may stand anywhere before the end. -/
def isFree : Entry → Bool
  | defineDocument _ _ | setUserEntryPoint _ => true
  | _ => false

/-- Whether a call may stand anywhere in a method: sequence points have columns of equal length, and
attributes are for this method. -/
def fitsMethod (method : Token) : Entry → Bool
  | defineSequencePoints _ batch => batch.isConsistent
  | setSymbolAttribute parent _ _ => parent = method
  | entry => entry.isFree

/-- Whether a call may stand anywhere in a scope of a method. -/
def fitsScope (method : Token) : Entry → Bool
  | defineLocalVariable _ | defineConstant _ _ _ => true
  | entry => entry.fitsMethod method

/-- The number of handles that a call gives out. -/
def issued : Entry → Nat
  | defineDocument _ _ => 1
  | _ => 0

/-- Whether the handles of a call are right if so many have been given out before it. -/
def HandlesFit (count : Nat) : Entry → Prop
  | defineDocument _ handle => handle = ⟨count⟩ ∧ count < UInt32.size
  | defineSequencePoints handle _ => handle.index < count
  | _ => True

end Entry

/-- What stands between the start and the end of a scope. -/
inductive ScopeContent (method : Token) : List Entry → Prop
  | nil : ScopeContent method []
  | call {entry : Entry} {rest : List Entry} (fits : entry.fitsScope method = true)
      (tail : ScopeContent method rest) : ScopeContent method (entry :: rest)
  | scope {start stop : UInt32} {content rest : List Entry} (ordered : start ≤ stop)
      (inner : ScopeContent method content) (tail : ScopeContent method rest) :
      ScopeContent method (.openScope start :: (content ++ .closeScope stop :: rest))

/-- What stands before the end of a log. -/
inductive LogContent : List Entry → Prop
  | nil : LogContent []
  | call {entry : Entry} {rest : List Entry} (free : entry.isFree = true)
      (tail : LogContent rest) : LogContent (entry :: rest)
  | method {token : Token} {front content back rest : List Entry} {start stop : UInt32}
      (front_fits : ∀ entry ∈ front, entry.fitsMethod token = true) (ordered : start ≤ stop)
      (inner : ScopeContent token content)
      (back_fits : ∀ entry ∈ back, entry.fitsMethod token = true) (tail : LogContent rest) :
      LogContent (.openMethod token :: (front ++ .openScope start ::
        (content ++ .closeScope stop :: (back ++ .closeMethod :: rest))))

/-- Whether all handles of a log are right if `count` have been given out before it. -/
def HandlesFit : Nat → List Entry → Prop
  | _, [] => True
  | count, entry :: rest => entry.HandlesFit count ∧ HandlesFit (count + entry.issued) rest

/-- A log that ends with the end of the sink. -/
structure CompleteLog (log : List Entry) : Prop where
  content : ∃ content, LogContent content ∧ log = content ++ [.close]
  handles : HandlesFit 0 log

/-- The beginning of a complete log. -/
def LogPrefix (log : List Entry) : Prop := ∃ rest, CompleteLog (log ++ rest)

/-! ## Places -/

/-- How the beginning of a log can go on. -/
inductive Place
  /-- Between methods. -/
  | outside
  /-- In a method before its outermost scope. -/
  | untold (method : Token)
  /-- In a method from its outermost scope on, with the starts of the open scopes, the innermost
  first. -/
  | told (method : Token) (scopes : List UInt32)
  | ended
deriving DecidableEq, Repr

/-- Whether a list consists of calls of one kind and a tail behind them. -/
def LedBy (fits : Entry → Bool) (Tail : List Entry → Prop) (rest : List Entry) : Prop :=
  ∃ front tail, (∀ entry ∈ front, fits entry = true) ∧ Tail tail ∧ rest = front ++ tail

/-- What may follow between methods. -/
def OutsideRest (rest : List Entry) : Prop :=
  ∃ content, LogContent content ∧ rest = content ++ [.close]

/-- What may follow in a method from its outermost scope on. -/
def ToldRest (method : Token) : List UInt32 → List Entry → Prop
  | [], rest =>
    LedBy (Entry.fitsMethod method)
      (fun tail => ∃ after, OutsideRest after ∧ tail = .closeMethod :: after) rest
  | start :: outer, rest => ∃ content stop after, ScopeContent method content ∧ start ≤ stop ∧
      ToldRest method outer after ∧ rest = content ++ .closeScope stop :: after

/-- What may follow in a method before its outermost scope. -/
def UntoldRest (method : Token) : List Entry → Prop :=
  LedBy (Entry.fitsMethod method)
    (fun tail => ∃ start after, ToldRest method [start] after ∧ tail = .openScope start :: after)

namespace Place

/-- What may follow at a place. -/
def Rest : Place → List Entry → Prop
  | outside, rest => OutsideRest rest
  | untold method, rest => UntoldRest method rest
  | told method scopes, rest => ToldRest method scopes rest
  | ended, rest => rest = []

@[simp] theorem rest_outside (rest : List Entry) : outside.Rest rest = OutsideRest rest := rfl

@[simp] theorem rest_untold (method : Token) (rest : List Entry) :
    (untold method).Rest rest = UntoldRest method rest := rfl

@[simp] theorem rest_told (method : Token) (scopes : List UInt32) (rest : List Entry) :
    (told method scopes).Rest rest = ToldRest method scopes rest := rfl

@[simp] theorem rest_ended (rest : List Entry) : ended.Rest rest = (rest = []) := rfl

/-- Whether a call may stand at a place and leads to no other one. -/
def holds : Place → Entry → Bool
  | outside, entry => entry.isFree
  | untold method, entry => entry.fitsMethod method
  | told method [], entry => entry.fitsMethod method
  | told method (_ :: _), entry => entry.fitsScope method
  | ended, _ => false

/-- The place after a call, if the call may stand here. -/
def next? (place : Place) (entry : Entry) : Option Place :=
  match entry with
  | .openMethod method => if place = outside then some (untold method) else none
  | .closeMethod =>
    match place with
    | told _ [] => some outside
    | _ => none
  | .openScope start =>
    match place with
    | untold method => some (told method [start])
    | told method (inner :: outer) => some (told method (start :: inner :: outer))
    | _ => none
  | .closeScope stop =>
    match place with
    | told method (start :: outer) => if start ≤ stop then some (told method outer) else none
    | _ => none
  | .close => if place = outside then some ended else none
  | .defineDocument _ _ | .setUserEntryPoint _ | .defineSequencePoints _ _
  | .defineLocalVariable _ | .defineConstant _ _ _ | .setSymbolAttribute _ _ _ =>
    if place.holds entry then some place else none
  | .aborted => none

/-- A rest that fits a place. -/
def ending : Place → List Entry
  | outside => [.close]
  | untold _ => [.openScope 0, .closeScope 0, .closeMethod, .close]
  | told _ scopes => scopes.map .closeScope ++ [.closeMethod, .close]
  | ended => []

end Place

/-! ## The first call of a rest -/

theorem ledBy_cons_iff {fits : Entry → Bool} {Tail : List Entry → Prop} {entry : Entry}
    {rest : List Entry} :
    LedBy fits Tail (entry :: rest) ↔
      Tail (entry :: rest) ∨ fits entry = true ∧ LedBy fits Tail rest := by
  constructor
  · rintro ⟨front, tail, hfits, htail, heq⟩
    cases front with
    | nil =>
      rw [List.nil_append] at heq
      exact Or.inl (heq ▸ htail)
    | cons first front =>
      obtain ⟨rfl, rfl⟩ := List.cons.inj heq
      rw [List.forall_mem_cons] at hfits
      exact Or.inr ⟨hfits.1, front, tail, hfits.2, htail, rfl⟩
  · rintro (htail | ⟨hentry, front, tail, hfits, htail, rfl⟩)
    · exact ⟨[], _, by simp, htail, rfl⟩
    · exact ⟨entry :: front, tail, List.forall_mem_cons.2 ⟨hentry, hfits⟩, htail, rfl⟩

theorem outsideRest_cons_iff {entry : Entry} {rest : List Entry} :
    OutsideRest (entry :: rest) ↔
      (entry = .close ∧ rest = []) ∨ (entry.isFree = true ∧ OutsideRest rest) ∨
        ∃ method, entry = .openMethod method ∧ UntoldRest method rest := by
  constructor
  · rintro ⟨content, hcontent, heq⟩
    cases hcontent with
    | nil =>
      obtain ⟨rfl, rfl⟩ := List.cons.inj heq
      exact Or.inl ⟨rfl, rfl⟩
    | call free tail =>
      obtain ⟨rfl, rfl⟩ := List.cons.inj heq
      exact Or.inr (Or.inl ⟨free, _, tail, rfl⟩)
    | method front_fits ordered inner back_fits tail =>
      simp only [List.append_assoc, List.cons_append] at heq
      obtain ⟨rfl, rfl⟩ := List.cons.inj heq
      refine Or.inr (Or.inr ⟨_, rfl, _, _, front_fits, ⟨_, _, ?_, rfl⟩, rfl⟩)
      exact ⟨_, _, _, inner, ordered, ⟨_, _, back_fits, ⟨_, ⟨_, tail, rfl⟩, rfl⟩, rfl⟩, rfl⟩
  · rintro (⟨rfl, rfl⟩ | ⟨hfree, content, hcontent, rfl⟩ | ⟨method, rfl, hrest⟩)
    · exact ⟨[], .nil, rfl⟩
    · exact ⟨_, .call hfree hcontent, rfl⟩
    · obtain ⟨front, _, hfront, ⟨start, _, htold, rfl⟩, rfl⟩ := hrest
      obtain ⟨inner, stop, _, hinner, hordered, hclosed, rfl⟩ := htold
      obtain ⟨back, _, hback, ⟨_, ⟨content, hcontent, rfl⟩, rfl⟩, rfl⟩ := hclosed
      refine ⟨_, .method hfront hordered hinner hback hcontent, ?_⟩
      simp only [List.append_assoc, List.cons_append]

theorem untoldRest_cons_iff {method : Token} {entry : Entry} {rest : List Entry} :
    UntoldRest method (entry :: rest) ↔
      (∃ start, entry = .openScope start ∧ ToldRest method [start] rest) ∨
        entry.fitsMethod method = true ∧ UntoldRest method rest := by
  rw [UntoldRest, ledBy_cons_iff]
  refine or_congr_left ⟨?_, ?_⟩
  · rintro ⟨start, after, hafter, heq⟩
    obtain ⟨rfl, rfl⟩ := List.cons.inj heq
    exact ⟨start, rfl, hafter⟩
  · rintro ⟨start, rfl, hrest⟩
    exact ⟨start, rest, hrest, rfl⟩

theorem toldRest_nil_cons_iff {method : Token} {entry : Entry} {rest : List Entry} :
    ToldRest method [] (entry :: rest) ↔
      (entry = .closeMethod ∧ OutsideRest rest) ∨
        entry.fitsMethod method = true ∧ ToldRest method [] rest := by
  rw [ToldRest, ledBy_cons_iff, ToldRest]
  refine or_congr_left ⟨?_, ?_⟩
  · rintro ⟨after, hafter, heq⟩
    obtain ⟨rfl, rfl⟩ := List.cons.inj heq
    exact ⟨rfl, hafter⟩
  · rintro ⟨rfl, hrest⟩
    exact ⟨rest, hrest, rfl⟩

theorem toldRest_cons_cons_iff {method : Token} {start : UInt32} {outer : List UInt32}
    {entry : Entry} {rest : List Entry} :
    ToldRest method (start :: outer) (entry :: rest) ↔
      (∃ stop, entry = .closeScope stop ∧ start ≤ stop ∧ ToldRest method outer rest) ∨
        (∃ inner, entry = .openScope inner ∧ ToldRest method (inner :: start :: outer) rest) ∨
          entry.fitsScope method = true ∧ ToldRest method (start :: outer) rest := by
  constructor
  · rintro ⟨content, stop, after, hcontent, hordered, hafter, heq⟩
    cases hcontent with
    | nil =>
      obtain ⟨rfl, rfl⟩ := List.cons.inj heq
      exact Or.inl ⟨stop, rfl, hordered, hafter⟩
    | call fits tail =>
      obtain ⟨rfl, rfl⟩ := List.cons.inj heq
      exact Or.inr (Or.inr ⟨fits, _, stop, after, tail, hordered, hafter, rfl⟩)
    | scope ordered inner tail =>
      -- what follows the inner scope is the rest of the content around it
      simp only [List.append_assoc, List.cons_append] at heq
      obtain ⟨rfl, rfl⟩ := List.cons.inj heq
      refine Or.inr (Or.inl ⟨_, rfl, _, _, _, inner, ordered, ?_, rfl⟩)
      exact ⟨_, stop, after, tail, hordered, hafter, rfl⟩
  · rintro (⟨stop, rfl, hordered, hrest⟩ | ⟨start', rfl, hrest⟩ | ⟨hfits, hrest⟩)
    · exact ⟨[], stop, rest, .nil, hordered, hrest, rfl⟩
    · obtain ⟨inner, stop', _, hinner, hordered', hrest, rfl⟩ := hrest
      obtain ⟨content, stop, after, hcontent, hordered, hafter, rfl⟩ := hrest
      refine ⟨_, stop, after, .scope hordered' hinner hcontent, hordered, hafter, ?_⟩
      rw [List.cons_append, List.append_assoc, List.cons_append]
    · obtain ⟨content, stop, after, hcontent, hordered, hafter, rfl⟩ := hrest
      exact ⟨_, stop, after, .call hfits hcontent, hordered, hafter, rfl⟩

theorem ite_some_eq_some_iff {α : Type} {p : Prop} [Decidable p] {value other : α} :
    (if p then some value else none) = some other ↔ p ∧ value = other := by
  rw [Option.ite_none_right_eq_some, Option.some_inj]

/-- A call can be the first one of a rest exactly if it may stand at the place, and what follows it
is a rest at the next place. -/
theorem Place.rest_cons_iff {place : Place} {entry : Entry} {rest : List Entry} :
    place.Rest (entry :: rest) ↔ ∃ next, place.next? entry = some next ∧ next.Rest rest := by
  -- what the grammar has for the first call is compared with `next?` call by call
  cases place with
  | outside =>
    rw [rest_outside, outsideRest_cons_iff]
    cases entry <;> simp only [next?, ite_some_eq_some_iff, and_assoc] <;>
      simp [holds, Entry.isFree]
  | untold method =>
    rw [rest_untold, untoldRest_cons_iff]
    cases entry <;> simp only [next?, ite_some_eq_some_iff, and_assoc] <;>
      simp [holds, Entry.fitsMethod, Entry.isFree]
  | told method scopes =>
    rw [rest_told]
    cases scopes with
    | nil =>
      rw [toldRest_nil_cons_iff]
      cases entry <;> simp only [next?, ite_some_eq_some_iff, and_assoc] <;>
        simp [holds, Entry.fitsMethod, Entry.isFree]
    | cons start outer =>
      rw [toldRest_cons_cons_iff]
      cases entry <;> simp only [next?, ite_some_eq_some_iff, and_assoc] <;>
        simp [holds, Entry.fitsScope, Entry.fitsMethod, Entry.isFree]
  | ended => cases entry <;> simp [next?, holds]

/-! ## Rests of every beginning -/

theorem toldRest_ending (method : Token) (scopes : List UInt32) :
    ToldRest method scopes (Place.told method scopes).ending := by
  induction scopes with
  | nil => exact ⟨[], _, by simp, ⟨_, ⟨[], .nil, rfl⟩, rfl⟩, rfl⟩
  | cons start outer ih => exact ⟨[], start, _, .nil, UInt32.le_refl start, ih, rfl⟩

/-- At every place there is a rest, and it needs no handles. -/
theorem Place.rest_ending (place : Place) : place.Rest place.ending := by
  cases place with
  | outside => exact ⟨[], .nil, rfl⟩
  | untold method => exact ⟨[], _, by simp, ⟨0, _, toldRest_ending method [0], rfl⟩, rfl⟩
  | told method scopes => exact toldRest_ending method scopes
  | ended => rfl

theorem Place.handlesFit_ending (place : Place) (count : Nat) : HandlesFit count place.ending := by
  cases place with
  | told method scopes =>
    rw [ending]
    induction scopes with
    | nil => simp [HandlesFit, Entry.HandlesFit]
    | cons start outer ih => exact ⟨trivial, ih⟩
  | _ => simp [ending, HandlesFit, Entry.HandlesFit]

end DebugSymbols
