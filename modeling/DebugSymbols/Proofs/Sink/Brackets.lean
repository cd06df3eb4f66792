import DebugSymbols.Proofs.Sink.Recording

/-!
# Scopes as brackets

In a log the start and the end of a scope are a pair of brackets. `Shows` says that a log shows a
scope, and `Innermost` which one is the innermost that is open at a place of the log. Both are read
off the calls alone. A count of what is opened and not closed tells that there is one way to pair
the brackets: what lies between a start and its end is fixed by the start, and an open scope by the
place.
-/

namespace DebugSymbols

/-- By how much a call changes the number of open scopes. -/
def Entry.weight : Entry → Int
  | openScope _ => 1
  | closeScope _ => -1
  | _ => 0

/-- How many more scopes are opened than closed. -/
def level (log : List Entry) : Int := log.foldr (fun entry count => entry.weight + count) 0

@[simp] theorem level_nil : level [] = 0 := rfl

@[simp] theorem level_cons (entry : Entry) (log : List Entry) :
    level (entry :: log) = entry.weight + level log := rfl

@[simp] theorem level_append (front back : List Entry) :
    level (front ++ back) = level front + level back := by
  induction front with
  | nil => simp
  | cons entry front ih => simp [ih, Int.add_assoc]

/-- Calls that close all scopes which they open, and no others. -/
inductive Balanced : List Entry → Prop
  | nil : Balanced []
  | call {entry : Entry} {rest : List Entry} (plain : entry.weight = 0) (tail : Balanced rest) :
      Balanced (entry :: rest)
  | scope {start stop : UInt32} {content rest : List Entry} (inner : Balanced content)
      (tail : Balanced rest) : Balanced (.openScope start :: (content ++ .closeScope stop :: rest))

namespace Balanced

variable {log front back : List Entry}

theorem append (hfront : Balanced front) (hback : Balanced back) : Balanced (front ++ back) := by
  induction hfront with
  | nil => exact hback
  | call plain _ ih => exact .call plain ih
  | scope inner _ _ ih =>
    rw [List.cons_append, List.append_assoc]
    exact .scope inner ih

theorem of_plain (h : ∀ entry ∈ log, entry.weight = 0) : Balanced log := by
  induction log with
  | nil => exact .nil
  | cons entry log ih =>
    obtain ⟨hentry, hlog⟩ := List.forall_mem_cons.1 h
    exact .call hentry (ih hlog)

theorem level_eq_zero (h : Balanced log) : level log = 0 := by
  induction h with
  | nil => rfl
  | call plain _ ih => rw [level_cons, plain, ih]; rfl
  | scope _ _ hinner htail => simp [hinner, htail, Entry.weight]

/-- Balanced calls never close a scope that they have not opened. -/
theorem level_nonneg (h : Balanced log) {front back : List Entry} (heq : log = front ++ back) :
    0 ≤ level front := by
  induction h generalizing front back with
  | nil =>
    rw [(List.append_eq_nil_iff.1 heq.symm).1]
    exact Int.le_refl 0
  | call plain _ ih =>
    rcases List.cons_eq_append_iff.1 heq with ⟨rfl, -⟩ | ⟨tail, rfl, hrest⟩
    · exact Int.le_refl 0
    · rw [level_cons, plain, Int.zero_add]
      exact ih hrest
  | scope inner _ hinner htail =>
    rcases List.cons_eq_append_iff.1 heq with ⟨rfl, -⟩ | ⟨tail, rfl, hrest⟩
    · exact Int.le_refl 0
    rw [level_cons]
    rcases List.append_eq_append_iff.1 hrest with ⟨more, rfl, hmore⟩ | ⟨more, hcontent, -⟩
    · -- the part goes beyond what is within the scope
      rw [level_append, inner.level_eq_zero]
      rcases List.cons_eq_append_iff.1 hmore with ⟨rfl, -⟩ | ⟨later, rfl, hlater⟩
      · simp [Entry.weight]
      · have hlevel := htail hlater
        simp only [level_cons, Entry.weight]
        omega
    · have hlevel := hinner hcontent
      simp only [Entry.weight]
      omega

/-- Balanced calls close every scope that they open. -/
theorem level_nonpos (h : Balanced (front ++ back)) : level back ≤ 0 := by
  have hzero := h.level_eq_zero
  have hfront := h.level_nonneg rfl
  rw [level_append] at hzero
  omega

theorem not_append_close {stop : UInt32} (h : Balanced front) :
    ¬ Balanced (front ++ .closeScope stop :: back) := by
  intro hclosed
  have hlevel := hclosed.level_nonneg (List.append_cons front _ back)
  simp [h.level_eq_zero, Entry.weight] at hlevel

theorem not_append_open {start : UInt32} (h : Balanced back) :
    ¬ Balanced (front ++ .openScope start :: back) := by
  intro hopened
  have hlevel := hopened.level_nonpos
  simp [h.level_eq_zero, Entry.weight] at hlevel

/-- The end of a scope is the first one that leaves balanced calls before it. -/
theorem eq_of_append_close {other rest : List Entry} {stop otherStop : UInt32}
    (h : Balanced front) (hother : Balanced other)
    (heq : front ++ .closeScope stop :: back = other ++ .closeScope otherStop :: rest) :
    front = other ∧ stop = otherStop ∧ back = rest := by
  rcases List.append_eq_append_iff.1 heq with ⟨more, rfl, hmore⟩ | ⟨more, rfl, hmore⟩ <;>
    rcases List.cons_eq_append_iff.1 hmore with ⟨rfl, hclose⟩ | ⟨later, rfl, -⟩
  · obtain ⟨hstop, hrest⟩ := List.cons.inj hclose
    exact ⟨(List.append_nil front).symm, (Entry.closeScope.inj hstop).symm, hrest.symm⟩
  · exact absurd hother h.not_append_close
  · obtain ⟨hstop, hrest⟩ := List.cons.inj hclose
    exact ⟨List.append_nil other, Entry.closeScope.inj hstop, hrest⟩
  · exact absurd h hother.not_append_close

/-- The start of an open scope is the last one that leaves balanced calls behind it. -/
theorem eq_of_append_open {other rest : List Entry} {start otherStart : UInt32}
    (h : Balanced back) (hother : Balanced rest)
    (heq : front ++ .openScope start :: back = other ++ .openScope otherStart :: rest) :
    front = other ∧ start = otherStart ∧ back = rest := by
  rcases List.append_eq_append_iff.1 heq with ⟨more, rfl, hmore⟩ | ⟨more, rfl, hmore⟩ <;>
    rcases List.cons_eq_append_iff.1 hmore with ⟨rfl, hopen⟩ | ⟨later, rfl, hlater⟩
  · obtain ⟨hstart, hrest⟩ := List.cons.inj hopen
    exact ⟨(List.append_nil front).symm, (Entry.openScope.inj hstart).symm, hrest.symm⟩
  · exact absurd (hlater ▸ h) hother.not_append_open
  · obtain ⟨hstart, hrest⟩ := List.cons.inj hopen
    exact ⟨List.append_nil other, Entry.openScope.inj hstart, hrest⟩
  · exact absurd (hlater ▸ hother) h.not_append_open

end Balanced

/-! ## The scopes that a log shows -/

/-- A scope as a log shows it. -/
structure ShownScope where
  start : UInt32
  stop : UInt32
  /-- The calls between the start and the end. -/
  content : List Entry

/-- The calls of a scope. -/
def ShownScope.calls (scope : ShownScope) : List Entry :=
  .openScope scope.start :: (scope.content ++ [.closeScope scope.stop])

/-- Whether a log shows a scope: it is opened and then closed, and so are all scopes that are opened
in between. -/
def Shows (log : List Entry) (scope : ShownScope) : Prop :=
  Balanced scope.content ∧ scope.calls <:+: log

section Shows

variable {entry : Entry} {front rest content : List Entry} {scope : ShownScope}

theorem not_shows_nil : ¬ Shows [] scope := fun h => nomatch List.infix_nil.1 h.2

/-- A call that opens no scope is not part of any scope that begins with it. -/
theorem shows_cons_iff (h : entry.weight ≠ 1) : Shows (entry :: rest) scope ↔ Shows rest scope := by
  refine and_congr_right fun _ => ?_
  rw [List.infix_cons_iff]
  refine or_iff_right fun hprefix => h ?_
  rw [← (List.cons_prefix_cons.1 hprefix).1]
  rfl

theorem shows_append_iff (h : ∀ entry ∈ front, entry.weight = 0) :
    Shows (front ++ rest) scope ↔ Shows rest scope := by
  induction front with
  | nil => rfl
  | cons entry front ih =>
    obtain ⟨hentry, hfront⟩ := List.forall_mem_cons.1 h
    rw [List.cons_append, shows_cons_iff (by simp [hentry]), ih hfront]

/-- Where a scope begins, a log shows this scope and what it shows behind the start. -/
theorem shows_open_iff {start stop : UInt32} (hcontent : Balanced content) :
    Shows (.openScope start :: (content ++ .closeScope stop :: rest)) scope ↔
      scope = ⟨start, stop, content⟩ ∨ Shows (content ++ .closeScope stop :: rest) scope := by
  constructor
  · rintro ⟨hshown, hinfix⟩
    rcases List.infix_cons_iff.1 hinfix with hprefix | hinfix
    · obtain ⟨hstart, more, hmore⟩ := List.cons_prefix_cons.1 hprefix
      rw [List.append_assoc] at hmore
      obtain ⟨hcontentEq, hstop, -⟩ := hshown.eq_of_append_close hcontent hmore
      rw [← Entry.openScope.inj hstart, ← hcontentEq, ← hstop]
      exact Or.inl rfl
    · exact Or.inr ⟨hshown, hinfix⟩
  · rintro (heq | ⟨hshown, hinfix⟩)
    · cases heq
      have hprefix : (ShownScope.mk start stop content).calls <+:
          .openScope start :: (content ++ .closeScope stop :: rest) :=
        ⟨rest, by simp [ShownScope.calls]⟩
      exact ⟨hcontent, hprefix.isInfix⟩
    · exact ⟨hshown, List.infix_cons hinfix⟩

end Shows

/-! ## The innermost scope at a place -/

/-- The range of the innermost scope that is open at a place of a log, which has the calls `before`
before it and `after` behind it. -/
def Innermost (before after : List Entry) (start stop : UInt32) : Prop :=
  ∃ outer front back rest, Balanced front ∧ Balanced back ∧
    before = outer ++ .openScope start :: front ∧ after = back ++ .closeScope stop :: rest

namespace Innermost

variable {before after : List Entry} {start stop otherStart otherStop : UInt32}

/-- There is one innermost scope at most. -/
theorem unique (h : Innermost before after start stop)
    (hother : Innermost before after otherStart otherStop) :
    start = otherStart ∧ stop = otherStop := by
  obtain ⟨outer, front, back, rest, hfront, hback, rfl, rfl⟩ := h
  obtain ⟨_, _, _, _, hotherFront, hotherBack, hbefore, hafter⟩ := hother
  obtain ⟨-, hstart, -⟩ := hfront.eq_of_append_open hotherFront hbefore
  obtain ⟨-, hstop, -⟩ := hback.eq_of_append_close hotherBack hafter
  exact ⟨hstart, hstop⟩

/-- It does not depend on what is told before and after it. -/
theorem append (h : Innermost before after start stop) (first last : List Entry) :
    Innermost (first ++ before) (after ++ last) start stop := by
  obtain ⟨outer, front, back, rest, hfront, hback, rfl, rfl⟩ := h
  refine ⟨first ++ outer, front, back, rest ++ last, hfront, hback, ?_, ?_⟩
  · rw [List.append_assoc]
  · rw [List.append_assoc, List.cons_append]

end Innermost

/-- A call of a log in two parts is in the second or in the first one. -/
theorem split_append {front back before after : List Entry} {entry : Entry}
    (h : front ++ back = before ++ entry :: after) :
    (∃ more, before = front ++ more ∧ back = more ++ entry :: after) ∨
      ∃ more, front = before ++ entry :: more ∧ after = more ++ back := by
  rcases List.append_eq_append_iff.1 h with ⟨more, hbefore, hback⟩ | ⟨more, hfront, hmore⟩
  · exact Or.inl ⟨more, hbefore, hback⟩
  · rcases List.cons_eq_append_iff.1 hmore with ⟨rfl, hback⟩ | ⟨rest, rfl, hafter⟩
    · rw [List.append_nil] at hfront
      exact Or.inl ⟨[], by rw [hfront, List.append_nil], hback⟩
    · exact Or.inr ⟨rest, hfront, hafter⟩

/-- Whether every variable of a log has the range of the innermost scope that is open where it is
defined. -/
def LocalsFit (log : List Entry) : Prop :=
  ∀ before local_ after, log = before ++ .defineLocalVariable local_ :: after →
    Innermost before after local_.start local_.stop

namespace LocalsFit

variable {log front back : List Entry}

theorem of_notMem (h : ∀ local_, .defineLocalVariable local_ ∉ log) : LocalsFit log := by
  rintro before local_ after rfl
  exact absurd (List.mem_append_right _ List.mem_cons_self) (h local_)

theorem append (hfront : LocalsFit front) (hback : LocalsFit back) : LocalsFit (front ++ back) := by
  intro before local_ after heq
  rcases split_append heq with ⟨more, rfl, hmore⟩ | ⟨more, hmore, rfl⟩
  · simpa using (hback more local_ after hmore).append front []
  · simpa using (hfront before local_ more hmore).append [] back

/-- The variables of a scope itself have its range, and stand before the scopes within. -/
theorem calls {start stop : UInt32} {own inner : List Entry}
    (hplain : ∀ entry ∈ own, entry.weight = 0)
    (hown : ∀ local_, .defineLocalVariable local_ ∈ own → local_.start = start ∧ local_.stop = stop)
    (hbalanced : Balanced inner) (hinner : LocalsFit inner) :
    LocalsFit (ShownScope.calls ⟨start, stop, own ++ inner⟩) := by
  have hend : LocalsFit (inner ++ [.closeScope stop]) := hinner.append (of_notMem (by simp))
  intro before local_ after heq
  rcases List.cons_eq_append_iff.1 heq with ⟨-, hopen⟩ | ⟨front, rfl, hrest⟩
  · cases hopen
  rw [List.append_assoc] at hrest
  rcases split_append hrest with ⟨more, rfl, hmore⟩ | ⟨more, rfl, rfl⟩
  · simpa using (hend more local_ after hmore).append (.openScope start :: own) []
  · obtain ⟨rfl, rfl⟩ := hown local_ (List.mem_append_right _ List.mem_cons_self)
    simp only [List.forall_mem_append, List.forall_mem_cons] at hplain
    exact ⟨[], front, more ++ inner, [], .of_plain hplain.1,
      (Balanced.of_plain hplain.2.2).append hbalanced, rfl, (List.append_assoc ..).symm⟩

end LocalsFit

end DebugSymbols
