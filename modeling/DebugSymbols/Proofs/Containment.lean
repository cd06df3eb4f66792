import DebugSymbols.Proofs.Emit.Totals
import DebugSymbols.Proofs.Scope

/-!
# Containment at any depth

The range check compares every scope with the one directly around it. If it succeeds, every scope
lies within all scopes around it, at whatever depth, as ranges that have ends are contained in each
other transitively.
-/

namespace DebugSymbols

theorem Span.Covers.refl (span : Span) : span.Covers span := ⟨UInt32.le_refl _, Nat.le_refl _⟩

theorem Span.Covers.trans {outer middle inner : Span} (h : outer.Covers middle)
    (h' : middle.Covers inner) : outer.Covers inner :=
  ⟨UInt32.le_trans h.1 h'.1, Nat.le_trans h'.2 h.2⟩

namespace Scope

/-! ## Scopes at any depth -/

/-- What holds of a scope if it holds of all scopes directly within holds of every scope. -/
theorem induction_children {motive : Scope → Prop}
    (step : ∀ scope : Scope, (∀ child ∈ scope.children, motive child) → motive scope)
    (scope : Scope) : motive scope := by
  obtain ⟨span, locals, constants, children⟩ := scope
  exact step _ fun child _ => induction_children step child

theorem mem_allList_iff {scopes : List Scope} {inner : Scope} :
    inner ∈ allList scopes ↔ ∃ child ∈ scopes, inner ∈ child.all := by
  induction scopes with
  | nil => simp [allList]
  | cons scope scopes ih => rw [allList, List.mem_append, ih, List.exists_mem_cons_iff]

theorem mem_all_iff {scope inner : Scope} :
    inner ∈ scope.all ↔ inner = scope ∨ ∃ child ∈ scope.children, inner ∈ child.all := by
  rw [all_eq, List.mem_cons, mem_allList_iff]

theorem mem_all_self (scope : Scope) : scope ∈ scope.all := mem_all_iff.2 (Or.inl rfl)

/-- What is within a scope is in its tree. -/
theorem mem_all_of_mem_allList {scope inner : Scope} (h : inner ∈ allList scope.children) :
    inner ∈ scope.all := by
  rw [all_eq]
  exact List.mem_cons_of_mem _ h

/-- What is within a scope of a tree is in the tree. -/
theorem mem_all_of_mem_all {scope outer inner : Scope} :
    outer ∈ scope.all → inner ∈ outer.all → inner ∈ scope.all := by
  induction scope using induction_children with
  | step scope ih =>
    intro houter hinner
    rcases mem_all_iff.1 houter with rfl | ⟨child, hchild, houter⟩
    · exact hinner
    · exact mem_all_iff.2 (Or.inr ⟨child, hchild, ih child hchild houter hinner⟩)

mutual

theorem spans_eq_map : ∀ scope : Scope, scope.spans = scope.all.map (·.span)
  | ⟨span, locals, constants, children⟩ => by
    rw [spans, all, List.map_cons, spansList_eq_map children]

theorem spansList_eq_map : ∀ scopes : List Scope, spansList scopes = (allList scopes).map (·.span)
  | [] => rfl
  | scope :: rest => by
    rw [spansList, allList, List.map_append, spans_eq_map scope, spansList_eq_map rest]

end

/-! ## Nesting at any depth -/

theorem nestedIn_iff {parent : Span} {scopes : List Scope} :
    NestedIn parent scopes ↔ ∀ scope ∈ scopes, parent.Covers scope.span ∧ scope.Nested := by
  induction scopes with
  | nil => simp [NestedIn]
  | cons scope scopes ih => rw [NestedIn, ih, List.forall_mem_cons, and_assoc]

theorem nested_iff {scope : Scope} :
    scope.Nested ↔ ∀ child ∈ scope.children, scope.span.Covers child.span ∧ child.Nested := by
  obtain ⟨span, locals, constants, children⟩ := scope
  rw [Nested, nestedIn_iff]

/-- Every scope of a nested tree is nested. -/
theorem Nested.of_mem_all {scope : Scope} :
    scope.Nested → ∀ inner ∈ scope.all, inner.Nested := by
  induction scope using induction_children with
  | step scope ih =>
    intro h inner hinner
    rcases mem_all_iff.1 hinner with rfl | ⟨child, hchild, hinner⟩
    · exact h
    · exact ih child hchild (nested_iff.1 h child hchild).2 inner hinner

/-- The outermost scope of a nested tree covers all the others. -/
theorem Nested.covers {scope : Scope} :
    scope.Nested → ∀ inner ∈ scope.all, scope.span.Covers inner.span := by
  induction scope using induction_children with
  | step scope ih =>
    intro h inner hinner
    rcases mem_all_iff.1 hinner with rfl | ⟨child, hchild, hinner⟩
    · exact .refl _
    · obtain ⟨hcovers, hnested⟩ := nested_iff.1 h child hchild
      exact hcovers.trans (ih child hchild hnested inner hinner)

/-- If every scope covers those directly within, it covers those at any depth, and conversely. -/
theorem nested_iff_covers {scope : Scope} :
    scope.Nested ↔
      ∀ outer ∈ scope.all, ∀ inner ∈ allList outer.children, outer.span.Covers inner.span := by
  constructor
  · intro h outer houter inner hinner
    exact (h.of_mem_all outer houter).covers inner (mem_all_of_mem_allList hinner)
  · induction scope using induction_children with
    | step scope ih =>
      intro h
      refine nested_iff.2 fun child hchild => ⟨?_, ih child hchild fun outer houter => ?_⟩
      · exact h scope scope.mem_all_self child (mem_allList_iff.2 ⟨child, hchild, child.mem_all_self⟩)
      · exact h outer (mem_all_iff.2 (Or.inr ⟨child, hchild, houter⟩))

/-- The range check succeeds exactly if no range of the tree overflows and every scope is contained
in all scopes around it. -/
theorem validate_eq_ok_iff_contains (method : Token) (scope : Scope) :
    scope.validate method = .ok () ↔
      (∀ inner ∈ scope.all, inner.span.reach < UInt32.size) ∧
        ∀ outer ∈ scope.all, ∀ inner ∈ allList outer.children, outer.contains inner = true := by
  rw [validate_eq_ok_iff, nested_iff_covers, spans_eq_map, List.forall_mem_map]
  refine and_congr_right fun hreach => forall₂_congr fun outer houter =>
    forall₂_congr fun inner hinner => ?_
  have hinside : inner ∈ scope.all := mem_all_of_mem_all houter (mem_all_of_mem_allList hinner)
  rw [contains, Span.contains_eq_true_iff]
  simp only [hreach outer houter, hreach inner hinside, true_and]

end Scope

end DebugSymbols
