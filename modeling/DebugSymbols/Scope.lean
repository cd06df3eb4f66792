import DebugSymbols.Constant
import DebugSymbols.Error

/-!
# Lexical scopes

A scope is a range of code with the variables and constants visible in it and the scopes nested
within. Trees of scopes come from outside and may be nested very deeply, so the number of scopes and
the depth limit are computed over a list of scopes still to be visited, not by nested calls.
-/

namespace DebugSymbols

/-- A local variable. -/
structure Variable where
  name : String
  slot : UInt32
  /-- Attribute bits; bit 0 marks variables that the compiler made up. -/
  attributes : UInt32
deriving DecidableEq, Repr, Inhabited

/-- The attribute bit of variables that the compiler made up. -/
def Variable.compilerGenerated : UInt32 := 1

/-- A lexical scope. -/
structure Scope where
  span : Span
  locals : List Variable
  constants : List Constant
  children : List Scope
deriving Repr, Inhabited

namespace Scope

/-- A scope in which nothing is visible. -/
def plain (span : Span) : Scope := ⟨span, [], [], []⟩

mutual

/-- The number of scopes in a tree. -/
def size : Scope → Nat
  | ⟨_, _, _, children⟩ => sizeList children + 1

/-- The number of scopes in several trees. -/
def sizeList : List Scope → Nat
  | [] => 0
  | scope :: rest => scope.size + sizeList rest

end

@[simp] theorem sizeList_append (xs ys : List Scope) :
    sizeList (xs ++ ys) = sizeList xs + sizeList ys := by
  induction xs with
  | nil => simp [sizeList]
  | cons x xs ih => simp [sizeList, ih, Nat.add_assoc]

theorem size_eq (scope : Scope) : scope.size = sizeList scope.children + 1 := by
  cases scope; simp [size]

/-- Counts scopes and everything nested in them; the list holds the scopes still to be visited. -/
def countFrom (count : Nat) (pending : List Scope) : Nat :=
  match pending with
  | [] => count
  | scope :: rest => countFrom (count + 1) (scope.children ++ rest)
termination_by sizeList pending
decreasing_by
  simp only [sizeList_append, sizeList, size_eq]
  omega

/-- The number of scopes in a tree, the outermost one included. -/
def count (scope : Scope) : Nat := countFrom 0 [scope]

/-- The number of scopes in several trees, each of them at some depth. -/
def sizeAt (pending : List (Scope × Nat)) : Nat := sizeList (pending.map (·.1))

/-- Whether a scope lies deeper than `limit`; the list holds the scopes still to be visited, each
with its depth. -/
def exceedsFrom (limit : Nat) (pending : List (Scope × Nat)) : Bool :=
  match pending with
  | [] => false
  | (scope, depth) :: rest =>
    limit < depth || exceedsFrom limit (scope.children.map (·, depth + 1) ++ rest)
termination_by sizeAt pending
decreasing_by
  simp only [sizeAt, List.map_append, List.map_map, List.map_cons, sizeList_append, sizeList,
    size_eq, Function.comp_def, List.attach_map_subtype_val]
  omega

/-- Whether scopes are nested deeper than `limit`; the outermost scope has depth one. -/
def exceedsDepth (scope : Scope) (limit : Nat) : Bool := exceedsFrom limit [(scope, 1)]

/-- Whether another scope has its range within this scope's. -/
def contains (outer inner : Scope) : Bool := outer.span.contains inner.span

end Scope

end DebugSymbols
