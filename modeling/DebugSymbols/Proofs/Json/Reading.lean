import Mathlib.Data.List.Forall2
import Mathlib.Data.Nat.Digits.Defs
import DebugSymbols.Json.Decode
import DebugSymbols.Json.Value
import DebugSymbols.Proofs.Attempt

/-!
# Numbers and arrays are read

An integer is written as a literal of its digits, a list as an array of its items. A decoder may use
as many levels as arrays and objects are nested in a node, which is the depth of the node.
-/

namespace DebugSymbols.Json

/-! ## Nesting -/

namespace Node

mutual

/-- How deep arrays and objects are nested in a node. -/
def depth : Node → Nat
  | array items _ => depthOfItems items + 1
  | object members _ => depthOfMembers members + 1
  | _ => 0

/-- The depth of the deepest item. -/
def depthOfItems : List Node → Nat
  | [] => 0
  | node :: rest => max node.depth (depthOfItems rest)

/-- The depth of the deepest value of a member. -/
def depthOfMembers : List (Except Fault String × Node) → Nat
  | [] => 0
  | (_, node) :: rest => max node.depth (depthOfMembers rest)

end

theorem depthOfItems_le_iff {items : List Node} {levels : Nat} :
    depthOfItems items ≤ levels ↔ ∀ item ∈ items, item.depth ≤ levels := by
  induction items with
  | nil => simp [depthOfItems]
  | cons item items ih => rw [depthOfItems, Nat.max_le, ih, List.forall_mem_cons]

theorem depthOfMembers_le_iff {members : List Member} {levels : Nat} :
    depthOfMembers members ≤ levels ↔ ∀ member ∈ members, member.2.depth ≤ levels := by
  induction members with
  | nil => simp [depthOfMembers]
  | cons member members ih =>
    obtain ⟨key, node⟩ := member
    rw [depthOfMembers, Nat.max_le, ih, List.forall_mem_cons]

/-- An array needs one level more than its items. -/
theorem depth_array_le_iff {items : List Node} {tail : Option Break} {levels : Nat} :
    (array items tail).depth ≤ levels ↔
      ∃ inner, levels = inner + 1 ∧ ∀ item ∈ items, item.depth ≤ inner := by
  simp only [depth, ← depthOfItems_le_iff]
  constructor
  · intro h
    exact ⟨levels - 1, by omega, by omega⟩
  · rintro ⟨inner, rfl, h⟩
    omega

/-- An object needs one level more than the values of its members. -/
theorem depth_object_le_iff {members : List Member} {tail : Option Break} {levels : Nat} :
    (object members tail).depth ≤ levels ↔
      ∃ inner, levels = inner + 1 ∧ ∀ member ∈ members, member.2.depth ≤ inner := by
  simp only [depth, ← depthOfMembers_le_iff]
  constructor
  · intro h
    exact ⟨levels - 1, by omega, by omega⟩
  · rintro ⟨inner, rfl, h⟩
    omega

end Node

/-! ## Numbers -/

/-- The literal of an integer. -/
def Literal.ofInt (n : Int) : Literal :=
  ⟨n < 0, if n = 0 then [0] else (Nat.digits 10 n.natAbs).reverse, none, none⟩

theorem Number.ofDigits_reverse_digits (n : Nat) : ofDigits (Nat.digits 10 n).reverse = n := by
  have hfold : ofDigits (Nat.digits 10 n).reverse = Nat.ofDigits 10 (Nat.digits 10 n) := by
    rw [ofDigits, List.foldl_reverse, Nat.ofDigits_eq_foldr]
    congr 1
    funext digit value
    show value * 10 + digit = digit + 10 * value
    omega
  rw [hfold, Nat.ofDigits_digits]

/-- An integer that fits 64 bits, with a sign or without, is read from its literal. -/
theorem Literal.read_ofInt {n : Int} (hlow : Int64.minValue.toInt ≤ n)
    (hhigh : n < UInt64.size) : (Literal.ofInt n).read = .ok (.integer n) := by
  have hwhole : Number.ofDigits (Literal.ofInt n).whole = n.natAbs := by
    by_cases hzero : n = 0
    · rw [hzero]
      rfl
    · rw [ofInt, if_neg hzero, Number.ofDigits_reverse_digits]
  rw [read, hwhole]
  by_cases hsign : n < 0
  · have hnegative : (Literal.ofInt n).negative = true := decide_eq_true hsign
    have habs : -(n.natAbs : Int) = n := by omega
    rw [hnegative, habs]
    exact if_pos (show 0 < n.natAbs ∧ Int64.minValue.toInt ≤ n from ⟨by omega, hlow⟩)
  · have hnegative : (Literal.ofInt n).negative = false := decide_eq_false hsign
    have habs : (n.natAbs : Int) = n := by omega
    rw [hnegative, habs]
    exact if_pos (show n.natAbs < UInt64.size by omega)

theorem Literal.read_ofInt_natCast {n : Nat} (hlt : n < UInt64.size) :
    (Literal.ofInt n).read = .ok (.integer n) :=
  Literal.read_ofInt (Int.le_trans (by decide) (Int.natCast_nonneg n)) (Int.ofNat_lt.2 hlt)

theorem Value.ofNode_number {literal : Literal} {number : Number} (h : literal.read = .ok number)
    (levels : Nat) : Value.ofNode levels (.number literal) = .ok (.number number) := by
  rw [ofNode, h]
  rfl

namespace Decoder

/-- A natural number below the limit is read. -/
theorem natural_ofInt {limit n levels : Nat} {expected : String} (hlimit : limit ≤ UInt64.size)
    (hlt : n < limit) : natural limit expected levels (.number (.ofInt n)) = .ok n := by
  rw [natural, Literal.read_ofInt_natCast (by omega)]
  exact if_pos ⟨Int.natCast_nonneg n, by omega⟩

theorem uint32_ofInt (n : UInt32) (levels : Nat) :
    uint32 levels (.number (.ofInt n.toNat)) = .ok n := by
  rw [uint32, natural_ofInt (by decide) n.toNat_lt]
  exact congrArg Except.ok UInt32.ofNat_toNat

theorem uint16_ofInt (n : UInt16) (levels : Nat) :
    uint16 levels (.number (.ofInt n.toNat)) = .ok n := by
  rw [uint16, natural_ofInt (by decide) n.toNat_lt]
  exact congrArg Except.ok UInt16.ofNat_toNat

end Decoder

/-! ## Lists -/

/-- A list is read item by item. -/
theorem mapM_eq_ok_iff {ε α β : Type} {step : α → Except ε β} {values : List α}
    {results : List β} :
    values.mapM step = .ok results ↔
      List.Forall₂ (fun value result => step value = .ok result) values results := by
  induction values generalizing results with
  | nil =>
    rw [List.mapM_nil, List.forall₂_nil_left_iff]
    exact ⟨fun h => (Except.ok.inj h).symm, fun h => h ▸ rfl⟩
  | cons value values ih =>
    simp only [List.mapM_cons, bind_eq_ok_iff, ih, List.forall₂_cons_left_iff]
    constructor
    · rintro ⟨result, hresult, others, hothers, h⟩
      exact ⟨result, others, hresult, hothers, (Except.ok.inj h).symm⟩
    · rintro ⟨result, others, hresult, hothers, rfl⟩
      exact ⟨result, hresult, others, hothers, rfl⟩

theorem exists_mapM_eq_ok {ε α β : Type} {step : α → Except ε β} {values : List α}
    {Good : β → Prop} (h : ∀ value ∈ values, ∃ result, step value = .ok result ∧ Good result) :
    ∃ results, values.mapM step = .ok results ∧ ∀ result ∈ results, Good result := by
  simp only [mapM_eq_ok_iff]
  induction values with
  | nil => exact ⟨[], .nil, List.forall_mem_nil _⟩
  | cons value values ih =>
    obtain ⟨hvalue, hvalues⟩ := List.forall_mem_cons.1 h
    obtain ⟨result, hresult, hgood⟩ := hvalue
    obtain ⟨results, hresults, hall⟩ := ih hvalues
    exact ⟨result :: results, .cons hresult hresults, List.forall_mem_cons.2 ⟨hgood, hall⟩⟩

/-- An array whose items stand for the values of a list. -/
def IsList {α : Type} (Item : α → Node → Prop) (values : List α) (node : Node) : Prop :=
  ∃ items, List.Forall₂ Item values items ∧ node = .array items none

namespace IsList

variable {α β : Type} {Item : α → Node → Prop} {values : List α} {node : Node}

theorem exists_node (h : ∀ value ∈ values, ∃ node, Item value node) :
    ∃ node, IsList Item values node := by
  induction values with
  | nil => exact ⟨_, [], .nil, rfl⟩
  | cons value values ih =>
    obtain ⟨hvalue, hvalues⟩ := List.forall_mem_cons.1 h
    obtain ⟨first, hfirst⟩ := hvalue
    obtain ⟨_, others, hothers, -⟩ := ih hvalues
    exact ⟨_, first :: others, .cons hfirst hothers, rfl⟩

/-- An array is read if its items are, one level further in. -/
theorem exists_read {decoder : Decoder β} {Good : β → α → Prop} {levels : Nat}
    (h : IsList Item values node) (hdepth : node.depth ≤ levels)
    (hitem : ∀ value ∈ values, ∀ item inner, inner < levels → Item value item →
      item.depth ≤ inner → ∃ result, decoder inner item = .ok result ∧ Good result value) :
    ∃ results, Decoder.list decoder levels node = .ok results ∧
      List.Forall₂ Good results values := by
  obtain ⟨items, hitems, rfl⟩ := h
  obtain ⟨inner, rfl, hinner⟩ := Node.depth_array_le_iff.1 hdepth
  have hread : ∃ results, items.mapM (decoder inner) = .ok results ∧
      List.Forall₂ Good results values := by
    simp only [mapM_eq_ok_iff]
    clear hdepth
    induction hitems with
    | nil => exact ⟨[], .nil, .nil⟩
    | @cons value item values items hfirst hothers ih =>
      rw [List.forall_mem_cons] at hitem hinner
      obtain ⟨result, hresult, hgood⟩ :=
        hitem.1 item inner (Nat.lt_succ_self inner) hfirst hinner.1
      obtain ⟨results, hresults, hall⟩ := ih hinner.2 hitem.2
      exact ⟨result :: results, .cons hresult hresults, .cons hgood hall⟩
  obtain ⟨results, hresults, hgood⟩ := hread
  refine ⟨results, ?_, hgood⟩
  rw [Decoder.list, hresults]
  rfl

/-- Values that are read as they are make up the list. -/
theorem read {decoder : Decoder α} {levels : Nat} (h : IsList Item values node)
    (hdepth : node.depth ≤ levels)
    (hitem : ∀ value item inner, Item value item → item.depth ≤ inner →
      decoder inner item = .ok value) : Decoder.list decoder levels node = .ok values := by
  obtain ⟨results, hresults, hsame⟩ := h.exists_read hdepth
    fun value _ item inner _ hwritten hfits => ⟨value, hitem value item inner hwritten hfits, rfl⟩
  have hsame : results = values := by rwa [List.forall₂_eq_eq_eq] at hsame
  rw [hresults, hsame]

end IsList

end DebugSymbols.Json
