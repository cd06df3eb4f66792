import DebugSymbols.Proofs.TreeFile.Layout
import DebugSymbols.TreeFile.Convert

/-!
# Constants that fit their type

An integer type takes the integers between its bounds and nothing else, and an integer that it takes
is kept as it is. A constant in a file that does not fit makes the file no tree.
-/

namespace DebugSymbols.TreeFile

variable {kind : String} {low high n : Int} {value : Json.Value} {constant : ConstantValue}

/-- The least and the greatest integer of a type; none for a type that has other values. -/
def integerBounds? (kind : String) : Option (Int × Int) :=
  match kind with
  | "i1" => some (-2 ^ 7, 2 ^ 7 - 1)
  | "u1" => some (0, 2 ^ 8 - 1)
  | "i2" => some (-2 ^ 15, 2 ^ 15 - 1)
  | "u2" => some (0, 2 ^ 16 - 1)
  | "i4" => some (-2 ^ 31, 2 ^ 31 - 1)
  | "u4" => some (0, 2 ^ 32 - 1)
  | "i8" => some (-2 ^ 63, 2 ^ 63 - 1)
  | "u8" => some (0, 2 ^ 64 - 1)
  | _ => none

/-- Every integer has a type with bounds, and lies between them. -/
theorem exists_integerBounds? (h : constant.integer? = some n) :
    ∃ low high, integerBounds? constant.typeName = some (low, high) ∧ low ≤ n ∧ n ≤ high := by
  cases constant <;> cases h
  case i1 value => exact ⟨_, _, rfl, value.le_toInt, Int.le_sub_one_of_lt value.toInt_lt⟩
  case u1 value => exact ⟨_, _, rfl, Int.natCast_nonneg _, by have := value.toNat_lt; omega⟩
  case i2 value => exact ⟨_, _, rfl, value.le_toInt, Int.le_sub_one_of_lt value.toInt_lt⟩
  case u2 value => exact ⟨_, _, rfl, Int.natCast_nonneg _, by have := value.toNat_lt; omega⟩
  case i4 value => exact ⟨_, _, rfl, value.le_toInt, Int.le_sub_one_of_lt value.toInt_lt⟩
  case u4 value => exact ⟨_, _, rfl, Int.natCast_nonneg _, by have := value.toNat_lt; omega⟩
  case i8 value => exact ⟨_, _, rfl, value.le_toInt, Int.le_sub_one_of_lt value.toInt_lt⟩
  case u8 value => exact ⟨_, _, rfl, Int.natCast_nonneg _, by have := value.toNat_lt; omega⟩

/-- The bounds of every type fit 64 bits, with a sign or without. -/
theorem integerBounds?_fit (h : integerBounds? kind = some (low, high)) :
    Int64.minValue.toInt ≤ low ∧ high < UInt64.size := by
  unfold integerBounds? at h
  split at h <;> cases h <;> decide

/-- Between bounds that fit 64 bits with a sign, an integer is taken as it is. -/
theorem integerWithin_eq_ok_iff (hlow : Int64.minValue.toInt ≤ low)
    (hhigh : high ≤ Int64.maxValue.toInt) :
    integerWithin low high value = .ok n ↔
      value = .number (.integer n) ∧ low ≤ n ∧ n ≤ high := by
  constructor
  · intro h
    rw [integerWithin] at h
    split at h
    · rename_i m hm
      split at h
      · rename_i hfits
        cases h
        rw [Json.Value.asInt64?.eq_def] at hm
        split at hm
        · rename_i integer
          split at hm
          · cases hm
            exact ⟨rfl, hfits⟩
          · cases hm
        · cases hm
      · cases h
    · cases h
  · rintro ⟨rfl, hfits⟩
    have hinteger : (Json.Value.number (.integer n)).asInt64? = some n :=
      if_pos ⟨by omega, by omega⟩
    rw [integerWithin, hinteger]
    exact if_pos hfits

theorem asUInt64?_eq_some_iff {m : UInt64} :
    value.asUInt64? = some m ↔ value = .number (.integer m.toNat) := by
  constructor
  · intro h
    rw [Json.Value.asUInt64?.eq_def] at h
    split at h
    · rename_i n
      split at h
      · rename_i hfits
        cases h
        have hlt : n.toNat < UInt64.size := by omega
        rw [UInt64.toNat_ofNat_of_lt' hlt, Int.toNat_of_nonneg hfits.1]
      · cases h
    · cases h
  · rintro rfl
    rw [Json.Value.asUInt64?, if_pos ⟨Int.natCast_nonneg _, Int.ofNat_lt.2 m.toNat_lt⟩,
      Int.toNat_natCast, UInt64.ofNat_toNat]

/-- An integer of a type is determined by its number. -/
theorem eq_of_integer? {other : ConstantValue} (htype : constant.typeName = other.typeName)
    (h : constant.integer? = some n) (h' : other.integer? = some n) : constant = other := by
  cases constant <;> cases h <;> cases other <;> simp [ConstantValue.typeName] at htype
  all_goals
    simp [ConstantValue.integer?, Int8.toInt_inj, Int16.toInt_inj, Int32.toInt_inj,
      Int64.toInt_inj, UInt8.toNat_inj, UInt16.toNat_inj, UInt32.toNat_inj,
      UInt64.toNat_inj] at h'
    rw [h']

/-- A type with a sign, or without one and less than 64 bits wide: `make` is its conversion. -/
theorem integerWithin_map_eq_ok_iff {make : Int → ConstantValue}
    (hlow : Int64.minValue.toInt ≤ low) (hhigh : high ≤ Int64.maxValue.toInt)
    (htype : ∀ n, (make n).typeName = kind)
    (hinteger : ∀ n, low ≤ n → n ≤ high → (make n).integer? = some n) :
    (integerWithin low high value).map make = .ok constant ↔
      ∃ n, value = .number (.integer n) ∧ low ≤ n ∧ n ≤ high ∧ constant.typeName = kind ∧
        constant.integer? = some n := by
  simp only [map_eq_ok_iff, integerWithin_eq_ok_iff hlow hhigh]
  constructor
  · rintro ⟨n, ⟨hvalue, hleast, hmost⟩, rfl⟩
    exact ⟨n, hvalue, hleast, hmost, htype n, hinteger n hleast hmost⟩
  · rintro ⟨n, hvalue, hleast, hmost, hkind, hn⟩
    refine ⟨n, ⟨hvalue, hleast, hmost⟩, ?_⟩
    exact eq_of_integer? ((htype n).trans hkind.symm) (hinteger n hleast hmost) hn

/-- The widest type without a sign has a conversion of its own. -/
theorem constantValue_u8_eq_ok_iff :
    constantValue "u8" value = .ok constant ↔
      ∃ n, value = .number (.integer n) ∧ 0 ≤ n ∧ n ≤ 2 ^ 64 - 1 ∧ constant.typeName = "u8" ∧
        constant.integer? = some n := by
  rw [constantValue]
  constructor
  · intro h
    split at h
    · rename_i m hm
      cases h
      exact ⟨m.toNat, asUInt64?_eq_some_iff.1 hm, Int.natCast_nonneg _,
        Int.le_sub_one_of_lt (Int.ofNat_lt.2 m.toNat_lt), rfl, rfl⟩
    · cases h
  · rintro ⟨n, rfl, hn, hn', htype, hinteger⟩
    have hlt : n.toNat < UInt64.size := (Int.toNat_lt hn).2 (Int.lt_of_le_sub_one hn')
    have hm : ((UInt64.ofNat n.toNat).toNat : Int) = n := by
      rw [UInt64.toNat_ofNat_of_lt' hlt, Int.toNat_of_nonneg hn]
    have hread : (Json.Value.number (.integer n)).asUInt64? = some (UInt64.ofNat n.toNat) :=
      asUInt64?_eq_some_iff.2 (by rw [hm])
    rw [hread]
    exact congrArg Except.ok (eq_of_integer? htype.symm (congrArg some hm) hinteger)

/-- A value is a constant of an integer type if and only if it is an integer between the bounds of
the type, and the constant is this integer. -/
theorem constantValue_eq_ok_iff (h : integerBounds? kind = some (low, high)) :
    constantValue kind value = .ok constant ↔
      ∃ n, value = .number (.integer n) ∧ low ≤ n ∧ n ≤ high ∧ constant.typeName = kind ∧
        constant.integer? = some n := by
  have hsub {m bound : Int} (hm : m ≤ bound - 1) : m < bound := Int.lt_of_le_sub_one hm
  unfold integerBounds? at h
  split at h <;> cases h
  case h_1 =>
    refine integerWithin_map_eq_ok_iff (by decide) (by decide) (fun _ => rfl) fun n hn hn' => ?_
    exact congrArg some (Int8.toInt_ofInt_of_le hn (hsub hn'))
  case h_2 =>
    refine integerWithin_map_eq_ok_iff (by decide) (by decide) (fun _ => rfl) fun n hn hn' => ?_
    have hlt : n.toNat < UInt8.size := (Int.toNat_lt hn).2 (hsub hn')
    rw [ConstantValue.integer?, UInt8.toNat_ofNat_of_lt' hlt, Int.toNat_of_nonneg hn]
  case h_3 =>
    refine integerWithin_map_eq_ok_iff (by decide) (by decide) (fun _ => rfl) fun n hn hn' => ?_
    exact congrArg some (Int16.toInt_ofInt_of_le hn (hsub hn'))
  case h_4 =>
    refine integerWithin_map_eq_ok_iff (by decide) (by decide) (fun _ => rfl) fun n hn hn' => ?_
    have hlt : n.toNat < UInt16.size := (Int.toNat_lt hn).2 (hsub hn')
    rw [ConstantValue.integer?, UInt16.toNat_ofNat_of_lt' hlt, Int.toNat_of_nonneg hn]
  case h_5 =>
    refine integerWithin_map_eq_ok_iff (by decide) (by decide) (fun _ => rfl) fun n hn hn' => ?_
    exact congrArg some (Int32.toInt_ofInt_of_le hn (hsub hn'))
  case h_6 =>
    refine integerWithin_map_eq_ok_iff (by decide) (by decide) (fun _ => rfl) fun n hn hn' => ?_
    have hlt : n.toNat < UInt32.size := (Int.toNat_lt hn).2 (hsub hn')
    rw [ConstantValue.integer?, UInt32.toNat_ofNat_of_lt' hlt, Int.toNat_of_nonneg hn]
  case h_7 =>
    refine integerWithin_map_eq_ok_iff (by decide) (by decide) (fun _ => rfl) fun n hn hn' => ?_
    exact congrArg some (Int64.toInt_ofInt_of_le hn (hsub hn'))
  case h_8 =>
    exact constantValue_u8_eq_ok_iff

/-- An integer is read from its literal, and found by the name of its type. -/
theorem exists_constantValue_of_integer? (h : constant.integer? = some n) (levels : Nat) :
    ∃ value, Json.Value.ofNode levels (.number (.ofInt n)) = .ok value ∧
      constantValue constant.typeName value = .ok constant := by
  obtain ⟨low, high, hbounds, hn, hn'⟩ := exists_integerBounds? h
  obtain ⟨hlow, hhigh⟩ := integerBounds?_fit hbounds
  exact ⟨.number (.integer n),
    Json.Value.ofNode_number (Json.Literal.read_ofInt (by omega) (by omega)) levels,
    (constantValue_eq_ok_iff hbounds).2 ⟨n, rfl, hn, hn', rfl, h⟩⟩

/-- A value is read from its form, and found by the name of its type. -/
theorem exists_constantValue {node : Json.Node} (h : constant.node? = some node) (levels : Nat) :
    ∃ value, Json.Value.ofNode levels node = .ok value ∧
      constantValue constant.typeName value = .ok constant := by
  cases constant <;> cases h
  case null => exact ⟨.null, by rw [Json.Value.ofNode], rfl⟩
  case boolean value => exact ⟨.boolean value, by rw [Json.Value.ofNode], rfl⟩
  case string value => exact ⟨.string value, by rw [Json.Value.ofNode]; rfl, rfl⟩
  all_goals exact exists_constantValue_of_integer? rfl levels

/-! ## Constants of a file -/

mutual

/-- The constants of a scope in a file, from the outside in. -/
def ScopeEntry.allConstants : ScopeEntry → List ConstantEntry
  | ⟨_, _, constants, scopes⟩ => constants ++ ScopeEntry.constantsOf scopes

/-- The constants of several scopes in a file. -/
def ScopeEntry.constantsOf : List ScopeEntry → List ConstantEntry
  | [] => []
  | entry :: rest => entry.allConstants ++ ScopeEntry.constantsOf rest

end

/-- The constants of a method in a file: those of its scopes first. -/
def MethodEntry.allConstants (entry : MethodEntry) : List ConstantEntry :=
  entry.scope.allConstants ++ entry.constants

/-- The constants of a file. -/
def TreeEntry.allConstants (file : TreeEntry) : List ConstantEntry :=
  file.methods.flatMap MethodEntry.allConstants

/-- An entry of an integer type whose value is an integer between the bounds of the type, or an
entry of another type. -/
def ConstantEntry.Fits (entry : ConstantEntry) : Prop :=
  ∀ low high, integerBounds? entry.kind = some (low, high) →
    ∃ n, entry.value = .number (.integer n) ∧ low ≤ n ∧ n ≤ high

/-- A constant has the integer of its entry, if the entry has an integer type. -/
def ConstantEntry.Keeps (entry : ConstantEntry) (constant : Constant) : Prop :=
  ∀ low high, integerBounds? entry.kind = some (low, high) →
    ∃ n, entry.value = .number (.integer n) ∧ low ≤ n ∧ n ≤ high ∧
      constant.value.integer? = some n

theorem ConstantEntry.Keeps.fits {entry : ConstantEntry} {constant : Constant}
    (h : entry.Keeps constant) : entry.Fits := by
  intro low high hbounds
  obtain ⟨n, hvalue, hn, hn', -⟩ := h low high hbounds
  exact ⟨n, hvalue, hn, hn'⟩

theorem keeps_of_toConstant {method : Token} {entry : ConstantEntry} {constant : Constant}
    (h : entry.toConstant method = .ok constant) : entry.Keeps constant := by
  intro low high hbounds
  rw [ConstantEntry.toConstant] at h
  split at h
  · rename_i value hvalue
    cases h
    obtain ⟨n, hentry, hn, hn', -, hinteger⟩ := (constantValue_eq_ok_iff hbounds).1 hvalue
    exact ⟨n, hentry, hn, hn', hinteger⟩
  · cases h

theorem keeps_of_mapM {method : Token} {entries : List ConstantEntry}
    {constants : List Constant}
    (h : entries.mapM (ConstantEntry.toConstant method) = .ok constants) :
    List.Forall₂ ConstantEntry.Keeps entries constants :=
  (Json.mapM_eq_ok_iff.1 h).imp fun _ _ => keeps_of_toConstant

mutual

theorem keeps_of_toScope {method : Token} : ∀ {entry : ScopeEntry} {scope : Scope},
    entry.toScope method = .ok scope →
      List.Forall₂ ConstantEntry.Keeps entry.allConstants (scope.all.flatMap (·.constants))
  | ⟨span, locals, constants, scopes⟩, scope, h => by
    rw [ScopeEntry.toScope] at h
    obtain ⟨_, hconstants, hbehind⟩ := bind_eq_ok_iff.1 h
    obtain ⟨_, hscopes, hscope⟩ := bind_eq_ok_iff.1 hbehind
    cases hscope
    rw [ScopeEntry.allConstants, Scope.all_eq, List.flatMap_cons]
    exact List.rel_append (keeps_of_mapM hconstants) (keeps_of_toScopes hscopes)

theorem keeps_of_toScopes {method : Token} : ∀ {entries : List ScopeEntry} {scopes : List Scope},
    ScopeEntry.toScopes method entries = .ok scopes →
      List.Forall₂ ConstantEntry.Keeps (ScopeEntry.constantsOf entries)
        ((Scope.allList scopes).flatMap (·.constants))
  | [], scopes, h => by
    cases h
    exact .nil
  | entry :: rest, scopes, h => by
    rw [ScopeEntry.toScopes] at h
    obtain ⟨_, hscope, hbehind⟩ := bind_eq_ok_iff.1 h
    obtain ⟨_, hrest, hscopes⟩ := bind_eq_ok_iff.1 hbehind
    cases hscopes
    rw [ScopeEntry.constantsOf, Scope.allList, List.flatMap_append]
    exact List.rel_append (keeps_of_toScope hscope) (keeps_of_toScopes hrest)

end

theorem keeps_of_toMethod {entry : MethodEntry} {method : Method}
    (h : entry.toMethod = .ok method) :
    List.Forall₂ ConstantEntry.Keeps entry.allConstants method.allConstants := by
  obtain ⟨_, hscope, hrest⟩ := bind_eq_ok_iff.1 h
  obtain ⟨_, hconstants, hmethod⟩ := bind_eq_ok_iff.1 hrest
  cases hmethod
  exact List.rel_append (keeps_of_toScope hscope) (keeps_of_mapM hconstants)

/-- The integers of a file that is accepted are in its tree as they are in the file. -/
theorem keeps_of_toTree {file : TreeEntry} {tree : NamedTree} (h : file.toTree = .ok tree) :
    List.Forall₂ ConstantEntry.Keeps file.allConstants tree.tree.allConstants := by
  obtain ⟨_, hmethods, hrest⟩ := bind_eq_ok_iff.1 h
  obtain ⟨_, -, htree⟩ := bind_eq_ok_iff.1 hrest
  cases htree
  exact List.rel_flatMap (Json.mapM_eq_ok_iff.1 hmethods) fun _ _ => keeps_of_toMethod

/-- A file with a constant that does not fit its type is no tree. -/
theorem exists_toTree_eq_error {file : TreeEntry}
    (h : ∃ entry ∈ file.allConstants, ¬ entry.Fits) : ∃ fault, file.toTree = .error fault := by
  obtain ⟨entry, hmem, hmisfit⟩ := h
  cases htree : file.toTree with
  | error fault => exact ⟨fault, rfl⟩
  | ok tree =>
    have hfits : ∀ entry ∈ file.allConstants, entry.Fits :=
      ((List.forall₂_and_left _ _).1 ((keeps_of_toTree htree).imp fun _ _ h => ⟨h.fits, h⟩)).1
    exact absurd (hfits entry hmem) hmisfit

end DebugSymbols.TreeFile
