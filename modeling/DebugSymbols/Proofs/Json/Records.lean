import Mathlib.Data.List.Pairwise
import DebugSymbols.Proofs.Json.Reading

/-!
# Records are read in any order of members

The members of an object are filled into a draft one by one. Fields that do not disturb each other
can be filled in any order, so a record that is read from an object is read from every object with
the same members. A part of a record is what the object has for one field: a member, or none where
the field may be left out.
-/

namespace DebugSymbols.Json

variable {δ α β γ : Type}

/-! ## Fields -/

namespace Field

variable {field first second : Field δ}

/-- A draft in which the field has been filled has it. -/
def Marks (field : Field δ) : Prop :=
  ∀ draft draft' levels node, field.fill draft levels node = .ok draft' →
    field.isFilled draft' = true

/-- Fields that can be filled in either order, and neither of which fills the other. -/
structure Independent (first second : Field δ) : Prop where
  fill_comm : ∀ draft draft' levels node node',
    (first.fill draft levels node >>= fun filled => second.fill filled levels node') = .ok draft' ↔
      (second.fill draft levels node' >>= fun filled => first.fill filled levels node) = .ok draft'
  isFilled_first : ∀ draft draft' levels node, second.fill draft levels node = .ok draft' →
    first.isFilled draft' = first.isFilled draft
  isFilled_second : ∀ draft draft' levels node, first.fill draft levels node = .ok draft' →
    second.isFilled draft' = second.isFilled draft

instance : Std.Symm (@Independent δ) where
  symm _ _ h :=
    ⟨fun draft draft' levels node node' => (h.fill_comm draft draft' levels node' node).symm,
      h.isFilled_second, h.isFilled_first⟩

variable {name name' : String} {get : δ → Option β} {set : δ → β → δ} {get' : δ → Option γ}
  {set' : δ → γ → δ} {decoder : Decoder β} {decoder' : Decoder γ} {optional optional' : Bool}

theorem fill_of_eq_ok_iff {draft draft' : δ} {levels : Nat} {node : Node} :
    (Field.of name get set decoder optional).fill draft levels node = .ok draft' ↔
      ∃ value, decoder levels node = .ok value ∧ set draft value = draft' :=
  map_eq_ok_iff

theorem marks_of (hset : ∀ draft value, (get (set draft value)).isSome) :
    (Field.of name get set decoder optional).Marks := by
  intro draft draft' levels node h
  obtain ⟨value, -, rfl⟩ := fill_of_eq_ok_iff.1 h
  exact hset draft value

theorem independent_of (hset : ∀ draft value value',
      set' (set draft value) value' = set (set' draft value') value)
    (hget : ∀ draft value', get (set' draft value') = get draft)
    (hget' : ∀ draft value, get' (set draft value) = get' draft) :
    Independent (Field.of name get set decoder optional)
      (Field.of name' get' set' decoder' optional') where
  fill_comm := by
    intro draft draft' levels node node'
    simp only [bind_eq_ok_iff, fill_of_eq_ok_iff]
    constructor
    · rintro ⟨_, ⟨value, hvalue, rfl⟩, value', hvalue', rfl⟩
      exact ⟨_, ⟨value', hvalue', rfl⟩, value, hvalue, (hset draft value value').symm⟩
    · rintro ⟨_, ⟨value', hvalue', rfl⟩, value, hvalue, rfl⟩
      exact ⟨_, ⟨value, hvalue, rfl⟩, value', hvalue', hset draft value value'⟩
  isFilled_first := by
    intro draft draft' levels node h
    obtain ⟨value', -, rfl⟩ := fill_of_eq_ok_iff.1 h
    exact congrArg Option.isSome (hget draft value')
  isFilled_second := by
    intro draft draft' levels node h
    obtain ⟨value, -, rfl⟩ := fill_of_eq_ok_iff.1 h
    exact congrArg Option.isSome (hget' draft value)

end Field

/-! ## Orders of members -/

namespace RecordKind

variable {kind : RecordKind δ α} {levels : Nat} {draft draft' final : δ} {member member' : Member}
  {members members' : List Member}

/-- The order in which the fields of a record are filled plays no part. -/
structure Orderless (kind : RecordKind δ α) : Prop where
  marks : ∀ field ∈ kind.fields, field.Marks
  independent : kind.fields.Pairwise Field.Independent

theorem Orderless.independent_of_ne (h : kind.Orderless) {first second : Field δ}
    (hfirst : first ∈ kind.fields) (hsecond : second ∈ kind.fields) (hne : first ≠ second) :
    Field.Independent first second :=
  h.independent.forall hfirst hsecond hne

/-- What one member does to a draft. -/
inductive Takes (kind : RecordKind δ α) (levels : Nat) : δ → Member → δ → Prop
  /-- A member for no field is passed over. -/
  | unknown {draft : δ} {name : String} {node : Node}
      (hfind : kind.fields.find? (fun field => field.name == name) = none)
      (hskip : node.skip = .ok ()) : Takes kind levels draft (.ok name, node) draft
  /-- A member for a field fills it, once. -/
  | field {draft draft' : δ} {name : String} {node : Node} {field : Field δ}
      (hfind : kind.fields.find? (fun field => field.name == name) = some field)
      (hfree : field.isFilled draft = false) (hfill : field.fill draft levels node = .ok draft') :
      Takes kind levels draft (.ok name, node) draft'

/-- Members are taken one by one. -/
theorem fillMembers_cons_eq_ok_iff :
    kind.fillMembers levels draft (member :: members) = .ok final ↔
      ∃ draft', Takes kind levels draft member draft' ∧
        kind.fillMembers levels draft' members = .ok final := by
  obtain ⟨key, node⟩ := member
  rw [fillMembers, bind_eq_ok_iff]
  constructor
  · rintro ⟨name, rfl, h⟩
    split at h
    · rename_i hfind
      obtain ⟨_, hskip, hrest⟩ := bind_eq_ok_iff.1 h
      exact ⟨draft, .unknown hfind hskip, hrest⟩
    · rename_i field hfind
      split at h
      · cases h
      · rename_i hfree
        obtain ⟨draft', hfill, hrest⟩ := bind_eq_ok_iff.1 h
        exact ⟨draft', .field hfind (Bool.eq_false_iff.2 hfree) hfill, hrest⟩
  · rintro ⟨draft', htakes, hrest⟩
    cases htakes with
    | @unknown name _ hfind hskip =>
      refine ⟨name, rfl, ?_⟩
      rw [hfind]
      exact bind_eq_ok_iff.2 ⟨(), hskip, hrest⟩
    | @field _ name _ field hfind hfree hfill =>
      refine ⟨name, rfl, ?_⟩
      rw [hfind]
      dsimp only
      rw [hfree]
      exact bind_eq_ok_iff.2 ⟨draft', hfill, hrest⟩

/-- Two members can change places. -/
theorem Takes.swap (hkind : kind.Orderless) (h : Takes kind levels draft member draft')
    (h' : Takes kind levels draft' member' final) :
    ∃ between, Takes kind levels draft member' between ∧
      Takes kind levels between member final := by
  cases h with
  | unknown hfind hskip =>
    exact ⟨final, h', .unknown hfind hskip⟩
  | @field _ name node field hfind hfree hfill =>
    cases h' with
    | unknown hfind' hskip' =>
      exact ⟨draft, .unknown hfind' hskip', .field hfind hfree hfill⟩
    | @field _ name' node' field' hfind' hfree' hfill' =>
      have hmem := List.mem_of_find?_eq_some hfind
      have hmem' := List.mem_of_find?_eq_some hfind'
      have hne : field ≠ field' := by
        -- a field that has been filled is not filled again
        rintro rfl
        rw [hkind.marks field hmem _ _ _ _ hfill] at hfree'
        cases hfree'
      have hindependent := hkind.independent_of_ne hmem hmem' hne
      obtain ⟨between, hfirst, hsecond⟩ := bind_eq_ok_iff.1
        ((hindependent.fill_comm _ _ _ _ _).1 (bind_eq_ok_iff.2 ⟨_, hfill, hfill'⟩))
      rw [hindependent.isFilled_second _ _ _ _ hfill] at hfree'
      rw [← hindependent.isFilled_first _ _ _ _ hfirst] at hfree
      exact ⟨between, .field hfind' hfree' hfirst, .field hfind hfree hsecond⟩

/-- The members of an object can be read in every order. -/
theorem fillMembers_perm (hkind : kind.Orderless) (hperm : members.Perm members')
    (h : kind.fillMembers levels draft members = .ok final) :
    kind.fillMembers levels draft members' = .ok final := by
  induction hperm generalizing draft with
  | nil => exact h
  | cons member hperm ih =>
    rw [fillMembers_cons_eq_ok_iff] at h ⊢
    obtain ⟨draft', htakes, hrest⟩ := h
    exact ⟨draft', htakes, ih hrest⟩
  | swap member member' members =>
    simp only [fillMembers_cons_eq_ok_iff] at h ⊢
    obtain ⟨draft', htakes, last, htakes', hrest⟩ := h
    obtain ⟨between, hfirst, hsecond⟩ := htakes.swap hkind htakes'
    exact ⟨between, hfirst, last, hsecond, hrest⟩
  | trans _ _ ih ih' => exact ih' (ih h)

end RecordKind

/-! ## Parts of a record -/

/-- What an object has for a key: a member with a value that is written in the given way, or no
member if the key may be left out. -/
inductive Part (key : String) (Written : Node → Prop) (Omittable : Prop) : List Member → Prop
  | written {node : Node} (h : Written node) : Part key Written Omittable [(.ok key, node)]
  | omitted (h : Omittable) : Part key Written Omittable []

/-- What an object has for a key whose value may also be `null` where it may be left out. -/
def NullablePart (key : String) (Written : Node → Prop) (Omittable : Prop) :
    List Member → Prop :=
  Part key (fun node => Written node ∨ node = .null ∧ Omittable) Omittable

/-- An object that is made of parts, with its members in any order. -/
def IsObject (parts : List (List Member)) (node : Node) : Prop :=
  ∃ members, members.Perm parts.flatten ∧ node = .object members none

theorem IsObject.exists_node (parts : List (List Member)) : ∃ node, IsObject parts node :=
  ⟨_, parts.flatten, .refl _, rfl⟩

/-- A decoder finds the value of a part, or none if the part has no member. -/
inductive Finds (decoder : Decoder β) (levels : Nat) (key : String) :
    List Member → Option β → Prop
  | written {node : Node} {value : β} (h : decoder levels node = .ok value) :
      Finds decoder levels key [(.ok key, node)] (some value)
  | omitted : Finds decoder levels key [] none

namespace Part

variable {key : String} {Written : Node → Prop} {Omittable : Prop} {part : List Member}
  {decoder : Decoder β} {levels : Nat} {value fallback : β}

theorem exists_finds {Good : Option β → Prop} (h : Part key Written Omittable part)
    (hdepth : ∀ member ∈ part, member.2.depth ≤ levels)
    (hwritten : ∀ node, Written node → node.depth ≤ levels →
      ∃ value, decoder levels node = .ok value ∧ Good (some value))
    (homitted : Omittable → Good none) :
    ∃ found, Finds decoder levels key part found ∧ Good found := by
  cases h with
  | @written node h =>
    obtain ⟨value, hvalue, hgood⟩ := hwritten node h (hdepth _ List.mem_cons_self)
    exact ⟨some value, .written hvalue, hgood⟩
  | omitted h => exact ⟨none, .omitted, homitted h⟩

/-- A part that may not be left out has its value. -/
theorem finds_required (h : Part key Written False part)
    (hdepth : ∀ member ∈ part, member.2.depth ≤ levels)
    (hread : ∀ node, Written node → node.depth ≤ levels → decoder levels node = .ok value) :
    Finds decoder levels key part (some value) := by
  cases h with
  | @written node h => exact .written (hread node h (hdepth _ List.mem_cons_self))
  | omitted h => cases h

/-- A part that is left out where it has its usual value has its value. -/
theorem finds_defaulted (h : Part key Written (value = fallback) part)
    (hdepth : ∀ member ∈ part, member.2.depth ≤ levels)
    (hread : ∀ node, Written node → node.depth ≤ levels → decoder levels node = .ok value) :
    ∃ found, Finds decoder levels key part found ∧ found.getD fallback = value := by
  refine h.exists_finds hdepth (fun node hnode hfits => ?_) Eq.symm
  exact ⟨value, hread node hnode hfits, rfl⟩

/-- A part with `null` in it is found as one that is left out. -/
theorem finds_nullable (Good : Option β → Prop) (h : NullablePart key Written Omittable part)
    (hdepth : ∀ member ∈ part, member.2.depth ≤ levels)
    (hnull : ∀ value, decoder levels .null ≠ .ok value)
    (hwritten : ∀ node, Written node → node.depth ≤ levels →
      ∃ value, decoder levels node = .ok value ∧ Good (some value))
    (homitted : Omittable → Good none) :
    ∃ found, Finds decoder.nullable levels key part found ∧ Good found.join := by
  refine h.exists_finds hdepth ?_ homitted
  rintro node (hnode | ⟨rfl, h⟩) hfits
  · obtain ⟨value, hvalue, hgood⟩ := hwritten node hnode hfits
    refine ⟨some value, ?_, hgood⟩
    rw [Decoder.nullable, hvalue]
    · rfl
    · rintro rfl
      exact hnull value hvalue
  · exact ⟨none, rfl, homitted h⟩

/-- A value that need not be there is found if it is there. -/
theorem finds_optional {optional : Option β} {Form : β → Node → Prop}
    (h : NullablePart key (fun node => ∃ value, optional = some value ∧ Form value node)
      (optional = none) part)
    (hdepth : ∀ member ∈ part, member.2.depth ≤ levels)
    (hnull : ∀ value, decoder levels .null ≠ .ok value)
    (hread : ∀ value node, Form value node → decoder levels node = .ok value) :
    ∃ found, Finds decoder.nullable levels key part found ∧ found.join = optional := by
  refine finds_nullable (· = optional) h hdepth hnull ?_ Eq.symm
  rintro node ⟨value, hsome, hnode⟩ -
  exact ⟨value, hread value node hnode, hsome.symm⟩

/-- A list that is left out where it is empty is found as far as its items are read. -/
theorem finds_list {Item : α → Node → Prop} {values : List α} {Good : β → α → Prop}
    (h : Part key (IsList Item values) (values = []) part)
    (hdepth : ∀ member ∈ part, member.2.depth ≤ levels)
    (hitem : ∀ value ∈ values, ∀ item inner, inner < levels → Item value item →
      item.depth ≤ inner → ∃ result, decoder inner item = .ok result ∧ Good result value) :
    ∃ found, Finds decoder.list levels key part found ∧
      List.Forall₂ Good (found.getD []) values := by
  cases h with
  | @written node h =>
    obtain ⟨results, hresults, hgood⟩ := h.exists_read (hdepth _ List.mem_cons_self) hitem
    exact ⟨some results, .written hresults, hgood⟩
  | omitted h =>
    subst h
    exact ⟨none, .omitted, .nil⟩

end Part

namespace RecordKind

variable {kind : RecordKind δ α} {levels : Nat} {draft final : δ}

/-- A part fills its field: `put` is the draft with what has been found for the field. -/
theorem fillMembers_part (put : Option β → δ) {key : String} {get : δ → Option β}
    {set : δ → β → δ} {decoder : Decoder β} {optional : Bool} {part rest : List Member}
    {found : Option β}
    (hfind : kind.fields.find? (fun field => field.name == key) =
      some (.of key get set decoder optional))
    (hfree : (get (put none)).isSome = false)
    (hput : ∀ value, set (put none) value = put (some value))
    (hpart : Finds decoder levels key part found)
    (h : kind.fillMembers levels (put found) rest = .ok final) :
    kind.fillMembers levels (put none) (part ++ rest) = .ok final := by
  cases hpart with
  | @written node value hvalue =>
    refine fillMembers_cons_eq_ok_iff.2 ⟨put (some value), .field hfind hfree ?_, h⟩
    exact Field.fill_of_eq_ok_iff.2 ⟨value, hvalue, hput value⟩
  | omitted => exact h

/-- A record is read from an object if its parts, in any order, make a draft of it. -/
theorem decoder_of_isObject (hkind : kind.Orderless) {parts : List (List Member)} {node : Node}
    (hnode : IsObject parts node) (hdepth : node.depth ≤ levels) :
    ∃ inner, levels = inner + 1 ∧
      (∀ part ∈ parts, ∀ member ∈ part, member.2.depth ≤ inner) ∧
      ∀ draft value, kind.fillMembers inner kind.blank parts.flatten = .ok draft →
        kind.finish draft = .ok value → kind.decoder levels node = .ok value := by
  obtain ⟨members, hperm, rfl⟩ := hnode
  obtain ⟨inner, rfl, hinner⟩ := Node.depth_object_le_iff.1 hdepth
  refine ⟨inner, rfl, fun part hpart member hmember => ?_, fun draft value hfill hfinish => ?_⟩
  · exact hinner member (hperm.mem_iff.2 (List.mem_flatten_of_mem hpart hmember))
  · rw [decoder, fillMembers_perm hkind hperm.symm hfill]
    show kind.complete draft = .ok value
    rw [complete, hfinish]

/-- An item of a tuple fills its field. -/
theorem fillItems_item {name : String} {get : δ → Option β} {set : δ → β → δ}
    {decoder : Decoder β} {optional : Bool} {tail : Option Break} {index : Nat}
    {fields : List (Field δ)} {node : Node} {items : List Node} {value : β}
    (hread : decoder levels node = .ok value)
    (h : kind.fillItems levels tail (index + 1) fields (set draft value) items = .ok final) :
    kind.fillItems levels tail index (.of name get set decoder optional :: fields) draft
      (node :: items) = .ok final := by
  rw [fillItems, Field.fill_of_eq_ok_iff.2 ⟨value, hread, rfl⟩]
  exact h

/-- A tuple is read from an array if its items make a draft of it. -/
theorem tupleDecoder_of_fillItems {items : List Node} {value : α}
    (hfill : kind.fillItems levels none 0 kind.fields kind.blank items = .ok draft)
    (hfinish : kind.finish draft = .ok value) :
    kind.tupleDecoder (levels + 1) (.array items none) = .ok value := by
  rw [tupleDecoder, decodeItems, hfill]
  show kind.complete draft = .ok value
  rw [complete, hfinish]

end RecordKind

end DebugSymbols.Json
