import DebugSymbols.Proofs.Attempt
import DebugSymbols.TreeFile.Convert

/-!
# The order of names in a tree file

The names of a tree file stand under texts that spell tokens, and a token can be spelled in many
ways: `1`, `+1`, `0x1` and `0X01` are one token. The names are taken over in some order. The order
plays no part in whether they are accepted, but where two texts spell one token, the entry that
comes last gives the token its name.
-/

namespace DebugSymbols.TreeFile

variable {entry : String × Member} {entries order order' : List (String × Member)}
  {names names' start : Names} {token : Token} {member : Member}

/-- An entry whose key spells a token gives this token its name. -/
theorem namesOf_cons_eq_ok_iff :
    namesOf (entry :: entries) start = .ok names ↔
      ∃ token, Token.parse? entry.1 = some token ∧
        namesOf entries (start.insert token entry.2) = .ok names := by
  obtain ⟨text, member⟩ := entry
  rw [namesOf]
  cases Token.parse? text with
  | none => exact iff_of_false (fun h => nomatch h) fun ⟨_, h, _⟩ => nomatch h
  | some token =>
    constructor
    · intro h
      exact ⟨token, rfl, h⟩
    · rintro ⟨_, htoken, h⟩
      cases htoken
      exact h

/-- Names are accepted if and only if every key spells a token. -/
theorem exists_namesOf_iff :
    (∃ names, namesOf entries start = .ok names) ↔
      ∀ entry ∈ entries, ∃ token, Token.parse? entry.1 = some token := by
  induction entries generalizing start with
  | nil => exact iff_of_true ⟨start, rfl⟩ fun _ hmem => nomatch hmem
  | cons entry entries ih =>
    simp only [namesOf_cons_eq_ok_iff, List.forall_mem_cons]
    constructor
    · rintro ⟨names, token, htoken, hrest⟩
      exact ⟨⟨token, htoken⟩, ih.1 ⟨names, hrest⟩⟩
    · rintro ⟨⟨token, htoken⟩, hrest⟩
      obtain ⟨names, hnames⟩ := ih.2 hrest
      exact ⟨names, token, htoken, hnames⟩

/-- A token has the name of the last entry that spells it. -/
theorem get?_namesOf (h : namesOf entries start = .ok names) (token : Token) :
    names.get? token =
      ((entries.reverse.find? fun entry => Token.parse? entry.1 = some token).map (·.2)).or
        (start.get? token) := by
  induction entries generalizing start with
  | nil =>
    cases h
    rfl
  | cons entry entries ih =>
    obtain ⟨spelled, hspelled, hrest⟩ := namesOf_cons_eq_ok_iff.1 h
    rw [ih hrest, Dictionary.get?_insert, List.reverse_cons, List.find?_append, Option.map_or,
      Option.or_assoc, List.find?_singleton, hspelled]
    by_cases heq : spelled = token
    · simp [heq]
    · simp [heq]

/-- A token that has a name has it from an entry that spells the token. -/
theorem exists_mem_of_get?_namesOf (h : namesOf entries .empty = .ok names)
    (hget : names.get? token = some member) :
    ∃ entry ∈ entries, Token.parse? entry.1 = some token ∧ entry.2 = member := by
  rw [get?_namesOf h, Dictionary.get?_empty, Option.or_none, Option.map_eq_some_iff] at hget
  obtain ⟨entry, hfind, hmember⟩ := hget
  have hspelled := List.find?_some hfind
  exact ⟨entry, List.mem_reverse.1 (List.mem_of_find?_eq_some hfind), of_decide_eq_true hspelled,
    hmember⟩

/-- A token that an entry spells has a name. -/
theorem exists_get?_namesOf (h : namesOf entries start = .ok names) (hmem : entry ∈ entries)
    (hspelled : Token.parse? entry.1 = some token) : ∃ member, names.get? token = some member := by
  have hfind : (entries.reverse.find? fun entry => Token.parse? entry.1 = some token).isSome :=
    List.find?_isSome.2 ⟨entry, List.mem_reverse.2 hmem, decide_eq_true hspelled⟩
  obtain ⟨last, hlast⟩ := Option.isSome_iff_exists.1 hfind
  refine ⟨last.2, ?_⟩
  rw [get?_namesOf h, hlast]
  rfl

/-- The entry that comes last names the token that it spells. -/
theorem get?_namesOf_concat (h : namesOf (entries ++ [entry]) start = .ok names)
    (hspelled : Token.parse? entry.1 = some token) : names.get? token = some entry.2 := by
  have hlast : decide (Token.parse? entry.1 = some token) = true := decide_eq_true hspelled
  rw [get?_namesOf h, List.reverse_concat, List.find?_cons, hlast]
  rfl

/-! ## Orders -/

/-- Entries that spell one token give it one name. -/
def Agree (entries : List (String × Member)) : Prop :=
  ∀ entry ∈ entries, ∀ other ∈ entries,
    Token.parse? entry.1 = Token.parse? other.1 → entry.2 = other.2

/-- Names that agree are the same in every order. -/
theorem Agree.get?_eq (hagree : Agree entries) (horder : order.Perm entries)
    (horder' : order'.Perm entries) (h : namesOf order .empty = .ok names)
    (h' : namesOf order' .empty = .ok names') (token : Token) :
    names.get? token = names'.get? token := by
  cases hget : names.get? token with
  | none =>
    cases hget' : names'.get? token with
    | none => rfl
    | some member =>
      obtain ⟨entry, hmem, hspelled, -⟩ := exists_mem_of_get?_namesOf h' hget'
      have hother : entry ∈ order := horder.mem_iff.2 (horder'.mem_iff.1 hmem)
      obtain ⟨_, hname⟩ := exists_get?_namesOf h hother hspelled
      cases hget.symm.trans hname
  | some member =>
    obtain ⟨entry, hmem, hspelled, rfl⟩ := exists_mem_of_get?_namesOf h hget
    have hother : entry ∈ order' := horder'.mem_iff.2 (horder.mem_iff.1 hmem)
    obtain ⟨member', hget'⟩ := exists_get?_namesOf h' hother hspelled
    obtain ⟨entry', hmem', hspelled', rfl⟩ := exists_mem_of_get?_namesOf h' hget'
    rw [hget', hagree entry (horder.mem_iff.1 hmem) entry' (horder'.mem_iff.1 hmem')
      (hspelled.trans hspelled'.symm)]

/-- Any of the entries can come last. -/
theorem exists_perm_concat (hmem : entry ∈ entries) :
    ∃ front, (front ++ [entry]).Perm entries := by
  obtain ⟨front, back, rfl⟩ := List.append_of_mem hmem
  refine ⟨front ++ back, ?_⟩
  rw [List.append_assoc]
  exact (List.perm_append_comm.append_left front : (front ++ (back ++ [entry])).Perm _)

/-- The names of a tree file that is accepted are accepted in every order. They are the same in
every order if and only if entries that spell one token give it one name. -/
theorem names_independent_of_order_iff (file : TreeEntry) {tree : NamedTree}
    (haccepted : file.toTree = .ok tree) :
    let table := (Dictionary.ofList file.names).entries
    (∀ order, order.Perm table → ∃ names, namesOf order .empty = .ok names) ∧
      ((∀ order order' names names', order.Perm table → order'.Perm table →
          namesOf order .empty = .ok names → namesOf order' .empty = .ok names' →
            ∀ token, names.get? token = names'.get? token) ↔
        Agree table) := by
  intro table
  have hspelled : ∀ entry ∈ table, ∃ token, Token.parse? entry.1 = some token := by
    obtain ⟨_, -, hnamed⟩ := bind_eq_ok_iff.1 haccepted
    obtain ⟨names, hnames, -⟩ := bind_eq_ok_iff.1 hnamed
    exact exists_namesOf_iff.1 ⟨names, hnames⟩
  have hall : ∀ order, order.Perm table → ∃ names, namesOf order .empty = .ok names := by
    intro order horder
    exact exists_namesOf_iff.2 fun entry hmem => hspelled entry (horder.mem_iff.1 hmem)
  refine ⟨hall, fun hsame entry hmem other hmem' hboth => ?_, fun hagree _ _ _ _ horder horder' =>
    hagree.get?_eq horder horder'⟩
  -- each of the two entries comes last in some order
  obtain ⟨token, htoken⟩ := hspelled entry hmem
  obtain ⟨front, hfront⟩ := exists_perm_concat hmem
  obtain ⟨front', hfront'⟩ := exists_perm_concat hmem'
  obtain ⟨names, hnames⟩ := hall _ hfront
  obtain ⟨names', hnames'⟩ := hall _ hfront'
  have hget := get?_namesOf_concat hnames htoken
  have hget' := get?_namesOf_concat hnames' (hboth ▸ htoken)
  rw [hsame _ _ names names' hfront hfront' hnames hnames' token, hget'] at hget
  exact (Option.some.inj hget).symm

/-- A file with names for two tokens. -/
def twoTokens : TreeEntry :=
  ⟨[], [], none, [("1", ⟨none, "First"⟩), ("0x2", ⟨none, "Second"⟩)]⟩

theorem names_independent_of_order_twoTokens :
    (∃ tree, twoTokens.toTree = .ok tree) ∧
      ∀ order order' names names',
        order.Perm (Dictionary.ofList twoTokens.names).entries →
          order'.Perm (Dictionary.ofList twoTokens.names).entries →
            namesOf order .empty = .ok names → namesOf order' .empty = .ok names' →
              ∀ token, names.get? token = names'.get? token := by
  have haccepted : twoTokens.toTree = .ok ⟨⟨[], [], none⟩,
    Dictionary.ofList [(⟨1⟩, ⟨none, "First"⟩), (⟨2⟩, ⟨none, "Second"⟩)]⟩ := rfl
  have hagree : Agree (Dictionary.ofList twoTokens.names).entries := by
    unfold Agree
    decide
  exact ⟨⟨_, haccepted⟩, (names_independent_of_order_iff twoTokens haccepted).2.2 hagree⟩

/-- A file in which two texts spell one token. -/
def twoSpellings : TreeEntry :=
  ⟨[], [], none, [("1", ⟨none, "First"⟩), ("0x1", ⟨none, "Second"⟩)]⟩

/-- The file is accepted, but which of its names the token gets depends on the order. -/
theorem names_depend_on_order :
    (∃ tree, twoSpellings.toTree = .ok tree) ∧
      ¬ ∀ order order' names names',
        order.Perm (Dictionary.ofList twoSpellings.names).entries →
          order'.Perm (Dictionary.ofList twoSpellings.names).entries →
            namesOf order .empty = .ok names → namesOf order' .empty = .ok names' →
              ∀ token, names.get? token = names'.get? token := by
  have haccepted : ∃ tree, twoSpellings.toTree = .ok tree := ⟨_, rfl⟩
  refine ⟨haccepted, fun hsame => ?_⟩
  have h := hsame twoSpellings.names twoSpellings.names.reverse _ _ (.refl _)
    (List.reverse_perm _) rfl rfl ⟨1⟩
  exact absurd h (by decide)

end DebugSymbols.TreeFile
