/-!
# Dictionaries

A dictionary keeps entries in the order in which their keys first came, each key once. A later entry
for a key replaces the value in place. `get?_insert` says what an insertion does to every key.
-/

namespace DebugSymbols

/-- Puts an entry at the place of its key, or at the end if the key is new. -/
def putEntry {κ υ : Type} [DecidableEq κ] (key : κ) (value : υ) : List (κ × υ) → List (κ × υ)
  | [] => [(key, value)]
  | (other, old) :: rest =>
    if other = key then (key, value) :: rest else (other, old) :: putEntry key value rest

theorem keys_putEntry {κ υ : Type} [DecidableEq κ] (key : κ) (value : υ)
    (entries : List (κ × υ)) :
    (putEntry key value entries).map (·.1) =
      if key ∈ entries.map (·.1) then entries.map (·.1) else entries.map (·.1) ++ [key] := by
  induction entries with
  | nil => simp [putEntry]
  | cons entry rest ih =>
    obtain ⟨other, old⟩ := entry
    by_cases h : other = key
    · subst h; simp [putEntry]
    · simp only [putEntry, h, if_false, List.map_cons, ih, List.mem_cons, Ne.symm h, false_or]
      split <;> simp

/-- A finite map from keys to values. -/
structure Dictionary (κ υ : Type) where
  entries : List (κ × υ)
  keys_nodup : (entries.map (·.1)).Nodup

namespace Dictionary

variable {κ υ : Type}

/-- The dictionary without entries. -/
def empty : Dictionary κ υ := ⟨[], List.nodup_nil⟩

instance : Inhabited (Dictionary κ υ) := ⟨empty⟩

/-- The number of keys. -/
def size (dictionary : Dictionary κ υ) : Nat := dictionary.entries.length

/-- The keys, in the order in which they came. -/
def keys (dictionary : Dictionary κ υ) : List κ := dictionary.entries.map (·.1)

variable [DecidableEq κ]

/-- The value of a key. -/
def get? (dictionary : Dictionary κ υ) (key : κ) : Option υ :=
  (dictionary.entries.find? fun entry => entry.1 = key).map (·.2)

/-- Whether a key has a value. -/
def contains (dictionary : Dictionary κ υ) (key : κ) : Bool := (dictionary.get? key).isSome

/-- Gives a key a value, in place of the one it had. -/
def insert (dictionary : Dictionary κ υ) (key : κ) (value : υ) : Dictionary κ υ where
  entries := putEntry key value dictionary.entries
  keys_nodup := by
    rw [keys_putEntry]
    split
    · exact dictionary.keys_nodup
    · rename_i h
      refine List.nodup_append.2 ⟨dictionary.keys_nodup, by simp, ?_⟩
      intro a ha b hb hab
      rw [List.mem_singleton.1 hb] at hab
      exact h (hab ▸ ha)

/-- Takes a key's value away. -/
def erase (dictionary : Dictionary κ υ) (key : κ) : Dictionary κ υ where
  entries := dictionary.entries.filter fun entry => entry.1 ≠ key
  keys_nodup := dictionary.keys_nodup.sublist (List.filter_sublist.map _)

/-- The dictionary of a list of entries, of which a later one wins over an earlier one. -/
def ofList (entries : List (κ × υ)) : Dictionary κ υ :=
  entries.foldl (fun dictionary (key, value) => dictionary.insert key value) empty

@[simp] theorem get?_empty (key : κ) : (empty : Dictionary κ υ).get? key = none := rfl

/-- An insertion changes the value of its own key and of no other. -/
theorem get?_insert (dictionary : Dictionary κ υ) (key key' : κ) (value : υ) :
    (dictionary.insert key value).get? key' =
      if key = key' then some value else dictionary.get? key' := by
  obtain ⟨entries, _⟩ := dictionary
  simp only [get?, insert]
  induction entries with
  | nil => by_cases h : key = key' <;> simp [putEntry, h]
  | cons entry rest ih =>
    obtain ⟨other, old⟩ := entry
    have hrest : (rest.map (·.1)).Nodup := by
      rename_i hnodup
      exact (List.nodup_cons.1 hnodup).2
    by_cases ho : other = key
    · subst ho
      by_cases h : other = key' <;> simp [putEntry, h]
    · by_cases h : other = key'
      · subst h
        simp [putEntry, ho, Ne.symm ho]
      · simp [putEntry, ho, h, ih hrest]

/-- An insertion adds its key and keeps all others. -/
theorem mem_keys_insert {dictionary : Dictionary κ υ} {key key' : κ} {value : υ} :
    key' ∈ (dictionary.insert key value).keys ↔ key' = key ∨ key' ∈ dictionary.keys := by
  rw [keys, insert, keys_putEntry]
  split
  · rename_i hmem
    constructor
    · exact Or.inr
    · rintro (rfl | h)
      · exact hmem
      · exact h
  · rw [List.mem_append, List.mem_singleton, or_comm]
    rfl

/-- The keys of a dictionary are those of the entries it was made of. -/
theorem mem_keys_ofList {entries : List (κ × υ)} {key : κ} :
    key ∈ (ofList entries).keys ↔ key ∈ entries.map (·.1) := by
  have hfold : ∀ dictionary : Dictionary κ υ,
      key ∈ (entries.foldl (fun dictionary (key, value) => dictionary.insert key value)
        dictionary).keys ↔ key ∈ dictionary.keys ∨ key ∈ entries.map (·.1) := by
    induction entries with
    | nil => simp
    | cons entry entries ih =>
      intro dictionary
      rw [List.foldl_cons, ih, mem_keys_insert, List.map_cons, List.mem_cons, or_left_comm,
        or_assoc]
  rw [ofList, hfold]
  exact or_iff_right List.not_mem_nil

theorem mem_keys_erase {dictionary : Dictionary κ υ} {key key' : κ} :
    key' ∈ (dictionary.erase key).keys ↔ key' ≠ key ∧ key' ∈ dictionary.keys := by
  simp only [keys, erase, List.mem_map, List.mem_filter, decide_eq_true_eq]
  constructor
  · rintro ⟨entry, ⟨hmem, hne⟩, rfl⟩
    exact ⟨hne, entry, hmem, rfl⟩
  · rintro ⟨hne, entry, hmem, rfl⟩
    exact ⟨entry, ⟨hmem, hne⟩, rfl⟩

/-- Taking a key's value away changes no other key. -/
theorem get?_erase (dictionary : Dictionary κ υ) (key key' : κ) :
    (dictionary.erase key).get? key' = if key' = key then none else dictionary.get? key' := by
  rw [get?, get?, erase, List.find?_filter]
  split
  · rename_i h
    simp [h]
  · rename_i h
    congr 2
    funext entry
    by_cases hentry : entry.1 = key'
    · simp [hentry, h]
    · simp [hentry]

/-- Whether two dictionaries give every key the same value. -/
def sameEntries [DecidableEq υ] (a b : Dictionary κ υ) : Bool :=
  a.size == b.size && a.entries.all fun (key, value) => b.get? key == some value

end Dictionary

end DebugSymbols
