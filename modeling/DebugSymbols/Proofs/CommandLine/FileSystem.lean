import DebugSymbols.CommandLine.FileSystem
import DebugSymbols.Proofs.Attempt

/-!
# A file comes and goes

A path that has a place leads to a name in a directory that is there. A file that is written to this
place, and one that is removed from it, changes nothing but this place: every directory stays, and
no other comes. So the path leads to the same place afterwards.
-/

namespace DebugSymbols.CommandLine

/-! ## Locations -/

namespace Location

variable {location other around directory : Location} {name : String}

theorem isWithin_iff :
    location.isWithin directory = true ↔ location.start = directory.start ∧
      directory.names <+: location.names ∧ directory.names.length < location.names.length := by
  rw [isWithin, Bool.and_eq_true, Bool.and_eq_true, beq_iff_eq, List.isPrefixOf_iff_prefix,
    decide_eq_true_eq, and_assoc]

theorem isWithin_trans (h : location.isWithin other = true) (h' : other.isWithin around = true) :
    location.isWithin around = true := by
  rw [isWithin_iff] at h h' ⊢
  obtain ⟨hstart, hprefix, hlength⟩ := h
  obtain ⟨hstart', hprefix', hlength'⟩ := h'
  exact ⟨hstart.trans hstart', hprefix'.trans hprefix, Nat.lt_trans hlength' hlength⟩

/-- What is around a name is its directory and what is around that. -/
theorem isWithin_down :
    (around.down name).isWithin directory = true ↔
      directory = around ∨ around.isWithin directory = true := by
  rw [isWithin_iff, isWithin_iff]
  obtain ⟨start, names⟩ := around
  obtain ⟨start', names'⟩ := directory
  dsimp only [down]
  constructor
  · rintro ⟨rfl, hprefix, hlength⟩
    rw [List.length_append, List.length_singleton] at hlength
    rcases Nat.lt_or_ge names'.length names.length with hshort | hlong
    · exact Or.inr ⟨rfl, List.prefix_of_prefix_length_le hprefix (List.prefix_append _ _)
        (Nat.le_of_lt hshort), hshort⟩
    · have hsame : names'.length = names.length := by omega
      have hnames : names' = names := by
        rw [List.prefix_iff_eq_take.1 hprefix, hsame, List.take_left]
      rw [hnames]
      exact Or.inl rfl
  · rintro (h | ⟨rfl, hprefix, hlength⟩)
    · cases h
      refine ⟨rfl, List.prefix_append _ _, ?_⟩
      rw [List.length_append, List.length_singleton]
      omega
    · refine ⟨rfl, hprefix.trans (List.prefix_append _ _), ?_⟩
      rw [List.length_append]
      omega

theorem up_down (around : Location) (name : String) : (around.down name).up = around := by
  obtain ⟨_ | levels, names⟩ := around
  · show Location.mk .root (names ++ [name]).dropLast = ⟨.root, names⟩
    rw [List.dropLast_concat]
  · have hne : names ++ [name] ≠ [] := List.append_ne_nil_of_right_ne_nil _ (List.cons_ne_nil _ _)
    rw [down, up]
    · rw [List.dropLast_concat]
    · exact fun h => hne h

end Location

/-! ## Directories -/

namespace FileSystem

variable {system later : FileSystem} {location around other : Location} {path name : String}

/-- Whether there is a file or an explicit directory at a location. -/
def Lists (system : FileSystem) (location : Location) : Prop :=
  location ∈ system.directories ∨ location ∈ system.files.keys

theorem isDirectory_iff :
    system.isDirectory location = true ↔ location.names = [] ∨ location ∈ system.directories ∨
      ∃ entry, system.Lists entry ∧ entry.isWithin location = true := by
  simp only [isDirectory, Lists, Bool.or_eq_true, List.isEmpty_iff, List.contains_iff_mem,
    List.any_eq_true, List.mem_append, or_assoc]

/-- Around a directory there are directories. -/
theorem isDirectory_of_isWithin (h : system.isDirectory location = true)
    (hwithin : location.isWithin around = true) : system.isDirectory around = true := by
  rw [isDirectory_iff] at h ⊢
  rcases h with hnil | hmem | ⟨entry, hentry, hbelow⟩
  · obtain ⟨-, -, hlength⟩ := Location.isWithin_iff.1 hwithin
    rw [hnil] at hlength
    exact absurd hlength (Nat.not_lt_zero _)
  · exact Or.inr (Or.inr ⟨location, Or.inl hmem, hwithin⟩)
  · exact Or.inr (Or.inr ⟨entry, hentry, Location.isWithin_trans hbelow hwithin⟩)

/-- A file in a directory that is there makes no other directory. -/
theorem isDirectory_write (name : String) (bytes : ByteArray)
    (haround : system.isDirectory around = true) (location : Location) :
    (system.write (around.down name) bytes).isDirectory location = system.isDirectory location := by
  rw [Bool.eq_iff_iff]
  constructor
  · intro h
    rcases isDirectory_iff.1 h with hnil | hmem | ⟨entry, hdirectory | hkey, hbelow⟩
    · exact isDirectory_iff.2 (Or.inl hnil)
    · exact isDirectory_iff.2 (Or.inr (Or.inl hmem))
    · exact isDirectory_iff.2 (Or.inr (Or.inr ⟨entry, Or.inl hdirectory, hbelow⟩))
    · rcases Dictionary.mem_keys_insert.1 hkey with rfl | hold
      · rcases Location.isWithin_down.1 hbelow with rfl | hwithin
        · exact haround
        · exact isDirectory_of_isWithin haround hwithin
      · exact isDirectory_iff.2 (Or.inr (Or.inr ⟨entry, Or.inr hold, hbelow⟩))
  · rw [isDirectory_iff, isDirectory_iff]
    rintro (hnil | hmem | ⟨entry, hdirectory | hkey, hbelow⟩)
    · exact Or.inl hnil
    · exact Or.inr (Or.inl hmem)
    · exact Or.inr (Or.inr ⟨entry, Or.inl hdirectory, hbelow⟩)
    · exact Or.inr (Or.inr ⟨entry, Or.inr (Dictionary.mem_keys_insert.2 (Or.inr hkey)), hbelow⟩)

/-- A file that is removed leaves all directories as they are. -/
theorem isDirectory_remove (haround : system.isDirectory around = true) (location : Location) :
    (system.remove (around.down name)).isDirectory location = system.isDirectory location := by
  have hdirectories : (system.remove (around.down name)).directories =
      around :: system.directories := by
    rw [remove, Location.up_down]
  rw [Bool.eq_iff_iff]
  constructor
  · intro h
    rcases isDirectory_iff.1 h with hnil | hmem | ⟨entry, hdirectory | hkey, hbelow⟩
    · exact isDirectory_iff.2 (Or.inl hnil)
    · rw [hdirectories] at hmem
      rcases List.mem_cons.1 hmem with rfl | hold
      · exact haround
      · exact isDirectory_iff.2 (Or.inr (Or.inl hold))
    · rw [hdirectories] at hdirectory
      rcases List.mem_cons.1 hdirectory with rfl | hold
      · exact isDirectory_of_isWithin haround hbelow
      · exact isDirectory_iff.2 (Or.inr (Or.inr ⟨entry, Or.inl hold, hbelow⟩))
    · have hold := (Dictionary.mem_keys_erase.1 hkey).2
      exact isDirectory_iff.2 (Or.inr (Or.inr ⟨entry, Or.inr hold, hbelow⟩))
  · have hstays : ∀ entry ∈ around :: system.directories,
        (system.remove (around.down name)).Lists entry := fun entry hmem =>
      Or.inl (hdirectories ▸ hmem)
    rw [isDirectory_iff, isDirectory_iff, hdirectories]
    rintro (hnil | hmem | ⟨entry, hdirectory | hkey, hbelow⟩)
    · exact Or.inl hnil
    · exact Or.inr (Or.inl (List.mem_cons_of_mem _ hmem))
    · exact Or.inr (Or.inr ⟨entry, hstays entry (List.mem_cons_of_mem _ hdirectory), hbelow⟩)
    · by_cases hremoved : entry = around.down name
      · -- the directory that stays takes the place of the file
        rw [hremoved] at hbelow
        rcases Location.isWithin_down.1 hbelow with rfl | hwithin
        · exact Or.inr (Or.inl List.mem_cons_self)
        · exact Or.inr (Or.inr ⟨around, hstays around List.mem_cons_self, hwithin⟩)
      · exact Or.inr (Or.inr ⟨entry, Or.inr (Dictionary.mem_keys_erase.2 ⟨hremoved, hkey⟩), hbelow⟩)

/-! ## Paths -/

theorem find_eq_directory_iff :
    system.find location = .ok .directory ↔
      location.isTooLong = false ∧ system.isDirectory location = true := by
  rw [find]
  split
  · rename_i hlong
    simp [hlong]
  · rename_i hlong
    split
    · rename_i hdirectory
      simp [hlong, hdirectory]
    · rename_i hdirectory
      cases system.files.get? location <;> simp [hdirectory]

/-- A step is taken if it leads to a directory. -/
theorem enter_eq_ok_iff {step : String} {next : Location} :
    system.enter location step = .ok next ↔
      system.find (location.step step) = .ok .directory ∧ location.step step = next := by
  rw [enter, bind_eq_ok_iff]
  constructor
  · rintro ⟨_ | _, hfind, hnext⟩
    · exact ⟨hfind, Except.ok.inj hnext⟩
    · cases hnext
  · rintro ⟨hfind, rfl⟩
    exact ⟨.directory, hfind, rfl⟩

/-- Steps that lead through directories lead to one. -/
theorem isDirectory_of_foldlM_enter (steps : List String)
    (hstart : system.isDirectory location = true)
    (h : steps.foldlM system.enter location = .ok around) : system.isDirectory around = true := by
  induction steps generalizing location with
  | nil =>
    cases h
    exact hstart
  | cons step steps ih =>
    obtain ⟨next, hnext, hrest⟩ := bind_eq_ok_iff.1 h
    obtain ⟨hfind, rfl⟩ := enter_eq_ok_iff.1 hnext
    exact ih (find_eq_directory_iff.1 hfind).2 hrest

/-- Steps lead to the same place where there are the same directories. -/
theorem foldlM_enter_of_isDirectory (hsame : ∀ other,
    later.isDirectory other = system.isDirectory other) (steps : List String)
    (h : steps.foldlM system.enter location = .ok around) :
    steps.foldlM later.enter location = .ok around := by
  induction steps generalizing location with
  | nil => exact h
  | cons step steps ih =>
    obtain ⟨next, hnext, hrest⟩ := bind_eq_ok_iff.1 h
    obtain ⟨hfind, rfl⟩ := enter_eq_ok_iff.1 hnext
    have hlater : later.find (location.step step) = .ok .directory := by
      rw [find_eq_directory_iff, hsame]
      exact find_eq_directory_iff.1 hfind
    exact bind_eq_ok_iff.2 ⟨_, enter_eq_ok_iff.2 ⟨hlater, rfl⟩, ih hrest⟩

/-- A path leads to a name in the directory that its other steps lead to. -/
theorem target_eq_entry_iff :
    system.target path = .ok (.entry location) ↔
      ¬ path.contains '\x00' = true ∧ ¬ pathLimit ≤ path.utf8ByteSize ∧
        ∃ around name,
          (Location.steps path).dropLast.foldlM system.enter (Location.startOf path) = .ok around ∧
            (Location.steps path).getLast? = some name ∧ name ≠ "." ∧ name ≠ ".." ∧
              around.down name = location := by
  rw [target]
  by_cases hnul : path.contains '\x00' = true
  · rw [if_pos hnul]
    exact iff_of_false (fun h => nomatch h) fun h => h.1 hnul
  · rw [if_neg hnul]
    dsimp only
    by_cases hlong : pathLimit ≤ path.utf8ByteSize
    · rw [if_pos hlong]
      exact iff_of_false (fun h => nomatch h) fun h => h.2.1 hlong
    · rw [if_neg hlong, bind_eq_ok_iff]
      constructor
      · rintro ⟨around, haround, hlast⟩
        refine ⟨hnul, hlong, around, ?_⟩
        split at hlast
        · cases hlast
        · cases hlast
        · cases hlast
        · rename_i name hdot hdots hname
          cases hlast
          exact ⟨name, haround, hname, hdot, hdots, rfl⟩
      · rintro ⟨-, -, around, name, haround, hname, hdot, hdots, rfl⟩
        refine ⟨around, haround, ?_⟩
        rw [hname]
        split
        · rename_i h
          cases h
        · rename_i h
          exact absurd (Option.some.inj h) hdot
        · rename_i h
          exact absurd (Option.some.inj h) hdots
        · rename_i h
          cases h
          rfl

/-- A path leads to the same place where there are the same directories. -/
theorem target_of_isDirectory
    (hsame : ∀ other, later.isDirectory other = system.isDirectory other)
    (h : system.target path = .ok (.entry location)) :
    later.target path = .ok (.entry location) := by
  rw [target_eq_entry_iff] at h ⊢
  obtain ⟨hnul, hlong, around, name, haround, hname⟩ := h
  exact ⟨hnul, hlong, around, name, foldlM_enter_of_isDirectory hsame _ haround, hname⟩

/-- A path leads to a name in a directory that is there. -/
theorem exists_down_of_target (h : system.target path = .ok (.entry location)) :
    ∃ around name, system.isDirectory around = true ∧ location = around.down name := by
  obtain ⟨-, -, around, name, haround, -, -, -, rfl⟩ := target_eq_entry_iff.1 h
  have hstart : system.isDirectory (Location.startOf path) = true := by
    rw [isDirectory_iff, Location.startOf]
    split
    · exact Or.inl rfl
    · exact Or.inl rfl
  exact ⟨around, name, isDirectory_of_foldlM_enter _ hstart haround, rfl⟩

/-- Where there is no directory there may be a file. -/
theorem find_of_not_isDirectory (hshort : location.isTooLong = false)
    (hdirectory : system.isDirectory location = false) :
    system.find location =
      match system.files.get? location with
      | some bytes => .ok (.file bytes)
      | none => .error .notFound := by
  rw [find, hshort, hdirectory]
  rfl

/-- The place of a path is the name that it leads to, unless there is a directory. -/
theorem place_eq_ok_iff :
    system.place path = .ok location ↔ system.target path = .ok (.entry location) ∧
      ¬ path.endsWith "/" = true ∧ location.isTooLong = false ∧
        system.isDirectory location = false := by
  rw [place, bind_eq_ok_iff]
  constructor
  · rintro ⟨_ | target, htarget, hplace⟩
    · cases hplace
    · dsimp only at hplace
      split at hplace
      · cases hplace
      · rename_i hslash
        rw [find] at hplace
        by_cases hlong : target.isTooLong = true
        · rw [if_pos hlong] at hplace
          cases hplace
        · rw [if_neg hlong] at hplace
          by_cases hdirectory : system.isDirectory target = true
          · rw [if_pos hdirectory] at hplace
            cases hplace
          · rw [if_neg hdirectory] at hplace
            have htargetEq : target = location := by
              cases hget : system.files.get? target with
              | none =>
                rw [hget] at hplace
                exact Except.ok.inj hplace
              | some bytes =>
                rw [hget] at hplace
                exact Except.ok.inj hplace
            rw [htargetEq] at htarget hlong hdirectory
            exact ⟨htarget, hslash, eq_false_of_ne_true hlong,
              eq_false_of_ne_true hdirectory⟩
  · rintro ⟨htarget, hslash, hshort, hdirectory⟩
    refine ⟨.entry location, htarget, ?_⟩
    dsimp only
    rw [if_neg hslash, find_of_not_isDirectory hshort hdirectory]
    cases system.files.get? location with
    | none => rfl
    | some bytes => rfl

/-! ## Files -/

/-- Where there are the same directories, a path that had a place leads to what there is now. -/
theorem read_of_isDirectory (hplace : system.place path = .ok location)
    (hsame : ∀ other, later.isDirectory other = system.isDirectory other) :
    later.read path =
      match later.files.get? location with
      | some bytes => .ok bytes
      | none => .error .notFound := by
  obtain ⟨htarget, hslash, hshort, hdirectory⟩ := place_eq_ok_iff.1 hplace
  have hfind := find_of_not_isDirectory hshort ((hsame location).trans hdirectory)
  rw [read, target_of_isDirectory hsame htarget, ok_bind]
  dsimp only
  rw [hfind]
  cases later.files.get? location with
  | none => rfl
  | some bytes =>
    rw [ok_bind]
    exact if_neg hslash

/-- Where there are the same directories, there is what the files say. -/
theorem find_of_isDirectory (hsame : ∀ other, later.isDirectory other = system.isDirectory other)
    (hfile : later.files.get? other = system.files.get? other) :
    later.find other = system.find other := by
  rw [find, find, hsame, hfile]

/-- A file that is written to the place of a path is read there, and nothing else changes. -/
theorem read_write (hplace : system.place path = .ok location) (bytes : ByteArray) :
    (system.write location bytes).read path = .ok bytes ∧
      ∀ other ≠ location, (system.write location bytes).find other = system.find other := by
  obtain ⟨around, name, haround, rfl⟩ := exists_down_of_target (place_eq_ok_iff.1 hplace).1
  have hsame := isDirectory_write name bytes haround
  have hget := Dictionary.get?_insert system.files (around.down name)
  refine ⟨?_, fun other hother => find_of_isDirectory hsame ?_⟩
  · rw [read_of_isDirectory hplace hsame, write, hget, if_pos rfl]
  · exact (hget other bytes).trans (if_neg hother.symm)

/-- A file that is removed from the place of a path is not found there, and nothing else changes. -/
theorem read_remove_write (hplace : system.place path = .ok location) (bytes : ByteArray) :
    ((system.write location bytes).remove location).read path = .error .notFound ∧
      ∀ other ≠ location,
        ((system.write location bytes).remove location).find other = system.find other := by
  obtain ⟨around, name, haround, rfl⟩ := exists_down_of_target (place_eq_ok_iff.1 hplace).1
  have hwritten := isDirectory_write name bytes haround
  have hsame : ∀ other, ((system.write (around.down name) bytes).remove
      (around.down name)).isDirectory other = system.isDirectory other := fun other =>
    (isDirectory_remove ((hwritten around).trans haround) other).trans (hwritten other)
  have hget := Dictionary.get?_erase (system.write (around.down name) bytes).files
    (around.down name)
  refine ⟨?_, fun other hother => find_of_isDirectory hsame ?_⟩
  · rw [read_of_isDirectory hplace hsame, remove, hget, if_pos rfl]
  · rw [remove, hget, if_neg hother, write, Dictionary.get?_insert, if_neg hother.symm]

end FileSystem

end DebugSymbols.CommandLine
