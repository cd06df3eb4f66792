import DebugSymbols.Sink.Recording

/-!
# The sections of a log

A log is read section by section: a section begins where a method is opened, and ends where the next
one is. `sections` keeps the batches of each section, and those that stand before the first one,
which in a sound log are none. Logs whose later part begins with a section are read part by part.
-/

namespace DebugSymbols

namespace Entry

/-- The path and the handle of a defined document. -/
def definition? : Entry → Option (String × DocumentHandle)
  | defineDocument path handle => some (path, handle)
  | _ => none

/-- The method that is opened. -/
def opened? : Entry → Option Token
  | openMethod method => some method
  | _ => none

/-- The handle and the points of defined sequence points. -/
def batch? : Entry → Option (DocumentHandle × Batch)
  | defineSequencePoints handle batch => some (handle, batch)
  | _ => none

/-- Whether a call neither defines a document or points nor opens a method. -/
def IsQuiet (entry : Entry) : Prop :=
  entry.definition? = none ∧ entry.opened? = none ∧ entry.batch? = none

end Entry

/-- The batches of one method. -/
structure Section where
  token : Token
  batches : List (DocumentHandle × Batch)
deriving DecidableEq, Repr

/-- The batches before the first method, and those of every method. -/
def sections : List Entry → List (DocumentHandle × Batch) × List Section
  | [] => ([], [])
  | entry :: rest =>
    match entry.opened? with
    | some token => ([], ⟨token, (sections rest).1⟩ :: (sections rest).2)
    | none => (entry.batch?.toList ++ (sections rest).1, (sections rest).2)

/-- The points of a section that are in documents with a path. -/
def Section.pointsIn (documents : List Document) (section_ : Section) (path : String) :
    List SequencePoint :=
  (section_.batches.filter fun (handle, _) =>
    documents[handle.index]?.map (·.path) = some path).flatMap fun (_, batch) => batch.points

/-! ## Parts of a log -/

/-- A part without methods has nothing but the batches in it. -/
theorem sections_of_opened?_eq_none {log : List Entry} (h : ∀ entry ∈ log, entry.opened? = none) :
    sections log = (log.filterMap Entry.batch?, []) := by
  induction log with
  | nil => rfl
  | cons entry rest ih =>
    obtain ⟨hentry, hrest⟩ := List.forall_mem_cons.1 h
    rw [sections, hentry, ih hrest, List.filterMap_cons]
    cases entry.batch? <;> rfl

/-- The batches of a log are those before the first section and those of the sections. -/
theorem filterMap_batch? (log : List Entry) :
    log.filterMap Entry.batch? = (sections log).1 ++ (sections log).2.flatMap (·.batches) := by
  induction log with
  | nil => rfl
  | cons entry rest ih =>
    rw [List.filterMap_cons, sections, ih]
    cases entry <;> rfl

/-- A part of calls that are quiet has no section, and nothing in it. -/
theorem sections_of_isQuiet {log : List Entry} (h : ∀ entry ∈ log, entry.IsQuiet) :
    sections log = ([], []) := by
  have hbatch : log.filterMap Entry.batch? = [] :=
    List.filterMap_eq_nil_iff.2 fun entry hentry => (h entry hentry).2.2
  rw [sections_of_opened?_eq_none fun entry hentry => (h entry hentry).2.1, hbatch]

/-- A part that begins with a section adds its sections. -/
theorem sections_append {front back : List Entry} (h : (sections back).1 = []) :
    sections (front ++ back) =
      ((sections front).1, (sections front).2 ++ (sections back).2) := by
  induction front with
  | nil => exact Prod.ext h rfl
  | cons entry front ih =>
    rw [List.cons_append, sections, sections, ih]
    cases entry.opened? <;> rfl

/-- The section of a method that has been told up to some point: if it has been opened at all, its
batches are the first ones of the method. -/
theorem sections_of_prefix {token : Token} {front tail : List Entry}
    (h : front <+: .openMethod token :: tail) (htail : ∀ entry ∈ tail, entry.opened? = none) :
    (sections front).1 = [] ∧ ((sections front).2 = [] ∨
      ∃ batches, (sections front).2 = [⟨token, batches⟩] ∧
        batches <+: tail.filterMap Entry.batch?) := by
  rcases List.prefix_cons_iff.1 h with rfl | ⟨told, rfl, htold⟩
  · exact ⟨rfl, Or.inl rfl⟩
  · have htoldSections := sections_of_opened?_eq_none fun entry hentry =>
      htail entry (htold.subset hentry)
    have hsections : sections (.openMethod token :: told) =
        ([], ⟨token, (sections told).1⟩ :: (sections told).2) := rfl
    rw [htoldSections] at hsections
    rw [hsections]
    exact ⟨rfl, Or.inr ⟨_, rfl, htold.filterMap _⟩⟩

end DebugSymbols
