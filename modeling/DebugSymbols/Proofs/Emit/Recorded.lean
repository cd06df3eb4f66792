import DebugSymbols.Emit.Emitter
import DebugSymbols.Proofs.Emit.Serialization
import DebugSymbols.Proofs.Sink.Recording

/-!
# What an emission has recorded

`emission.Recorded log known` says that an emission into a recording has told the calls `log` and
defined the documents `known`, and that it knows their handles. Every operation of an emitter that
succeeds adds to both, and the statements here say what.
-/

namespace DebugSymbols

/-- The emission has told the calls `log` and defined the documents `known`. -/
structure Emission.Recorded (emission : Emission Recording) (log : List Entry)
    (known : List Document) : Prop where
  entries_eq : emission.sink.entries.toList = log
  documents_eq : emission.sink.documents.toList = known
  /-- The table of registered documents has the known paths, with their handles. -/
  handle?_eq : ∀ path, (emission.registered.get? path).map (·.handle) =
    if path ∈ known.map (·.path) then some (handleOf known path) else none

/-- The emitter with the recording sink. -/
def Emitter.recording (options : Options) (names : Option Names) : Emitter Recording :=
  ⟨recordingSink, options, names⟩

namespace Emission

theorem recorded_start (failOn : Option Operation) :
    (Emission.start (Recording.start failOn)).Recorded [] [] :=
  ⟨rfl, rfl, fun _ => rfl⟩

namespace Recorded

variable {emission : Emission Recording} {log : List Entry} {known : List Document}

/-- The table has the handle of a known path. -/
theorem handle_eq (h : emission.Recorded log known) {path : String} {registration : Registration}
    (hget : emission.registered.get? path = some registration) :
    path ∈ known.map (·.path) ∧ registration.handle = handleOf known path := by
  have hhandle := h.handle?_eq path
  rw [hget, Option.map_some] at hhandle
  split at hhandle
  · rename_i hmem
    exact ⟨hmem, Option.some.inj hhandle⟩
  · cases hhandle

/-- A path that the table does not have is not known. -/
theorem notMem_of_get?_eq_none (h : emission.Recorded log known) {path : String}
    (hget : emission.registered.get? path = none) : path ∉ known.map (·.path) := by
  have hhandle := h.handle?_eq path
  rw [hget, Option.map_none] at hhandle
  split at hhandle
  · cases hhandle
  · assumption

end Recorded

end Emission

namespace Emitter

variable {σ α : Type} {options : Options} {names : Option Names}

/-- An attempt on the sink changes nothing but the sink. -/
theorem onSink_eq_iff {step : Attempt σ α} {emission last : Emission σ}
    {result : Except SymbolError α} :
    (onSink step).outcome emission = (result, last) ↔
      ∃ sink, step.outcome emission.sink = (result, sink) ∧ last = { emission with sink } := by
  have houtcome : (onSink step).outcome emission = ((step.outcome emission.sink).1,
      { emission with sink := (step.outcome emission.sink).2 }) := rfl
  rw [houtcome]
  constructor
  · intro h
    obtain ⟨hresult, hlast⟩ := Prod.mk.inj h
    exact ⟨_, Prod.ext hresult rfl, hlast.symm⟩
  · rintro ⟨sink, h, rfl⟩
    rw [h]

variable {emission last : Emission Recording} {log : List Entry} {known : List Document}

/-- A notice is not a call. -/
theorem recorded_tell {notice : Notice}
    (h : (tell notice : Attempt (Emission Recording) Unit).outcome emission = (.ok (), last))
    (hrecorded : emission.Recorded log known) : last.Recorded log known := by
  cases h
  exact ⟨hrecorded.entries_eq, hrecorded.documents_eq, hrecorded.handle?_eq⟩

/-- A command is told. -/
theorem recorded_issue {command : Command}
    (h : ((Emitter.recording options names).issue command).outcome emission = (.ok (), last))
    (hrecorded : emission.Recorded log known) :
    last.Recorded (log ++ [command.entry]) known := by
  obtain ⟨_, _, hissue, hcount⟩ := Attempt.outcome_bind_eq_ok_iff.1 h
  obtain ⟨sink, hsink, rfl⟩ := onSink_eq_iff.1 hissue
  cases hcount
  obtain ⟨hentries, hdocuments⟩ := Recording.issue_log hsink
  refine ⟨?_, ?_, hrecorded.handle?_eq⟩
  · rw [hentries, hrecorded.entries_eq]
  · rw [hdocuments, hrecorded.documents_eq]

/-- A new document is defined under the next handle. -/
theorem recorded_define {document : Document} {handle : DocumentHandle}
    (h : ((Emitter.recording options names).define document).outcome emission = (.ok handle, last))
    (hrecorded : emission.Recorded log known) (hnew : document.path ∉ known.map (·.path)) :
    handle = handleOf (known ++ [document]) document.path ∧
      last.Recorded (log ++ [.defineDocument document.path handle]) (known ++ [document]) := by
  obtain ⟨handle, _, hdefine, h⟩ := Attempt.outcome_bind_eq_ok_iff.1 h
  obtain ⟨sink, hsink, rfl⟩ := onSink_eq_iff.1 hdefine
  cases h
  obtain ⟨hhandle, hentries, hdocuments⟩ := Recording.defineDocument_log hsink
  rw [hrecorded.documents_eq, ← handleOf_append_singleton hnew] at hhandle
  refine ⟨hhandle, ?_, ?_, ?_⟩
  · exact hentries.trans (by rw [hrecorded.entries_eq])
  · exact hdocuments.trans (by rw [hrecorded.documents_eq])
  · -- the table has one more path now, and the paths before it keep their handles
    intro path
    show ((emission.registered.insert _ _).get? path).map _ = _
    simp only [Dictionary.get?_insert, List.map_append, List.mem_append, List.map_singleton,
      List.mem_singleton]
    by_cases hpath : document.path = path
    · subst hpath
      rw [if_pos rfl, if_pos (Or.inr rfl), ← hhandle]
      rfl
    · rw [if_neg hpath, hrecorded.handle?_eq]
      by_cases hmem : path ∈ known.map (·.path)
      · rw [if_pos hmem, if_pos (Or.inl hmem), handleOf_append hmem]
      · rw [if_neg hmem, if_neg]
        rintro (hin | heq)
        · exact hmem hin
        · exact hpath heq.symm

/-- A document is defined unless its path is known, and its handle is that of its path. -/
theorem recorded_register {document : Document} {handle : DocumentHandle}
    (h : ((Emitter.recording options names).register document).outcome emission =
      (.ok handle, last))
    (hrecorded : emission.Recorded log known) :
    handle = handleOf (known ++ fresh known [document]) document.path ∧
      last.Recorded (log ++ definitions known [document])
        (known ++ fresh known [document]) := by
  obtain ⟨_, _, hget, h⟩ := Attempt.outcome_bind_eq_ok_iff.1 h
  cases hget
  cases hregistered : emission.registered.get? document.path with
  | some registration =>
    obtain ⟨hmem, hhandle⟩ := hrecorded.handle_eq hregistered
    rw [hregistered] at h
    -- a differing kind gives a notice and nothing else
    have hsame : handle = registration.handle ∧ last.Recorded log known := by
      dsimp only at h
      split at h
      · obtain ⟨_, _, htell, h⟩ := Attempt.outcome_bind_eq_ok_iff.1 h
        cases h
        exact ⟨rfl, recorded_tell htell hrecorded⟩
      · cases h
        exact ⟨rfl, hrecorded⟩
    rw [definitions, fresh_singleton_of_mem hmem, List.append_nil, List.map_nil, List.append_nil,
      ← hhandle]
    exact hsame
  | none =>
    have hnew := hrecorded.notMem_of_get?_eq_none hregistered
    rw [hregistered] at h
    obtain ⟨hhandle, hlast⟩ := recorded_define h hrecorded hnew
    rw [definitions, fresh_singleton_of_notMem hnew, List.map_singleton, ← hhandle]
    exact ⟨rfl, hlast⟩

end Emitter

/-! ## Scripts -/

/-- The call that a step leaves in the recording. -/
def Step.entry? : Step → Option Entry
  | .issue command => some command.entry
  | _ => none

/-- Steps that issue commands leave the calls of the commands. -/
theorem Step.filterMap_entry?_map {α : Type} (items : List α) (command : α → Command) :
    (items.map fun item => Step.issue (command item)).filterMap Step.entry? =
      items.map fun item => (command item).entry := by
  rw [List.filterMap_map, ← List.filterMap_eq_map]
  rfl

/-- Whether a step is one that the tree is at fault with. -/
def Step.isFault : Step → Bool
  | .fail _ => true
  | _ => false

/-- In any state a script that is carried out to its end has no fault, and its commands are recorded
behind what was recorded before; no document is defined. -/
theorem Emitter.told_of_perform {options : Options} {names : Option Names} {steps : List Step}
    {emission last : Emission Recording}
    (h : ((Emitter.recording options names).perform steps).outcome emission = (.ok (), last)) :
    (∀ step ∈ steps, step.isFault = false) ∧
      last.sink.entries.toList = emission.sink.entries.toList ++ steps.filterMap Step.entry? ∧
        last.sink.documents = emission.sink.documents ∧ last.registered = emission.registered := by
  induction steps generalizing emission with
  | nil =>
    cases h
    exact ⟨by simp, by simp, rfl, rfl⟩
  | cons step steps ih =>
    rw [List.forall_mem_cons]
    cases step with
    | tell notice =>
      obtain ⟨_, _, htell, h⟩ := Attempt.outcome_bind_eq_ok_iff.1 h
      cases htell
      obtain ⟨hfault, hrest⟩ := ih h
      exact ⟨⟨rfl, hfault⟩, hrest⟩
    | issue command =>
      obtain ⟨_, _, hissue, h⟩ := Attempt.outcome_bind_eq_ok_iff.1 h
      obtain ⟨_, _, honSink, hcount⟩ := Attempt.outcome_bind_eq_ok_iff.1 hissue
      obtain ⟨sink, hsink, rfl⟩ := onSink_eq_iff.1 honSink
      cases hcount
      obtain ⟨hentries, hdocuments⟩ := Recording.issue_log hsink
      obtain ⟨hfault, hlast, hlastDocuments, hregistered⟩ := ih h
      refine ⟨⟨rfl, hfault⟩, hlast.trans ?_, hlastDocuments.trans hdocuments, hregistered⟩
      show sink.entries.toList ++ _ = _
      rw [hentries, List.append_assoc]
      rfl
    | fail error => cases h

/-- A script that is carried out to its end has no fault, and all its commands are told. -/
theorem Emitter.recorded_perform {options : Options} {names : Option Names} {steps : List Step}
    {emission last : Emission Recording} {log : List Entry} {known : List Document}
    (h : ((Emitter.recording options names).perform steps).outcome emission = (.ok (), last))
    (hrecorded : emission.Recorded log known) :
    (∀ step ∈ steps, step.isFault = false) ∧
      last.Recorded (log ++ steps.filterMap Step.entry?) known := by
  obtain ⟨hfault, hentries, hdocuments, hregistered⟩ := told_of_perform h
  refine ⟨hfault, ?_, ?_, ?_⟩
  · rw [hentries, hrecorded.entries_eq]
  · rw [hdocuments, hrecorded.documents_eq]
  · rw [hregistered]
    exact hrecorded.handle?_eq

end DebugSymbols
