import DebugSymbols.Proofs.Emit.Injection
import DebugSymbols.Proofs.Remap
import DebugSymbols.Proofs.Xml.Writing

/-!
# The XML store simulates the recording

The recording checks the protocol by the open method, its outermost scopes and the starts of open
scopes, and the XML store by the names of open elements. Whatever the recording accepts, the store
on a device that never fails accepts as well and answers alike: the open elements are those of the
place to which the log has come. Its text is the log, rendered call by call. The emitter makes no
call that the recording refuses, so a relocation ends with the same result on both.
-/

namespace DebugSymbols.Xml

open Place (outside ended)

variable {ω : Type} {device : Device ω} {content : ω → String} {names : Option Names}

/-! ## Rendered logs -/

/-- The markup of a recorded call: that of the call, with the document that is kept under its
handle. -/
def entryMarkup (names : Option Names) (documents : List Document) : Entry → List Markup
  | .defineDocument _ handle =>
    documents[handle.index]?.toList.flatMap fun document =>
      callMarkup names handle.index (.define document)
  | .setUserEntryPoint method => callMarkup names 0 (.issue (.setUserEntryPoint method))
  | .openMethod method => callMarkup names 0 (.issue (.openMethod method))
  | .closeMethod => callMarkup names 0 (.issue .closeMethod)
  | .openScope start => callMarkup names 0 (.issue (.openScope start))
  | .closeScope stop => callMarkup names 0 (.issue (.closeScope stop))
  | .defineSequencePoints document batch =>
    callMarkup names 0 (.issue (.defineSequencePoints document batch))
  | .defineLocalVariable local_ => callMarkup names 0 (.issue (.defineLocalVariable local_))
  | .defineConstant name value signature =>
    callMarkup names 0 (.issue (.defineConstant name value signature))
  | .setSymbolAttribute parent name data =>
    callMarkup names 0 (.issue (.setSymbolAttribute parent name data))
  | .close => callMarkup names 0 (.issue .close)
  | .aborted => []

/-- The markup of a log. -/
def logMarkup (names : Option Names) (documents : List Document) (log : List Entry) :
    List Markup :=
  log.flatMap (entryMarkup names documents)

/-- The text of a log, within the outermost element. -/
def logText (names : Option Names) (documents : List Document) (log : List Entry) : String :=
  Markup.lines 1 (logMarkup names documents log)

/-- Only the markup of documents depends on handles. -/
theorem entryMarkup_entry (names : Option Names) (documents : List Document) (handle : Nat)
    (command : Command) :
    entryMarkup names documents command.entry = callMarkup names handle (.issue command) := by
  cases command <;> rfl

/-- Whether the documents of a log are known. -/
def HandlesKnown (documents : List Document) (log : List Entry) : Prop :=
  ∀ path handle, Entry.defineDocument path handle ∈ log → handle.index < documents.length

/-- Documents that are defined later do not change the markup of a log. -/
theorem logMarkup_append_documents {documents : List Document} {log : List Entry}
    (h : HandlesKnown documents log) (more : List Document) :
    logMarkup names (documents ++ more) log = logMarkup names documents log := by
  refine List.flatMap_congr fun entry hmem => ?_
  cases entry with
  | defineDocument path handle =>
    rw [entryMarkup, entryMarkup, List.getElem?_append_left (h path handle hmem)]
  | _ => rfl

/-! ## Open elements -/

/-- The open elements at a place, the innermost first. -/
def elementsAt : Place → List String
  | .outside => ["symbols"]
  | .untold _ => ["method", "symbols"]
  | .told _ scopes => scopes.map (fun _ => "scope") ++ ["method", "symbols"]
  | .ended => []

/-- Sequence points that may stand at a place have columns of equal length. -/
theorem isConsistent_of_holds {place : Place} {document : DocumentHandle} {batch : Batch}
    (h : place.holds (.defineSequencePoints document batch) = true) :
    batch.isConsistent = true := by
  rcases place with _ | _ | ⟨_, _ | _⟩ | _
  · cases h
  · exact h
  · exact h
  · exact h
  · cases h

/-- A command that may stand at a place is taken, and leads to the elements of the next place. -/
theorem takes_of_next {place next : Place} {command : Command} {store : Store ω}
    (names : Option Names) (handle : Nat) (helements : store.openElements = elementsAt place)
    (hfinished : store.finished = false) (hnext : place.next? command.entry = some next) :
    store.Takes (.issue command) ∧
      (callMarkup names handle (.issue command)).foldl Markup.nest (elementsAt place) =
        elementsAt next := by
  cases command with
  | openMethod method =>
    obtain ⟨rfl, rfl⟩ := ite_some_eq_some_iff.1 hnext
    exact ⟨⟨hfinished, trivial⟩, rfl⟩
  | closeMethod =>
    rcases place with _ | _ | ⟨method, _ | _⟩ | _ <;> cases hnext
    exact ⟨⟨hfinished, congrArg List.head? helements⟩, rfl⟩
  | openScope start =>
    rcases place with _ | method | ⟨method, _ | ⟨inner, outer⟩⟩ | _ <;> cases hnext
    · exact ⟨⟨hfinished, trivial⟩, rfl⟩
    · exact ⟨⟨hfinished, trivial⟩, rfl⟩
  | closeScope stop =>
    rcases place with _ | method | ⟨method, _ | ⟨start, outer⟩⟩ | _ <;> try cases hnext
    obtain ⟨-, rfl⟩ := ite_some_eq_some_iff.1 hnext
    exact ⟨⟨hfinished, congrArg List.head? helements⟩, rfl⟩
  | defineSequencePoints document batch =>
    obtain ⟨hholds, rfl⟩ := ite_some_eq_some_iff.1 hnext
    refine ⟨⟨hfinished, isConsistent_of_holds hholds⟩, ?_⟩
    rw [callMarkup, List.foldl_cons, List.foldl_append, Markup.foldl_nest_single]
    rfl
  | close =>
    obtain ⟨rfl, rfl⟩ := ite_some_eq_some_iff.1 hnext
    exact ⟨⟨hfinished, helements⟩, rfl⟩
  | setUserEntryPoint _ | defineLocalVariable _ | defineConstant _ _ _
  | setSymbolAttribute _ _ _ =>
    obtain ⟨-, rfl⟩ := ite_some_eq_some_iff.1 hnext
    exact ⟨⟨hfinished, trivial⟩, rfl⟩

/-! ## The simulation -/

/-- A store that mirrors a recording: it has the elements of the place to which the log has come and
the next handle, and behind a head its text is that of the log. -/
structure Mirrors (content : ω → String) (names : Option Names) (head : String) (place : Place)
    (recording : Recording) (store : Store ω) : Prop where
  at_place : recording.At place
  handles : HandlesKnown recording.documents.toList recording.entries.toList
  ready : store.Ready
  openElements_eq : store.openElements = elementsAt place
  nest_eq : (logMarkup names recording.documents.toList recording.entries.toList).foldl
    Markup.nest ["symbols"] = elementsAt place
  nextHandle_eq : store.nextHandle = recording.documents.size
  finished_eq : store.finished = decide (place = ended)
  text_eq : store.text content =
    head ++ logText names recording.documents.toList recording.entries.toList

namespace Mirrors

variable {head : String} {place : Place} {recording after : Recording} {store : Store ω}

/-- A call that both have taken keeps them alike, if its entry is rendered as the call was. -/
theorem of_took (h : Mirrors content names head place recording store) {last : Store ω}
    {call : Call} {entry : Entry} {more : List Document} {next : Place}
    (htook : Store.Took content names call store last) (hat : after.At next)
    (hentries : after.entries.toList = recording.entries.toList ++ [entry])
    (hdocuments : after.documents.toList = recording.documents.toList ++ more)
    (hknown : HandlesKnown after.documents.toList [entry])
    (hmarkup : entryMarkup names after.documents.toList entry =
      callMarkup names store.nextHandle call)
    (hmore : (callAnswer store.nextHandle call).toList.length = more.length)
    (hnest : (callMarkup names store.nextHandle call).foldl Markup.nest (elementsAt place) =
      elementsAt next)
    (hended : next = ended ↔ call = .issue .close) :
    Mirrors content names head next after last := by
  have hlog : logMarkup names after.documents.toList after.entries.toList =
      logMarkup names recording.documents.toList recording.entries.toList ++
        callMarkup names store.nextHandle call := by
    rw [hentries, logMarkup, List.flatMap_append, List.flatMap_singleton, hmarkup, hdocuments]
    exact congrArg (· ++ _) (logMarkup_append_documents h.handles more)
  refine ⟨hat, ?_, htook.ready, ?_, ?_, ?_, ?_, ?_⟩
  · rw [hentries]
    intro path handle hmem
    rcases List.mem_append.1 hmem with hbefore | hentry
    · have hlt := h.handles path handle hbefore
      rw [hdocuments, List.length_append]
      omega
    · exact hknown path handle hentry
  · rw [htook.openElements_eq, h.openElements_eq, hnest]
  · rw [hlog, List.foldl_append, h.nest_eq, hnest]
  · rw [htook.nextHandle_eq, hmore, h.nextHandle_eq, ← Array.length_toList, ← Array.length_toList,
      hdocuments, List.length_append]
  · rw [htook.finished_eq]
    exact decide_eq_decide.2 hended.symm
  · -- the lines of the log go on at the depth of the open elements
    have hlines := Markup.lines_append
      (logMarkup names recording.documents.toList recording.entries.toList)
      (callMarkup names store.nextHandle call) ["symbols"]
    rw [h.nest_eq, ← h.openElements_eq] at hlines
    rw [htook.text_eq, h.text_eq, logText, logText, hlog, String.append_assoc]
    exact congrArg _ hlines.symm

/-- A command that the recording accepts is taken by a store that mirrors it. -/
theorem issue (hdevice : device.Reliable content)
    (h : Mirrors content names head place recording store) {command : Command}
    (hissue : (recordingSink.issue command).outcome recording = (.ok (), after)) :
    ∃ next last, ((storeSink device names).issue command).outcome store = (.ok (), last) ∧
      Mirrors content names head next after last := by
  obtain ⟨next, hnext, -, hafter⟩ := h.at_place.of_issue hissue
  obtain ⟨hentries, hdocuments⟩ := Recording.issue_log hissue
  have hended : next = ended ↔ command = .close := by
    -- both are finished by the end of the sink only
    obtain ⟨hopen, -, -, rfl⟩ := Recording.issue_eq_ok_iff.1 hissue
    have hadvance := Recording.finished_advance hopen command
    exact decide_eq_decide.1 (hafter.finished_eq.symm.trans hadvance)
  have hfinished : store.finished = false := by
    rw [h.finished_eq]
    exact decide_eq_false (Place.ne_ended_of_next? hnext)
  obtain ⟨htakes, hnest⟩ :=
    takes_of_next names store.nextHandle h.openElements_eq hfinished hnext
  obtain ⟨last, hlast, htook⟩ := Store.issue_of_takes hdevice h.ready htakes
  have hsame : after.documents.toList = recording.documents.toList ++ [] := by
    rw [hdocuments, List.append_nil]
  refine ⟨next, last, hlast, h.of_took htook hafter hentries hsame ?_
    (entryMarkup_entry names _ _ command) rfl hnest ?_⟩
  · intro path handle hmem
    cases command <;> cases List.mem_singleton.1 hmem
  · rw [Call.issue.injEq]
    exact hended

/-- A document that the recording accepts is taken by a store that mirrors it, and gets the same
handle. -/
theorem defineDocument (hdevice : device.Reliable content)
    (h : Mirrors content names head place recording store) {document : Document}
    {handle : DocumentHandle}
    (hdefine : (recordingSink.defineDocument document).outcome recording = (.ok handle, after)) :
    ∃ last, ((storeSink device names).defineDocument document).outcome store =
        (.ok handle, last) ∧ Mirrors content names head place after last := by
  obtain ⟨hnext, ⟨rfl, -⟩, hafter⟩ := h.at_place.of_defineDocument hdefine
  obtain ⟨-, hentries, hdocuments⟩ := Recording.defineDocument_log hdefine
  have hopen := Place.ne_ended_of_next? hnext
  have hfinished : store.finished = false := by
    rw [h.finished_eq]
    exact decide_eq_false hopen
  obtain ⟨last, hlast, htook⟩ :=
    Store.defineDocument_taken hdevice h.ready hfinished document
  rw [h.nextHandle_eq] at hlast
  refine ⟨last, hlast, h.of_took htook hafter hentries hdocuments ?_ ?_ rfl rfl ?_⟩
  · intro path handle hmem
    cases List.mem_singleton.1 hmem
    rw [hdocuments, List.length_append, Array.length_toList]
    exact Nat.lt_succ_self _
  · rw [entryMarkup, hdocuments, h.nextHandle_eq, ← Array.length_toList,
      List.getElem?_concat_length]
    rfl
  · simp [hopen]

/-- A call that the recording accepts is accepted by a store that mirrors it, with the same
answer. -/
theorem perform (hdevice : device.Reliable content)
    (h : Mirrors content names head place recording store) {call : Call}
    {answer : Option DocumentHandle}
    (hperform : (recordingSink.perform call).outcome recording = (.ok answer, after)) :
    ∃ next last, ((storeSink device names).perform call).outcome store = (.ok answer, last) ∧
      Mirrors content names head next after last := by
  cases call with
  | define document =>
    obtain ⟨handle, rfl, hdefine⟩ := Sink.perform_define_eq_ok_iff.1 hperform
    obtain ⟨last, hlast, hafter⟩ := h.defineDocument hdevice hdefine
    exact ⟨place, last, Sink.perform_define_eq_ok_iff.2 ⟨handle, rfl, hlast⟩, hafter⟩
  | issue command =>
    obtain ⟨rfl, hissue⟩ := Sink.perform_issue_eq_ok_iff.1 hperform
    obtain ⟨next, last, hlast, hafter⟩ := h.issue hdevice hissue
    exact ⟨next, last, Sink.perform_issue_eq_ok_iff.2 ⟨rfl, hlast⟩, hafter⟩

/-- Calls that the recording accepts are accepted one after the other, with the same answers. -/
theorem run (hdevice : device.Reliable content)
    (h : Mirrors content names head place recording store) {calls : List Call}
    (haccepts : ∀ answer ∈ (recordingSink.run calls recording).1, ∃ value, answer = .ok value) :
    ((storeSink device names).run calls store).1 = (recordingSink.run calls recording).1 ∧
      ∃ next, Mirrors content names head next (recordingSink.run calls recording).2
        ((storeSink device names).run calls store).2 := by
  induction calls generalizing place recording store with
  | nil => exact ⟨rfl, place, h⟩
  | cons call calls ih =>
    rw [Sink.run_cons, List.forall_mem_cons] at haccepts
    obtain ⟨⟨value, hvalue⟩, hrest⟩ := haccepts
    have hperform : (recordingSink.perform call).outcome recording =
        (.ok value, ((recordingSink.perform call).outcome recording).2) := Prod.ext hvalue rfl
    obtain ⟨next, last, hlast, hafter⟩ := h.perform hdevice hperform
    obtain ⟨hanswers, hmirrors⟩ := ih hafter hrest
    rw [Sink.run_cons, Sink.run_cons, hlast]
    exact ⟨congrArg₂ List.cons hvalue.symm hanswers, hmirrors⟩

/-- A dialogue that is held with a recording without a refusal goes the same way with a store that
mirrors it. -/
theorem hold {α : Type} (hdevice : device.Reliable content)
    (h : Mirrors content names head place recording store) (dialogue : Dialogue α)
    (hfault : ∀ error, ((dialogue.hold recordingSink).outcome recording).1 = .error error →
      error.OfTree) :
    ((dialogue.hold (storeSink device names)).outcome store).1 =
        ((dialogue.hold recordingSink).outcome recording).1 ∧
      ∃ next, Mirrors content names head next ((dialogue.hold recordingSink).outcome recording).2
        ((dialogue.hold (storeSink device names)).outcome store).2 := by
  induction dialogue generalizing place recording store with
  | done result =>
    rw [Dialogue.hold, Dialogue.hold, Attempt.outcome_lift, Attempt.outcome_lift]
    exact ⟨rfl, place, h⟩
  | define document rest ih =>
    rw [Dialogue.hold, Attempt.outcome_bind] at hfault ⊢
    rw [Dialogue.hold, Attempt.outcome_bind]
    rcases hdefine : (recordingSink.defineDocument document).outcome recording with
      ⟨error | handle, after⟩
    · -- a refusal is not a fault of the tree
      rw [hdefine] at hfault
      obtain ⟨⟨refusal, rfl⟩, -⟩ := Recording.attempt_error_log hdefine
      exact absurd (hfault _ rfl) not_false
    · obtain ⟨last, hlast, hafter⟩ := h.defineDocument hdevice hdefine
      rw [hdefine] at hfault
      rw [hlast]
      exact ih handle hafter hfault
  | issue command hopen rest ih =>
    rw [Dialogue.hold, Attempt.outcome_bind] at hfault ⊢
    rw [Dialogue.hold, Attempt.outcome_bind]
    rcases hissue : (recordingSink.issue command).outcome recording with ⟨error | _, after⟩
    · rw [hissue] at hfault
      obtain ⟨⟨refusal, rfl⟩, -⟩ := Recording.attempt_error_log hissue
      exact absurd (hfault _ rfl) not_false
    · obtain ⟨next, last, hlast, hafter⟩ := h.issue hdevice hissue
      rw [hissue] at hfault
      rw [hlast]
      exact ih hafter hfault

/-- An emission that ended alike is concluded alike. -/
theorem conclude (hdevice : device.Reliable content)
    (h : Mirrors content names head place recording store) (remapped : Nat)
    {result : Except SymbolError (Unit × Emission Unit)}
    (hok : ∀ value, result = .ok value → recording.At outside ∧ recording.failOn = none) :
    ((storeSink device names).conclude remapped (result, store)).1 =
      (recordingSink.conclude remapped (result, recording)).1 := by
  rcases result with error | ⟨_, ledger⟩
  · rfl
  · obtain ⟨hat, hfail⟩ := hok _ rfl
    obtain ⟨closed, hclose⟩ : ∃ closed,
        (recordingSink.issue .close).outcome recording = (.ok (), closed) :=
      hat.issue (by simp [hfail]) rfl trivial
    obtain ⟨_, last, hlast, -⟩ := h.issue hdevice hclose
    rw [Sink.conclude, Sink.conclude, hclose, hlast]

end Mirrors

/-- A new store mirrors a new recording. -/
theorem mirrors_start (hdevice : device.Reliable content) (names : Option Names) (state : ω) :
    (Store.start device state).1 = .ok () ∧
      Mirrors content names (content state ++ Store.head) outside (Recording.start none)
        (Store.start device state).2 := by
  obtain ⟨store, hstart, hready, htext, helements, hhandle, hfinished⟩ :=
    Store.start_of_reliable hdevice state
  rw [hstart]
  refine ⟨rfl, Recording.at_start none, ?_, hready, helements, rfl, hhandle, hfinished, ?_⟩
  · intro path handle hmem
    cases hmem
  · exact htext.trans (String.append_empty).symm

/-! ## Relocations -/

/-- If there is a handle for each document of a tree, a relocation into a new store ends as the one
into a new recording. -/
theorem relocate_eq (hdevice : device.Reliable content) (names labels : Option Names) (state : ω)
    (options : Options) (tree : SymbolTree) (map : PathMap)
    (hcount : tree.documents.length < UInt32.size) :
    ((Emitter.mk (storeSink device names) options labels).relocate tree map
        (Store.start device state).2).result =
      ((Emitter.recording options labels).relocate tree map (Recording.start none)).result := by
  obtain ⟨-, hstart⟩ := mirrors_start hdevice names state
  -- both emissions are one dialogue
  obtain ⟨dialogue, hdialogue⟩ := Emitter.Uniform.emit options labels (tree.remap map).tree
    (Emission.start ())
  have hrecording : Emission.split (((Emitter.recording options labels).emit
      (tree.remap map).tree).outcome (Emission.start (Recording.start none))) = _ :=
    hdialogue _ recordingSink _
  have hstore : Emission.split (((Emitter.mk (storeSink device names) options labels).emit
      (tree.remap map).tree).outcome (Emission.start (Store.start device state).2)) = _ :=
    hdialogue _ (storeSink device names) _
  have hfault : ∀ error, ((dialogue.hold recordingSink).outcome (Recording.start none)).1 =
      .error error → error.OfTree := by
    intro error herror
    rw [← hrecording] at herror
    rw [← tree.length_documents_remap map] at hcount
    exact Emitter.ofTree_of_emit hcount (map_eq_error_iff.1 herror)
  have hok : ∀ value, ((dialogue.hold recordingSink).outcome (Recording.start none)).1 =
      .ok value → ((dialogue.hold recordingSink).outcome (Recording.start none)).2.At outside ∧
        ((dialogue.hold recordingSink).outcome (Recording.start none)).2.failOn = none := by
    intro value hvalue
    rw [← hrecording] at hvalue ⊢
    obtain ⟨_, hemit, -⟩ := map_eq_ok_iff.1 hvalue
    exact at_outside_of_emit (Prod.ext hemit rfl)
  obtain ⟨hresult, next, hmirrors⟩ := hstart.hold hdevice dialogue hfault
  have hrecordingEnd := (Emitter.recording options labels).relocate_eq_conclude tree map
    (Recording.start none)
  have hstoreEnd := (Emitter.mk (storeSink device names) options labels).relocate_eq_conclude
    tree map (Store.start device state).2
  rw [hrecording] at hrecordingEnd
  rw [hstore] at hstoreEnd
  have hconclude := hmirrors.conclude hdevice (tree.remap map).changed hok
  rw [← hresult] at hconclude
  exact (congrArg Prod.fst hstoreEnd).trans
    (hconclude.trans (hresult ▸ (congrArg Prod.fst hrecordingEnd).symm))

/-- The XML store on a device that never fails simulates the recording. Calls all of which a new
recording accepts are accepted by a new store, with the same answers; and after each of them the
text of the store is its head and the log of the recording, rendered call by call. Relocating a
tree, with a handle for each of its documents, has the same result with both. -/
theorem store_simulates_recording (hdevice : device.Reliable content) (names : Option Names)
    (state : ω) :
    let sink := storeSink device names
    let store := (Store.start device state).2
    (∀ calls : List Call,
      (∀ answer ∈ (recordingSink.run calls (Recording.start none)).1,
        ∃ value, answer = .ok value) →
      (sink.run calls store).1 = (recordingSink.run calls (Recording.start none)).1 ∧
        ∀ front, front <+: calls →
          let recording := (recordingSink.run front (Recording.start none)).2
          (sink.run front store).2.text content = content state ++ Store.head ++
            logText names recording.documents.toList recording.entries.toList) ∧
      ∀ (options : Options) (labels : Option Names) (tree : SymbolTree) (map : PathMap),
        tree.documents.length < UInt32.size →
          ((Emitter.mk sink options labels).relocate tree map store).result =
            ((Emitter.recording options labels).relocate tree map (Recording.start none)).result := by
  intro sink store
  obtain ⟨-, hstart⟩ := mirrors_start hdevice names state
  refine ⟨fun calls haccepts => ⟨(hstart.run hdevice haccepts).1, ?_⟩, ?_⟩
  · rintro front ⟨back, rfl⟩
    rw [Sink.run_append, List.forall_mem_append] at haccepts
    obtain ⟨-, next, hmirrors⟩ := hstart.run hdevice haccepts.1
    exact hmirrors.text_eq
  · intro options labels tree map hcount
    exact relocate_eq hdevice names labels state options tree map hcount

/-- A method that is still open, with its name, a visible and a hidden point, a scope of a variable
and a constant, and an attribute; and a tree that is relocated. -/
theorem store_simulates_recording_textDevice :
    let names : Names := .ofList [(⟨0x06000001⟩, ⟨some "P", "M"⟩)]
    let sink := storeSink textDevice (some names)
    let store := (Store.start textDevice "").2
    let calls : List Call := [.define (.csharp "a.cs"), .issue (.openMethod ⟨0x06000001⟩),
      .issue (.defineSequencePoints ⟨0⟩ (.ofPoints [⟨0, 3, 1, 3, 9⟩, .hidden 4])),
      .issue (.openScope 0),
      .issue (.defineLocalVariable ⟨"x", 0, ⟨0x11000001⟩, .ilOffset, 0, 0, 8⟩),
      .issue (.defineConstant "c" (.i4 7) ⟨0⟩), .issue (.closeScope 8),
      .issue (.setSymbolAttribute ⟨0x06000001⟩ "MD2" [4, 1])]
    (sink.run calls store).1 = .ok (some ⟨0⟩) :: List.replicate 7 (.ok none) ∧
      (sink.run calls store).2.text id =
        "<?xml version=\"1.0\" encoding=\"utf-8\"?>\n<symbols>" ++
        "\n  <document id=\"0\" path=\"a.cs\" language=\"3f5162f8-07c6-11d3-9053-00c04fa302a1\"" ++
        " vendor=\"994b45c4-e6e9-11d2-903f-00c04fa302a1\"" ++
        " type=\"5a869d0b-6611-11d3-bd2a-0000f80849bd\"/>" ++
        "\n  <method token=\"0x06000001\" name=\"P::M\">" ++
        "\n    <sequencePoints document=\"0\">" ++
        "\n      <entry offset=\"0x0\" startLine=\"3\" startColumn=\"1\" endLine=\"3\"" ++
        " endColumn=\"9\"/>" ++
        "\n      <entry offset=\"0x4\" hidden=\"true\"/>" ++
        "\n    </sequencePoints>" ++
        "\n    <scope startOffset=\"0x0\">" ++
        "\n      <local name=\"x\" slot=\"0\" signature=\"0x11000001\" addressKind=\"IlOffset\"" ++
        " startOffset=\"0x0\" endOffset=\"0x8\" attributes=\"0\"/>" ++
        "\n      <constant name=\"c\" type=\"I4\" value=\"7\" signature=\"0x00000000\"/>" ++
        "\n      <end offset=\"0x8\"/>" ++
        "\n    </scope>" ++
        "\n    <attribute parent=\"0x06000001\" name=\"MD2\" data=\"0401\"/>" ∧
      ((Emitter.mk sink .strict none).relocate sharedDocuments .empty store).result =
        .ok ⟨2, 0, 2, 4, 3, 2⟩ := by
  intro names sink store calls
  have hanswers : (recordingSink.run calls (Recording.start none)).1 =
      .ok (some ⟨0⟩) :: List.replicate 7 (.ok none) := by decide
  have haccepts : ∀ answer ∈ (recordingSink.run calls (Recording.start none)).1,
      ∃ value, answer = .ok value := by
    rw [hanswers]
    simp
  have hcount : sharedDocuments.documents.length < UInt32.size := by decide
  have hrelocated : ((Emitter.recording .strict none).relocate sharedDocuments .empty
      (Recording.start none)).result = .ok ⟨2, 0, 2, 4, 3, 2⟩ := by cbv
  obtain ⟨hcalls, hrelocate⟩ := store_simulates_recording reliable_textDevice (some names) ""
  obtain ⟨hsame, htext⟩ := hcalls calls haccepts
  refine ⟨hsame.trans hanswers, (htext calls List.prefix_rfl).trans ?_,
    (hrelocate .strict none sharedDocuments .empty hcount).trans hrelocated⟩
  decide +kernel

end DebugSymbols.Xml
