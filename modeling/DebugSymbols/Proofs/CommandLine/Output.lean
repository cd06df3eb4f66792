import DebugSymbols.CommandLine.Run
import DebugSymbols.Proofs.CommandLine.FileSystem
import DebugSymbols.Proofs.CommandLine.Input
import DebugSymbols.Proofs.Emit.Release
import DebugSymbols.Proofs.Xml.OpenFile

/-!
# The output file is complete or absent

Relocating the symbols of a tree to a file either succeeds, and then the file holds everything that
would have gone to standard output, or it fails. If it fails before the file is created, then
nothing has changed; if it fails later, for whatever reason, then there is no file at the path.
-/

namespace DebugSymbols

open Xml (Coupled Store storeSink)
open Xml.Store (InStep Apart Parallel)

variable {ω ω' : Type}

/-! ## Relocations with stores over coupled devices -/

/-- What every request keeps is kept by concluding an emission. -/
theorem Sink.conclude_keeps {σ : Type} {sink : Sink σ} (holds : σ → Prop)
    (hserve : ∀ request state, holds state → holds (sink.serve state request)) (remapped : Nat)
    (result : Except SymbolError (Unit × Emission Unit)) {reached : σ} (h : holds reached) :
    holds (sink.conclude remapped (result, reached)).2 := by
  rcases result with error | ⟨_, ledger⟩
  · exact hserve .abort reached h
  · have hclosed : holds ((sink.issue .close).outcome reached).2 := by
      have hcall := hserve (.call (.issue .close)) reached h
      rw [Sink.serve, Sink.outcome_perform_issue] at hcall
      exact hcall
    rw [conclude]
    generalize (sink.issue .close).outcome reached = outcome at hclosed ⊢
    rcases outcome with ⟨error | _, failed⟩
    · exact hserve .abort failed hclosed
    · exact hclosed

section Coupling

variable {device : Xml.Device ω} {other : Xml.Device ω'} {Together Broken : ω → ω' → Prop}
  (h : device.Coupling other Together Broken) (names : Option Names)
  {store : Store ω} {store' : Store ω'}

include h

theorem abort_coupled {α : Type} (error : SymbolError) (hstep : InStep Together store store') :
    Coupled (InStep Together) (Apart Broken)
      ((.error error : Except SymbolError α), ((storeSink device names).abort store).2)
      (.error error, ((storeSink other names).abort store').2) := by
  rcases Xml.Store.giveUp_coupled h hstep with ⟨-, hnext⟩ | hnext
  · exact .together (.error error) hnext
  · exact .broken error (.error error) hnext

/-- Emissions that ended in step are concluded in step. -/
theorem conclude_coupled (remapped : Nat)
    {outcome : Except SymbolError (Unit × Emission Unit) × Store ω}
    {outcome' : Except SymbolError (Unit × Emission Unit) × Store ω'}
    (hcoupled : Coupled (InStep Together) (Apart Broken) outcome outcome') :
    Coupled (InStep Together) (Apart Broken) ((storeSink device names).conclude remapped outcome)
      ((storeSink other names).conclude remapped outcome') := by
  cases hcoupled with
  | broken error result happart =>
    have hleft := Xml.Store.apart_serve h names .abort happart
    exact .broken error _ (Sink.conclude_keeps (Apart Broken _)
      (fun request _ => Xml.Store.apart_serve_other h names request) remapped result hleft)
  | @together reached reached' result hstep =>
    rcases result with error | ⟨_, ledger⟩
    · exact abort_coupled h names error hstep
    · have hclose := ((Parallel.comparison h).issue names .close).coupled hstep
      rw [Sink.conclude, Sink.conclude]
      dsimp only [storeSink] at hclose ⊢
      generalize (Xml.Store.issue device names .close).outcome reached = outcome at hclose ⊢
      generalize (Xml.Store.issue other names .close).outcome reached' = outcome' at hclose ⊢
      cases hclose with
      | together result hstep' =>
        rcases result with error | _
        · exact abort_coupled h names error hstep'
        · exact .together (.ok _) hstep'
      | broken error result happart =>
        have hleft := Xml.Store.apart_serve h names .abort happart
        rcases result with error' | _
        · exact .broken error (.error error')
            (Xml.Store.apart_serve_other h names .abort hleft)
        · exact .broken error (.ok _) hleft

/-- Relocations with stores in step end in step, or the first one fails. -/
theorem relocate_coupled (options : Options) (resolver : Option Names) (tree : SymbolTree)
    (map : PathMap) (hstep : InStep Together store store') :
    let outcome := (Emitter.mk (storeSink device names) options resolver).relocate tree map store
    let outcome' := (Emitter.mk (storeSink other names) options resolver).relocate tree map store'
    Coupled (InStep Together) (Apart Broken) (outcome.result, outcome.sink)
      (outcome'.result, outcome'.sink) := by
  intro outcome outcome'
  -- both emissions are one dialogue
  obtain ⟨dialogue, hdialogue⟩ := Emitter.Uniform.emit options resolver (tree.remap map).tree
    (Emission.start ())
  have hemit : Emission.split (((Emitter.mk (storeSink device names) options resolver).emit
      (tree.remap map).tree).outcome (Emission.start store)) = _ := hdialogue _ _ store
  have hemit' : Emission.split (((Emitter.mk (storeSink other names) options resolver).emit
      (tree.remap map).tree).outcome (Emission.start store')) = _ := hdialogue _ _ store'
  rw [Emitter.relocate_eq_conclude, Emitter.relocate_eq_conclude, hemit, hemit']
  exact conclude_coupled h names _ (((Parallel.comparison h).hold names dialogue).coupled hstep)

end Coupling

/-- A relocation that succeeds ends with closing the sink. -/
theorem Emitter.exists_close_of_relocate {σ : Type} {emitter : Emitter σ} {tree : SymbolTree}
    {map : PathMap} {state : σ} {summary : Summary}
    (h : (emitter.relocate tree map state).result = .ok summary) :
    ∃ before, (emitter.sink.issue .close).outcome before =
      (.ok (), (emitter.relocate tree map state).sink) := by
  have hconclude := relocate_eq_conclude emitter tree map state
  rw [h] at hconclude
  generalize Emission.split ((emitter.emit (tree.remap map).tree).outcome (Emission.start state)) =
    outcome at hconclude
  obtain ⟨error | ⟨_, ledger⟩, reached⟩ := outcome
  · cases congrArg Prod.fst hconclude
  · rw [Sink.conclude] at hconclude
    refine ⟨reached, ?_⟩
    generalize (emitter.sink.issue .close).outcome reached = closing at hconclude ⊢
    obtain ⟨error | _, closed⟩ := closing
    · cases congrArg Prod.fst hconclude
    · have hsink : (emitter.relocate tree map state).sink = closed := congrArg Prod.snd hconclude
      rw [hsink]

namespace CommandLine

/-! ## Symbols written as XML -/

section Written

variable {device : Xml.Device ω} {other : Xml.Device ω'} {Together Broken : ω → ω' → Prop}
  (h : device.Coupling other Together Broken) (context context' : SymbolError → Failure)
  (options : Options) (source : TreeFile.NamedTree) (map : PathMap) {state : ω} {state' : ω'}

include h

/-- What succeeds with the first of two coupled devices succeeds with the other one. -/
theorem writeXml_eq_ok (hstate : Together state state') {summary : Summary}
    (hok : (writeXml device state context options source map).result = .ok summary) :
    (writeXml other state' context' options source map).result = .ok summary ∧
      Together (writeXml device state context options source map).device
        (writeXml other state' context' options source map).device := by
  have hstart := Xml.Store.start_coupled h hstate
  rw [writeXml] at hok ⊢
  rw [writeXml]
  generalize Store.start device state = start at hstart hok ⊢
  generalize Store.start other state' = start' at hstart ⊢
  cases hstart with
  | broken error result happart => cases hok
  | @together store store' result hstep =>
    rcases result with error | _
    · cases hok
    · have hrelocate := relocate_coupled h (some source.names) options (some source.names)
        source.tree map hstep
      dsimp only at hok hrelocate ⊢
      generalize Emitter.relocate _ source.tree map store = outcome at hok hrelocate ⊢
      generalize Emitter.relocate _ source.tree map store' = outcome' at hrelocate ⊢
      obtain ⟨result, reached, notices⟩ := outcome
      obtain ⟨result', reached', notices'⟩ := outcome'
      cases hrelocate with
      | broken error _ happart => cases hok
      | together _ hreached =>
        rcases result with error | _
        · cases hok
        · cases hok
          exact ⟨rfl, hreached.writers.devices⟩

/-- If the first device never fails alone, then it succeeds where the other one does. -/
theorem writeXml_eq_ok_of_other (hnever : ∀ state state', ¬ Broken state state')
    (hstate : Together state state') {summary : Summary}
    (hok : (writeXml other state' context' options source map).result = .ok summary) :
    (writeXml device state context options source map).result = .ok summary := by
  have hstart := Xml.Store.start_coupled h hstate
  rw [writeXml] at hok ⊢
  generalize Store.start device state = start at hstart ⊢
  generalize Store.start other state' = start' at hstart hok
  cases hstart with
  | broken error result happart => exact absurd happart (hnever _ _)
  | @together store store' result hstep =>
    rcases result with error | _
    · cases hok
    · have hrelocate := relocate_coupled h (some source.names) options (some source.names)
        source.tree map hstep
      dsimp only at hok hrelocate ⊢
      generalize Emitter.relocate _ source.tree map store = outcome at hrelocate ⊢
      generalize Emitter.relocate _ source.tree map store' = outcome' at hok hrelocate
      obtain ⟨result, reached, notices⟩ := outcome
      obtain ⟨result', reached', notices'⟩ := outcome'
      cases hrelocate with
      | broken error _ happart => exact absurd happart (hnever _ _)
      | together _ hreached =>
        rcases result with error | _
        · cases hok
        · cases hok
          rfl

end Written

/-- A buffered file to which symbols were written successfully has been flushed. -/
theorem buffer_eq_empty_of_writeXml {file : Xml.OpenFile} {context : SymbolError → Failure}
    {options : Options} {source : TreeFile.NamedTree} {map : PathMap} {summary : Summary}
    (hok : (writeXml Xml.fileDevice file context options source map).result = .ok summary) :
    (writeXml Xml.fileDevice file context options source map).device.buffer = ByteArray.empty := by
  rw [writeXml] at hok ⊢
  generalize Store.start Xml.fileDevice file = start at hok ⊢
  obtain ⟨error | _, store⟩ := start
  · cases hok
  · dsimp only at hok ⊢
    generalize hrelocate : Emitter.relocate _ source.tree map store = outcome at hok ⊢
    obtain ⟨error | _, reached, notices⟩ := outcome
    · cases hok
    · obtain ⟨before, hclose⟩ :=
        Emitter.exists_close_of_relocate (congrArg Outcome.result hrelocate)
      rw [hrelocate] at hclose
      obtain ⟨flushed, hflush⟩ := Xml.Store.exists_flush_of_close hclose
      have hempty : flushed.drain.1 = .ok () → flushed.drain.2.buffer = ByteArray.empty :=
        (Xml.OpenFile.takes_drain rfl).2
      have hdrain : flushed.drain = (.ok (), reached.writer.device) := hflush
      rw [hdrain] at hempty
      exact hempty rfl

/-- What goes to standard output is what a relocation leaves in a store over a text. -/
theorem writeXml_outputDevice (options : Options) (source : TreeFile.NamedTree) (map : PathMap) :
    let written := writeXml Xml.outputDevice "" .library options source map
    let outcome := (Emitter.mk (storeSink Xml.outputDevice (some source.names)) options
      (some source.names)).relocate source.tree map (Store.start Xml.outputDevice "").2
    (∀ summary, written.result = .ok summary ↔ outcome.result = .ok summary) ∧
      written.device = outcome.sink.writer.device := by
  intro written outcome
  have hstart : Store.start Xml.outputDevice "" =
      (.ok (), (Store.start Xml.outputDevice "").2) := rfl
  have hwritten : written =
      ⟨outcome.result.mapError .library, outcome.sink.writer.device, outcome.notices⟩ := by
    show writeXml Xml.outputDevice "" .library options source map = _
    rw [writeXml, hstart]
  rw [hwritten]
  refine ⟨fun summary => ?_, rfl⟩
  cases outcome.result with
  | error error => exact ⟨nofun, nofun⟩
  | ok value => exact ⟨fun h => by cases h; rfl, fun h => by cases h; rfl⟩

/-! ## The output file -/

/-- A file with the symbols of a tree is there with the whole text, or it is not there. Where no
write fails, it is there if the text can be written at all. -/
theorem relocateToFile_complete_or_absent {system : FileSystem} {path : String}
    {location : Location} (hplace : system.place path = .ok location) (settings : GlobalOptions)
    (options : Options) (source : TreeFile.NamedTree) (map : PathMap) :
    let report := relocateToFile system settings options source map path
    let complete := writeXml Xml.outputDevice "" .library options source map
    (∀ failure, report.result = .error failure → report.system.read path = .error .notFound) ∧
      (report.result = .ok () → ∃ summary, complete.result = .ok summary ∧
        report.system.read path = .ok complete.device.toUTF8) ∧
      ((∀ write, system.faults write = none) → ∀ summary, complete.result = .ok summary →
        report.result = .ok ()) ∧
      ∀ other ≠ location, report.system.find other = system.find other := by
  have hcoupling := Xml.OpenFile.coupling system.faults
  have hcreated : Xml.OpenFile.Holds system.faults (.created system.faults) "" := ⟨rfl, rfl⟩
  rw [relocateToFile, hplace]
  dsimp only
  cases hresult : (writeXml Xml.fileDevice (.created system.faults) (.removedOutput path) options
    source map).result with
  | error failure =>
    obtain ⟨habsent, hothers⟩ := FileSystem.read_remove_write hplace
      (writeXml Xml.fileDevice (.created system.faults) (.removedOutput path) options source
        map).device.close
    refine ⟨fun _ _ => habsent, (nomatch ·), fun hnever summary hcomplete => ?_, hothers⟩
    have hok := writeXml_eq_ok_of_other hcoupling (.removedOutput path) _ options source map
      (fun _ _ ⟨write, hfault⟩ => hfault (hnever write)) hcreated hcomplete
    rw [hresult] at hok
    cases hok
  | ok summary =>
    obtain ⟨hcomplete, -, hbytes⟩ := writeXml_eq_ok hcoupling (.removedOutput path) .library options
      source map hcreated hresult
    have hempty := buffer_eq_empty_of_writeXml hresult
    rw [hempty, ByteArray.append_empty] at hbytes
    obtain ⟨hread, hothers⟩ := FileSystem.read_write hplace
      (writeXml Xml.fileDevice (.created system.faults) (.removedOutput path) options source
        map).device.close
    refine ⟨(fun _ h => nomatch h), fun _ => ⟨summary, hcomplete, ?_⟩, fun _ _ _ => rfl, hothers⟩
    rw [hread, Xml.OpenFile.close_of_buffer_eq_empty hempty, hbytes]

/-- A run fails before it does anything, or tree and map are read and the output has a place. -/
theorem runRelocate_cases (system : FileSystem) (settings : GlobalOptions) (options : Options)
    (file mapFile path : String) :
    let report := runRelocate system settings options file mapFile (some path)
    (∃ failure, report = .failed system failure ∧ ∀ source map location,
        ¬ (readTree system file = .ok source ∧ readMap system mapFile = .ok map ∧
          system.place path = .ok location)) ∨
      ∃ source map location, readTree system file = .ok source ∧
        readMap system mapFile = .ok map ∧ system.place path = .ok location ∧
          report = relocateToFile system settings options source map path := by
  dsimp only
  rw [runRelocate]
  cases readTree system file with
  | error failure => exact Or.inl ⟨failure, rfl, fun _ _ _ h => nomatch h.1⟩
  | ok source =>
    cases readMap system mapFile with
    | error failure => exact Or.inl ⟨failure, rfl, fun _ _ _ h => nomatch h.2.1⟩
    | ok map =>
      cases hplace : system.place path with
      | error error =>
        refine Or.inl ⟨.createOutput path error, ?_, fun _ _ _ h => nomatch h.2.2⟩
        dsimp only
        rw [relocateToFile, hplace]
      | ok location => exact Or.inr ⟨source, map, location, rfl, rfl, rfl, rfl⟩

/-- Relocating the symbols of a tree to a file, whatever is in the file system and whichever writes
fail. After a failure either nothing has changed, or there is no file at the path. After a success
the file holds the whole text that a relocation of the tree leaves in a store that never fails, for
the tree, the names and the map that were read. If no write fails, then there is a success whenever
this relocation has one. In no case does anything change but at the place of the path. -/
theorem run_relocate_to_file (system : FileSystem) (settings : GlobalOptions)
    (file mapFile path : String) (trusted entryPoint : Bool) :
    let report := run system
      ⟨settings, .relocate file mapFile (some path) trusted entryPoint⟩
    let options : Options :=
      { (if trusted then Options.trusted else .strict) with emitEntryPoint := entryPoint }
    let complete (source : TreeFile.NamedTree) (map : PathMap) :=
      (Emitter.mk (storeSink Xml.outputDevice (some source.names)) options
        (some source.names)).relocate source.tree map (Store.start Xml.outputDevice "").2
    (∀ failure, report.result = .error failure →
        report.system = system ∨ report.system.read path = .error .notFound) ∧
      (report.result = .ok () → ∃ source map summary, readTree system file = .ok source ∧
        readMap system mapFile = .ok map ∧ (complete source map).result = .ok summary ∧
        report.system.read path = .ok (complete source map).sink.writer.device.toUTF8) ∧
      ((∀ write, system.faults write = none) → ∀ source map location summary,
        readTree system file = .ok source → readMap system mapFile = .ok map →
        system.place path = .ok location → (complete source map).result = .ok summary →
        report.result = .ok ()) ∧
      (∀ other, system.place path ≠ .ok other → report.system.find other = system.find other) := by
  intro report options complete
  rcases runRelocate_cases system settings (emitOptions trusted entryPoint) file mapFile path with
    ⟨failure, hreport, hnone⟩ | ⟨source, map, location, hsource, hmap, hplace, hreport⟩
  · have hfailed : report = .failed system failure := hreport
    rw [hfailed]
    refine ⟨fun _ _ => Or.inl rfl, (nomatch ·), ?_, fun _ _ => rfl⟩
    intro _ source map location _ hsource hmap hplace _
    exact absurd ⟨hsource, hmap, hplace⟩ (hnone source map location)
  · obtain ⟨habsent, hcomplete, hsucceeds, hothers⟩ := relocateToFile_complete_or_absent hplace
      settings options source map
    have hwritten : report = relocateToFile system settings options source map path := hreport
    obtain ⟨hsame, htext⟩ := writeXml_outputDevice options source map
    rw [hwritten, hsource, hmap, hplace]
    refine ⟨fun failure h => Or.inr (habsent failure h), fun h => ?_, ?_, ?_⟩
    · obtain ⟨summary, hok, hread⟩ := hcomplete h
      rw [htext] at hread
      exact ⟨source, map, summary, rfl, rfl, (hsame summary).1 hok, hread⟩
    · intro hnever _ _ _ summary hsource' hmap' _ hok
      cases hsource'
      cases hmap'
      exact hsucceeds hnever summary ((hsame summary).2 hok)
    · intro other hother
      refine hothers other fun h => hother ?_
      rw [h]

/-- A tree file with one method and its name. -/
def namedMethodValue : Json.Value :=
  let number (n : Nat) : Json.Value := .number (.integer n)
  let variable_ : Json.Value := .object [("name", .string "x"), ("slot", number 0)]
  let points : Json.Value := .array [.array ([0, 3, 1, 3, 9].map number)]
  .object
    [("documents", .array [.object [("path", .string "b.cs")]]),
      ("names", .object
        [("0x06000001", .object [("type", .string "P"), ("name", .string "M")])]),
      ("functions", .array [.object
        [("token", .string "0x06000001"),
          ("lines", .array [.object [("document", number 0), ("points", points)]]),
          ("scope", .object [("offset", number 0), ("length", number 4),
            ("variables", .array [variable_])]),
          ("iteratorClass", .string "I")]])]

/-- What this file is read as. -/
def namedMethod : TreeFile.NamedTree where
  tree :=
    { documents := [.csharp "b.cs"]
      methods :=
        [{ token := ⟨0x06000001⟩
           slotToken := ⟨0⟩
           lines := [⟨⟨0⟩, [⟨0, 3, 1, 3, 9⟩]⟩]
           scope := ⟨⟨0, 4⟩, [⟨"x", 0, 0⟩], [], []⟩
           constants := []
           iteratorClass := "I"
           iteratorScopes := [] }]
      entryPoint := none }
  names := .ofList [(⟨0x06000001⟩, ⟨some "P", "M"⟩)]

/-- The symbols of this tree, its document renamed. -/
def namedMethodText : String :=
  "<?xml version=\"1.0\" encoding=\"utf-8\"?>\n<symbols>\n" ++
  "  <document id=\"0\" path=\"c.cs\" language=\"3f5162f8-07c6-11d3-9053-00c04fa302a1\"" ++
  " vendor=\"994b45c4-e6e9-11d2-903f-00c04fa302a1\"" ++
  " type=\"5a869d0b-6611-11d3-bd2a-0000f80849bd\"/>\n" ++
  "  <method token=\"0x06000001\" name=\"P::M\">\n" ++
  "    <sequencePoints document=\"0\">\n" ++
  "      <entry offset=\"0x0\" startLine=\"3\" startColumn=\"1\" endLine=\"3\"" ++
  " endColumn=\"9\"/>\n" ++
  "    </sequencePoints>\n" ++
  "    <scope startOffset=\"0x0\">\n" ++
  "      <local name=\"x\" slot=\"0\" signature=\"0x00000000\" addressKind=\"IlOffset\"" ++
  " startOffset=\"0x0\" endOffset=\"0x4\" attributes=\"0\"/>\n" ++
  "      <end offset=\"0x4\"/>\n" ++
  "    </scope>\n" ++
  "    <attribute parent=\"0x06000001\" name=\"MD2\"" ++
  " data=\"04010000040400000C00000049000000\"/>\n" ++
  "  </method>\n</symbols>"

theorem decode_namedMethodValue :
    (namedMethodValue.node?.map fun node =>
      (TreeFile.treeKind.decoder TreeFile.maxLevels node).toOption.map
        TreeFile.TreeEntry.toTree) = some (some (.ok namedMethod)) := by
  cbv

/-- The file of this tree, and a map that renames its document. -/
def namedMethodFiles : FileSystem := treeAndMap namedMethodValue (mapValue [("b.cs", "c.cs")])

/-- The symbols of this tree are written to a file that was not there. -/
theorem run_relocate_to_file_namedMethod :
    let report := run namedMethodFiles ⟨⟨false, false⟩, .relocate "t" "m" (some "o") false true⟩
    namedMethodFiles.read "o" = .error .notFound ∧ report.result = .ok () ∧
      report.system.read "o" = .ok namedMethodText.toUTF8 := by
  intro report
  obtain ⟨hfile, hmap, habsent, hplace⟩ :=
    read_treeAndMap namedMethodValue (mapValue [("b.cs", "c.cs")])
  have hsource : readTree namedMethodFiles "t" = .ok namedMethod :=
    readTree_of_read hfile decode_namedMethodValue
  have hread : readMap namedMethodFiles "m" = .ok (.ofList [("b.cs", "c.cs")]) :=
    readMap_of_read hmap
  let outcome := (Emitter.mk (storeSink Xml.outputDevice (some namedMethod.names)) .strict
    (some namedMethod.names)).relocate namedMethod.tree (.ofList [("b.cs", "c.cs")])
      (Store.start Xml.outputDevice "").2
  have hresult : outcome.result = .ok ⟨1, 1, 1, 1, 1, 1⟩ := by decide +kernel
  have htext : outcome.sink.writer.device = namedMethodText := by decide +kernel
  obtain ⟨-, hcomplete, hsucceeds, -⟩ :=
    run_relocate_to_file namedMethodFiles ⟨false, false⟩ "t" "m" "o" false true
  have hok : report.result = .ok () :=
    hsucceeds (fun _ => rfl) _ _ _ _ hsource hread hplace hresult
  obtain ⟨source, map, summary, hsource', hread', -, hwritten⟩ := hcomplete hok
  rw [hsource] at hsource'
  rw [hread] at hread'
  cases hsource'
  cases hread'
  exact ⟨habsent, hok, hwritten.trans (congrArg (Except.ok ·.toUTF8) htext)⟩

end CommandLine

end DebugSymbols
