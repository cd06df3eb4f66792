import DebugSymbols.CommandLine.Arguments
import DebugSymbols.CommandLine.Failure
import DebugSymbols.CommandLine.Usage
import DebugSymbols.Emit.Relocate
import DebugSymbols.Xml.Store

/-!
# Running the program

A command reads the tree, then the map, and then either lists documents or writes the symbols as
XML. XML goes to standard output, or to a file. The file is created once tree and map have been
read; if anything fails from then on it is removed, so that a file which is there is complete.
-/

namespace DebugSymbols.CommandLine

/-- What a run of the program did. -/
structure Report where
  result : Except Failure Unit
  output : String
  system : FileSystem
  notices : List Notice

namespace Report

/-- The report of a run that failed before it did anything. -/
def failed (system : FileSystem) (failure : Failure) : Report := ⟨.error failure, "", system, []⟩

end Report

/-- Reads a tree file. -/
def readTree (system : FileSystem) (path : String) : Except Failure TreeFile.NamedTree :=
  match system.readText path with
  | .error error => .error (.readTree path error)
  | .ok text =>
    match TreeFile.parse text with
    | .error fault => .error (.parseTree path fault)
    | .ok tree => .ok tree

/-- Reads a map file. -/
def readMap (system : FileSystem) (path : String) : Except Failure PathMap :=
  match system.readText path with
  | .error error => .error (.readMap path error)
  | .ok text =>
    match MapFile.parse text with
    | .error fault => .error (.parseMap path fault)
    | .ok map => .ok map

/-- A summary as JSON. -/
def summaryJson (path : String) (summary : Summary) : Json.Value :=
  .object
    [("output", .string path),
      ("functions", jsonNumber summary.methods),
      ("documents_remapped", jsonNumber summary.documentsRemapped),
      ("documents_registered", jsonNumber summary.documentsRegistered),
      ("sequence_points", jsonNumber summary.sequencePoints),
      ("scopes", jsonNumber summary.scopes),
      ("attributes", jsonNumber summary.attributes)]

/-- A summary as a table without headers. -/
def summaryTable (summary : Summary) : Table where
  columns := [⟨"", .left⟩, ⟨"", .right⟩]
  rows :=
    [["Functions", toString summary.methods],
      ["Documents remapped", toString summary.documentsRemapped],
      ["Documents registered", toString summary.documentsRegistered],
      ["Sequence points", toString summary.sequencePoints],
      ["Scopes", toString summary.scopes],
      ["Attributes", toString summary.attributes]]

/-- What is shown of a summary. -/
def summaryText (options : GlobalOptions) (path : String) (summary : Summary) : String :=
  if options.json then (summaryJson path summary).indented 0 ++ "\n"
  else s!"Wrote {path}\n" ++ (summaryTable summary).text

/-- What became of symbols that were written as XML: the result, the state that the device ended in,
and the notices. -/
structure Written (ω : Type) where
  result : Except Failure Summary
  device : ω
  notices : List Notice

/-- Writes the symbols of a tree as XML to a device. If that fails once the store is there, then the
failure is told in a context. -/
def writeXml {ω : Type} (device : Xml.Device ω) (state : ω) (context : SymbolError → Failure)
    (options : Options) (source : TreeFile.NamedTree) (map : PathMap) : Written ω :=
  match Xml.Store.start device state with
  | (.error error, store) => ⟨.error (.library error), store.writer.device, []⟩
  | (.ok (), store) =>
    let emitter : Emitter (Xml.Store ω) :=
      ⟨Xml.storeSink device (some source.names), options, some source.names⟩
    let outcome := emitter.relocate source.tree map store
    ⟨outcome.result.mapError context, outcome.sink.writer.device, outcome.notices⟩

/-- Writes the symbols of a tree to standard output. -/
def relocateToOutput (system : FileSystem) (options : Options) (source : TreeFile.NamedTree)
    (map : PathMap) : Report :=
  let written := writeXml Xml.outputDevice "" .library options source map
  ⟨written.result.map fun _ => (), written.device, system, written.notices⟩

/-- Writes the symbols of a tree to a file, which is removed if that fails. -/
def relocateToFile (system : FileSystem) (settings : GlobalOptions) (options : Options)
    (source : TreeFile.NamedTree) (map : PathMap) (path : String) : Report :=
  match system.place path with
  | .error error => .failed system (.createOutput path error)
  | .ok location =>
    let written := writeXml Xml.fileDevice (.created system.faults) (.removedOutput path) options
      source map
    let stored := system.write location written.device.close
    match written.result with
    | .ok summary => ⟨.ok (), summaryText settings path summary, stored, written.notices⟩
    | .error failure => ⟨.error failure, "", stored.remove location, written.notices⟩

/-- The options of emission that the flags ask for. -/
def emitOptions (trusted entryPoint : Bool) : Options :=
  { (if trusted then Options.trusted else .strict) with emitEntryPoint := entryPoint }

/-- Reads tree and map and writes the symbols. -/
def runRelocate (system : FileSystem) (settings : GlobalOptions) (options : Options)
    (file map : String) (output : Option String) : Report :=
  match readTree system file with
  | .error failure => .failed system failure
  | .ok source =>
    match readMap system map with
    | .error failure => .failed system failure
    | .ok map =>
      match output with
      | none => relocateToOutput system options source map
      | some path => relocateToFile system settings options source map path

/-- Lists the documents of a tree. -/
def listDocuments (system : FileSystem) (settings : GlobalOptions) (tree : SymbolTree)
    (notices : List Notice) : Report :=
  let entries := tree.usage
  let text := if settings.json then (usageJson entries).indented 0 ++ "\n" else usageText entries
  ⟨.ok (), text, system, notices⟩

/-- Reads a tree, and a map if there is one, and lists the documents. -/
def runDocuments (system : FileSystem) (settings : GlobalOptions) (file : String)
    (map : Option String) : Report :=
  match readTree system file, map with
  | .error failure, _ => .failed system failure
  | .ok source, none => listDocuments system settings source.tree []
  | .ok source, some map =>
    match readMap system map with
    | .error failure => .failed system failure
    | .ok map =>
      let remapped := source.tree.remap map
      listDocuments system settings remapped.tree
        (remapped.notices ++ [.remapped remapped.changed remapped.tree.documents.length])

/-- Runs a command. -/
def run (system : FileSystem) (invocation : Invocation) : Report :=
  match invocation.command with
  | .relocate file map output trusted entryPoint =>
    runRelocate system invocation.options (emitOptions trusted entryPoint) file map output
  | .documents file map => runDocuments system invocation.options file map

/-- The notices that are shown: none beside JSON output, and the details only if asked for. -/
def shownNotices (options : GlobalOptions) (notices : List Notice) : List Notice :=
  if options.json then []
  else Notice.upTo (if options.verbose then .debug else .info) notices

end DebugSymbols.CommandLine
