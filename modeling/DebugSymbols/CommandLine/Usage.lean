import DebugSymbols.CommandLine.Table
import DebugSymbols.Dictionary
import DebugSymbols.Json.Value
import DebugSymbols.SymbolTree

/-!
# Document usage

For every document of a tree: how many methods have line groups in it, and how many sequence points
these groups hold. Both are counted in one pass over the line groups, which may refer to positions
without a document; the documents are looked up in the end. The list is shown as a table or as JSON.
-/

namespace DebugSymbols

/-- How much a document is used. -/
structure DocumentUsage where
  id : DocumentId
  document : Document
  /-- The number of methods with at least one line group in the document. -/
  methods : Nat
  sequencePoints : Nat
deriving DecidableEq, Repr

/-- What was counted at a position. -/
structure Tally where
  methods : Nat
  sequencePoints : Nat
deriving DecidableEq, Repr, Inhabited

namespace Tally

/-- Nothing yet. -/
def zero : Tally := ⟨0, 0⟩

/-- What was counted at a position so far. -/
def find (tallies : Dictionary DocumentId Tally) (id : DocumentId) : Tally :=
  (tallies.get? id).getD zero

/-- Counts the points of a line group, and its method if that is still to be counted there. -/
def add (tally : Tally) (group : LineGroup) (isCounted : Bool) : Tally where
  methods := if isCounted then tally.methods else tally.methods + 1
  sequencePoints := tally.sequencePoints + group.points.length

/-- Counts the line groups of a method, which was counted at the positions `seen` already. -/
def countGroups (tallies : Dictionary DocumentId Tally) (seen : List DocumentId) :
    List LineGroup → Dictionary DocumentId Tally
  | [] => tallies
  | group :: rest =>
    let isCounted := seen.contains group.document
    let tally := (find tallies group.document).add group isCounted
    countGroups (tallies.insert group.document tally)
      (if isCounted then seen else seen ++ [group.document]) rest

/-- Counts the line groups of a method. -/
def countMethod (tallies : Dictionary DocumentId Tally) (method : Method) :
    Dictionary DocumentId Tally := countGroups tallies [] method.lines

end Tally

namespace SymbolTree

/-- What was counted at every position that line groups refer to. -/
def tallies (tree : SymbolTree) : Dictionary DocumentId Tally :=
  tree.methods.foldl Tally.countMethod .empty

/-- The usage of every document, in the order of their positions. -/
def usage (tree : SymbolTree) : List DocumentUsage :=
  let tallies := tree.tallies
  tree.documents.mapIdx fun index document =>
    let tally := Tally.find tallies ⟨index⟩
    ⟨⟨index⟩, document, tally.methods, tally.sequencePoints⟩

end SymbolTree

namespace CommandLine

/-- A number as a JSON value. -/
def jsonNumber (n : Nat) : Json.Value := .number (.integer n)

/-- Document usage as JSON. -/
def usageJson (entries : List DocumentUsage) : Json.Value :=
  .array <| entries.map fun entry => .object
    [("id", jsonNumber entry.id.index),
      ("path", .string entry.document.path),
      ("language", .string entry.document.language.text),
      ("functions", jsonNumber entry.methods),
      ("sequence_points", jsonNumber entry.sequencePoints)]

/-- Document usage as a table. -/
def usageTable (entries : List DocumentUsage) : Table where
  columns := [⟨"ID", .right⟩, ⟨"FUNCTIONS", .right⟩, ⟨"POINTS", .right⟩, ⟨"PATH", .left⟩]
  rows := entries.map fun entry =>
    [toString entry.id.index, toString entry.methods, toString entry.sequencePoints,
      entry.document.path]

/-- Document usage for people. -/
def usageText (entries : List DocumentUsage) : String :=
  if entries.isEmpty then "No documents.\n" else (usageTable entries).text

end CommandLine

end DebugSymbols
