import DebugSymbols.Dictionary
import DebugSymbols.Notice
import DebugSymbols.SymbolTree

/-!
# Path maps

A path map replaces whole paths. `remap` applies it to the documents that line groups refer to, each
of them once and in ascending order of their positions. A map is chained if the target of an entry
is a source as well; applying it twice may then differ from applying it once.
-/

namespace DebugSymbols

/-- A map from old paths to new ones. -/
structure PathMap where
  entries : Dictionary String String

namespace PathMap

/-- The map that leaves every path alone. -/
def empty : PathMap := ⟨.empty⟩

instance : Inhabited PathMap := ⟨empty⟩

/-- The map of a list of entries, of which a later one wins over an earlier one. -/
def ofList (entries : List (String × String)) : PathMap := ⟨.ofList entries⟩

/-- Gives a path a target. -/
def insert (map : PathMap) (path target : String) : PathMap := ⟨map.entries.insert path target⟩

/-- The target of a path. -/
def get? (map : PathMap) (path : String) : Option String := map.entries.get? path

/-- The target of a path, or the path itself. -/
def resolve (map : PathMap) (path : String) : String := (map.get? path).getD path

/-- The number of entries. -/
def size (map : PathMap) : Nat := map.entries.size

/-- Whether the map has no entries. -/
def isEmpty (map : PathMap) : Bool := map.entries.entries.isEmpty

/-- Whether the target of an entry that changes its path is a source of the map. -/
def isChained (map : PathMap) : Bool :=
  map.entries.entries.any fun (path, target) => path != target && map.entries.contains target

/-- Whether two maps have the same entries. -/
def equals (a b : PathMap) : Bool := a.entries.sameEntries b.entries

end PathMap

/-- A tree in the course of remapping. -/
structure Remapped where
  tree : SymbolTree
  /-- The number of documents with a changed path. -/
  changed : Nat
  notices : List Notice

namespace SymbolTree

/-- Replaces the path of one document; nothing changes if the position holds no document or the map
leaves its path alone. -/
def remapOne (map : PathMap) (progress : Remapped) (id : DocumentId) : Remapped :=
  match progress.tree.document? id with
  | none => progress
  | some document =>
    match map.get? document.path with
    | none => progress
    | some target =>
      if target = document.path then progress
      else
        { tree := progress.tree.setPath id target
          changed := progress.changed + 1
          notices := progress.notices ++ [.remapping id document.path target] }

/-- Replaces the paths of all documents that line groups refer to. A chained map gives a warning
first; an empty one does nothing. -/
def remap (tree : SymbolTree) (map : PathMap) : Remapped :=
  if map.isEmpty then ⟨tree, 0, []⟩
  else
    let warnings := if map.isChained then [.chainedMap] else []
    tree.references.foldl (remapOne map) ⟨tree, 0, warnings⟩

end SymbolTree

end DebugSymbols
