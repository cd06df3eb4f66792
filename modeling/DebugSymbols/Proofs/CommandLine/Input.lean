import Mathlib
import DebugSymbols.CommandLine.Run
import DebugSymbols.Proofs.Json.Writing

/-!
# Input files are read

A file that holds an indented JSON value is read as the node of this value. So a tree file gives
what a decoder makes of its node, and a file with an object of old paths and new ones gives the map
of these paths.
-/

namespace DebugSymbols.CommandLine

open Json (Node Value)

/-- The text of a file that holds a value. -/
def fileText (value : Value) : String := value.indented 0 ++ "\n"

/-- Text that was written is read. -/
theorem FileSystem.readText_of_read {system : FileSystem} {path text : String}
    (hread : system.read path = .ok text.toUTF8) : system.readText path = .ok text := by
  have htext : String.fromUTF8? text.toUTF8 = some text := dif_pos text.isValidUTF8
  rw [readText, hread]
  simp only [bind, Except.bind, htext]

/-- A written value is decoded as its node. -/
theorem decodeText_fileText {α : Type} (decoder : Json.Decoder α) {value : Value} {node : Node}
    (hnode : value.node? = some node) :
    TreeFile.decodeText decoder (fileText value) = decoder TreeFile.maxLevels node := by
  rw [TreeFile.decodeText, fileText, Value.ofText_indented hnode]
  exact bind_pure _

section Files

variable {system : FileSystem} {path : String}

/-- A tree file gives the tree and the names that its node stands for. -/
theorem readTree_of_read {value : Value} {source : TreeFile.NamedTree}
    (hread : system.read path = .ok (fileText value).toUTF8)
    (hsource : (value.node?.map fun node =>
      (TreeFile.treeKind.decoder TreeFile.maxLevels node).toOption.map
        TreeFile.TreeEntry.toTree) = some (some (.ok source))) :
    readTree system path = .ok source := by
  obtain ⟨node, hnode, hdecode⟩ := Option.map_eq_some_iff.1 hsource
  obtain ⟨entry, hentry, htree⟩ := Option.map_eq_some_iff.1 hdecode
  have hparse : TreeFile.parse (fileText value) = .ok source := by
    rw [TreeFile.parse, decodeText_fileText _ hnode]
    cases hresult : TreeFile.treeKind.decoder TreeFile.maxLevels node with
    | error fault =>
      rw [hresult] at hentry
      cases hentry
    | ok entry =>
      rw [hresult] at hentry
      cases hentry
      exact htree
  rw [readTree, FileSystem.readText_of_read hread]
  dsimp only
  rw [hparse]

/-- The value of a map file: every old path with the new one. -/
def mapValue (entries : List (String × String)) : Value :=
  .object (entries.map fun (old, new) => (old, .string new))

/-- The members that such a value is read as. -/
def mapMembers (entries : List (String × String)) : List Json.Member :=
  entries.map fun (old, new) => (.ok old, .string (.ok new))

theorem node?_mapValue (entries : List (String × String)) :
    (mapValue entries).node? = some (.object (mapMembers entries) none) := by
  have hmembers : Value.nodesOfMembers? (entries.map fun (old, new) => (old, .string new)) =
      some (mapMembers entries) := by
    induction entries with
    | nil => rfl
    | cons entry entries ih =>
      rw [List.map_cons, Value.nodesOfMembers?, ih]
      rfl
  rw [mapValue, Value.node?, hmembers]
  rfl

/-- A map file gives the map of its paths, of which a later one wins over an earlier one. -/
theorem readMap_of_read {entries : List (String × String)}
    (hread : system.read path = .ok (fileText (mapValue entries)).toUTF8) :
    readMap system path = .ok (.ofList entries) := by
  have hpairs : ∀ (levels : Nat) (entries : List (String × String)),
      List.Forall₂ (fun (member : Json.Member) (entry : String × String) => (do
        let key ← member.1
        let value ← Json.Decoder.string levels member.2
        return (key, value)) = .ok entry) (mapMembers entries) entries := by
    intro levels entries
    induction entries with
    | nil => exact .nil
    | cons entry entries ih => exact .cons rfl ih
  have hentries : Json.Decoder.entries Json.Decoder.string TreeFile.maxLevels
      (.object (mapMembers entries) none) = .ok entries := by
    show ((mapMembers entries).mapM _ >>= fun pairs => Json.Decoder.ending pairs none) = _
    rw [Json.mapM_eq_ok_iff.2 (hpairs _ entries)]
    rfl
  rw [readMap, FileSystem.readText_of_read hread]
  dsimp only
  rw [MapFile.parse, decodeText_fileText _ (node?_mapValue entries), hentries]
  rfl

end Files

/-! ## Two files -/

/-- A tree file at `t` and a map file at `m`. -/
def treeAndMap (tree map : Value) : FileSystem :=
  .ofFiles [("t", (fileText tree).toUTF8), ("m", (fileText map).toUTF8)]

/-- Both files are there, and there is a place for another one. -/
theorem read_treeAndMap (tree map : Value) :
    (treeAndMap tree map).read "t" = .ok (fileText tree).toUTF8 ∧
      (treeAndMap tree map).read "m" = .ok (fileText map).toUTF8 ∧
      (treeAndMap tree map).read "o" = .error .notFound ∧
      (treeAndMap tree map).place "o" = .ok ⟨.above 0, ["o"]⟩ := by
  rw [treeAndMap]
  generalize (fileText tree).toUTF8 = tree
  generalize (fileText map).toUTF8 = map
  refine ⟨?_, ?_, ?_, ?_⟩ <;> cbv

end DebugSymbols.CommandLine
