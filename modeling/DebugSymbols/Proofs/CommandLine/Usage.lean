import DebugSymbols.CommandLine.Run
import DebugSymbols.Proofs.CommandLine.Input
import DebugSymbols.Proofs.CommandLine.Listing
import DebugSymbols.Proofs.Emit.Points

/-!
# Document usage is counted right

The listing of documents counts in one pass over the line groups, whatever positions these refer to.
Here the counts are said without the pass: at each position, the number of methods with a line group
there and the number of points in all line groups there. What is counted where there is no document
is listed nowhere. A relocation of the tree counts its points in another way, gathered by path and
batch by batch; it succeeds only if all points are in documents, and comes to the same sum. What the
command prints are these counts, beside the new paths.
-/

namespace DebugSymbols

/-! ## What there is to count -/

/-- The number of points in the line groups for which a condition holds. -/
def LineGroup.pointsWhere (holds : LineGroup → Bool) (groups : List LineGroup) : Nat :=
  ((groups.filter holds).flatMap (·.points)).length

namespace SymbolTree

/-- The line groups of all methods. -/
def groups (tree : SymbolTree) : List LineGroup := tree.methods.flatMap (·.lines)

/-- The number of methods with a line group at a position. -/
def methodsUsing (tree : SymbolTree) (id : DocumentId) : Nat :=
  tree.methods.countP fun method => method.lines.any (·.document == id)

/-- The number of points in the line groups at a position. -/
def pointsIn (tree : SymbolTree) (id : DocumentId) : Nat :=
  LineGroup.pointsWhere (·.document == id) tree.groups

/-- Whether a line group refers to a document that is there. -/
def hasDocument (tree : SymbolTree) (group : LineGroup) : Bool :=
  (tree.document? group.document).isSome

end SymbolTree

namespace LineGroup

variable {holds : LineGroup → Bool}

theorem pointsWhere_nil : pointsWhere holds [] = 0 := rfl

theorem pointsWhere_cons (group : LineGroup) (groups : List LineGroup) :
    pointsWhere holds (group :: groups) =
      (if holds group then group.points.length else 0) + pointsWhere holds groups := by
  rw [pointsWhere, List.filter_cons]
  split
  · rw [List.flatMap_cons, List.length_append]
    rfl
  · exact (Nat.zero_add _).symm

theorem pointsWhere_append (front back : List LineGroup) :
    pointsWhere holds (front ++ back) = pointsWhere holds front + pointsWhere holds back := by
  rw [pointsWhere, List.filter_append, List.flatMap_append, List.length_append]
  rfl

/-- Line groups that fall under one of two conditions, and never under both, are counted apart. -/
theorem pointsWhere_or {either first second : LineGroup → Bool}
    (hor : ∀ group, either group = (first group || second group))
    (hapart : ∀ group, first group = true → second group = false) (groups : List LineGroup) :
    pointsWhere either groups = pointsWhere first groups + pointsWhere second groups := by
  induction groups with
  | nil => rfl
  | cons group groups ih =>
    rw [pointsWhere_cons, pointsWhere_cons, pointsWhere_cons, ih, hor]
    cases hfirst : first group with
    | true =>
      rw [hapart group hfirst, Bool.true_or, if_pos rfl, if_neg Bool.false_ne_true]
      omega
    | false =>
      rw [Bool.false_or, if_neg Bool.false_ne_true]
      omega

/-- A condition that holds for every line group with points leaves out no point. -/
theorem pointsWhere_of_forall {groups : List LineGroup}
    (h : ∀ group ∈ groups, group.isEmpty = false → holds group = true) :
    pointsWhere holds groups = (groups.flatMap (·.points)).length := by
  induction groups with
  | nil => rfl
  | cons group groups ih =>
    obtain ⟨hgroup, hgroups⟩ := List.forall_mem_cons.1 h
    rw [pointsWhere_cons, ih hgroups, List.flatMap_cons, List.length_append]
    split
    · rfl
    · rename_i hnot
      have hempty : group.isEmpty = true := by
        by_contra hpoints
        exact hnot (hgroup (Bool.of_not_eq_true hpoints))
      rw [List.isEmpty_iff.1 hempty, List.length_nil]

end LineGroup

open LineGroup (pointsWhere)

/-! ## One pass over the line groups -/

namespace Tally

theorem find_insert (tallies : Dictionary DocumentId Tally) (id other : DocumentId)
    (tally : Tally) :
    find (tallies.insert id tally) other = if id = other then tally else find tallies other := by
  rw [find, Dictionary.get?_insert]
  split <;> rfl

/-- The line groups of a method add their points at their positions, and the method once at each of
them where it was not counted before. -/
theorem find_countGroups (tallies : Dictionary DocumentId Tally) (seen : List DocumentId)
    (lines : List LineGroup) (id : DocumentId) :
    find (countGroups tallies seen lines) id =
      ⟨(find tallies id).methods +
          if !seen.contains id && lines.any (·.document == id) then 1 else 0,
        (find tallies id).sequencePoints + pointsWhere (·.document == id) lines⟩ := by
  induction lines generalizing tallies seen with
  | nil => simp [countGroups, LineGroup.pointsWhere_nil]
  | cons group lines ih =>
    rw [countGroups, ih, find_insert, LineGroup.pointsWhere_cons]
    by_cases hid : group.document = id
    · subst hid
      by_cases hseen : group.document ∈ seen <;> simp [add, hseen, Nat.add_assoc]
    · by_cases hseen : group.document ∈ seen
      · simp [hid, hseen]
      · simp [hid, hseen, Ne.symm hid]

/-- Methods add up at every position. -/
theorem find_foldl_countMethod (tallies : Dictionary DocumentId Tally) (methods : List Method)
    (id : DocumentId) :
    find (methods.foldl countMethod tallies) id =
      ⟨(find tallies id).methods +
          methods.countP fun method => method.lines.any (·.document == id),
        (find tallies id).sequencePoints +
          pointsWhere (·.document == id) (methods.flatMap (·.lines))⟩ := by
  induction methods generalizing tallies with
  | nil => rfl
  | cons method methods ih =>
    rw [List.foldl_cons, ih, countMethod, find_countGroups, List.countP_cons, List.flatMap_cons,
      LineGroup.pointsWhere_append]
    simp only [List.contains_nil, Bool.not_false, Bool.true_and, mk.injEq]
    omega

end Tally

namespace SymbolTree

/-- What is counted at a position. -/
theorem find_tallies (tree : SymbolTree) (id : DocumentId) :
    Tally.find tree.tallies id = ⟨tree.methodsUsing id, tree.pointsIn id⟩ := by
  rw [tallies, Tally.find_foldl_countMethod]
  exact congrArg₂ Tally.mk (Nat.zero_add _) (Nat.zero_add _)

/-- The listing has an entry for each document, with what there is to count at its position. -/
theorem usage_eq (tree : SymbolTree) :
    tree.usage = tree.documents.mapIdx fun index document =>
      ⟨⟨index⟩, document, tree.methodsUsing ⟨index⟩, tree.pointsIn ⟨index⟩⟩ := by
  rw [usage]
  simp only [find_tallies]

/-! ## The sum of the points -/

/-- The listed points are those in line groups whose document is there. -/
theorem sum_sequencePoints_usage (tree : SymbolTree) :
    (tree.usage.map (·.sequencePoints)).sum = pointsWhere tree.hasDocument tree.groups := by
  have hlisted : tree.usage.map (·.sequencePoints) =
      (List.range tree.documents.length).map fun index => tree.pointsIn ⟨index⟩ := by
    rw [usage_eq]
    exact List.ext_getElem (by simp) (by simp)
  have hbelow : ∀ bound, ((List.range bound).map fun index => tree.pointsIn ⟨index⟩).sum =
      pointsWhere (fun group => decide (group.document.index < bound)) tree.groups := by
    intro bound
    induction bound with
    | zero => simp [pointsWhere]
    | succ bound ih =>
      rw [List.range_succ, List.map_append, List.sum_append, ih, List.map_singleton,
        List.sum_singleton, pointsIn, ← LineGroup.pointsWhere_or]
      · rintro ⟨⟨index⟩, points⟩
        rw [Bool.eq_iff_iff]
        simp [Nat.le_iff_lt_or_eq]
      · rintro ⟨⟨index⟩, points⟩ hlt
        simpa using Nat.ne_of_lt (of_decide_eq_true hlt)
  have hdocument : tree.hasDocument =
      fun group => decide (group.document.index < tree.documents.length) := by
    funext group
    rw [hasDocument, document?, Bool.eq_iff_iff, decide_eq_true_iff, isSome_getElem?]
  rw [hlisted, hbelow, hdocument]

/-- Where all points are in documents, none is left out. -/
theorem pointsWhere_hasDocument {tree : SymbolTree}
    (h : ∀ method ∈ tree.methods, method.HasDocuments tree) :
    pointsWhere tree.hasDocument tree.groups = (tree.methods.map Method.pointCount).sum := by
  rw [LineGroup.pointsWhere_of_forall, groups, List.flatMap_assoc, List.length_flatMap]
  · rfl
  · intro group hgroup hpoints
    obtain ⟨method, hmethod, hlines⟩ := List.mem_flatMap.1 hgroup
    exact Option.isSome_iff_exists.2 (h method hmethod group hlines hpoints)

/-! ## Relocated trees -/

/-- Replacing paths changes nothing that is counted. -/
theorem hasDocument_remap (tree : SymbolTree) (map : PathMap) :
    (tree.remap map).tree.hasDocument = tree.hasDocument := by
  funext group
  rw [hasDocument, hasDocument, document?_remap]
  split
  · exact Option.isSome_map
  · rfl

theorem groups_remap (tree : SymbolTree) (map : PathMap) :
    (tree.remap map).tree.groups = tree.groups := by
  rw [groups, (tree.remap_tree map).1, groups]

/-- A tree is listed with its new paths and the counts that it has with the old ones. -/
theorem usage_remap (tree : SymbolTree) (map : PathMap) :
    (tree.remap map).tree.usage =
      (tree.remap map).tree.documents.mapIdx fun index document =>
        ⟨⟨index⟩, document, tree.methodsUsing ⟨index⟩, tree.pointsIn ⟨index⟩⟩ := by
  rw [usage_eq]
  simp only [methodsUsing, pointsIn, groups_remap, (tree.remap_tree map).1]

/-- Points that are told are in documents, so a relocation counts what is listed. -/
theorem sum_sequencePoints_usage_of_relocate {σ : Type} {emitter : Emitter σ} {tree : SymbolTree}
    {map : PathMap} {state : σ} {summary : Summary}
    (h : (emitter.relocate tree map state).result = .ok summary) :
    ((tree.remap map).tree.usage.map (·.sequencePoints)).sum = summary.sequencePoints := by
  obtain ⟨hsummary, hdocuments⟩ := Emitter.sequencePoints_of_relocate h
  rw [← (tree.remap_tree map).1] at hdocuments hsummary
  rw [sum_sequencePoints_usage, pointsWhere_hasDocument hdocuments, hsummary]

end SymbolTree

/-! ## The listing -/

namespace CommandLine

/-- The map for a listing: the one in the given file, or the empty one if none is given. -/
def readGivenMap (system : FileSystem) : Option String → Except Failure PathMap
  | none => .ok .empty
  | some path => readMap system path

/-- A listing whose files can be read shows the usage of the tree with its new paths. -/
theorem run_documents {system : FileSystem} {file : String} {given : Option String}
    {source : TreeFile.NamedTree} {map : PathMap} (settings : GlobalOptions)
    (hsource : readTree system file = .ok source) (hmap : readGivenMap system given = .ok map) :
    let entries := (source.tree.remap map).tree.usage
    let report := run system ⟨settings, .documents file given⟩
    report.result = .ok () ∧ report.output =
      if settings.json then Listing.arrayText entries else Listing.tableText entries := by
  intro entries report
  rw [← Listing.indented_usageJson, ← Listing.usageText_eq_tableText]
  cases given with
  | none =>
    cases hmap
    have hreport : report = listDocuments system settings source.tree [] := by
      simp only [report, run, runDocuments, hsource]
    rw [hreport]
    exact ⟨rfl, rfl⟩
  | some path =>
    have hread : readMap system path = .ok map := hmap
    have hreport : ∃ notices,
        report = listDocuments system settings (source.tree.remap map).tree notices := by
      simp only [report, run, runDocuments, hsource, hread]
      exact ⟨_, rfl⟩
    obtain ⟨_, hreport⟩ := hreport
    rw [hreport]
    exact ⟨rfl, rfl⟩

/-- The listing of documents is exact for every tree and every path map. It has one entry for each
document, in their order and with the new path of the document. An entry has the number of methods
with a line group at its position, however many of their groups are there, and the number of points
in all line groups there; so a line group whose document is missing is listed nowhere. A relocation
of the tree that succeeds, with whatever sink and options, has counted as many points as are listed.

The command prints the entries of the tree and the map that it reads. The text is spelled out: for
people, a line with the numbers and the path of each entry below the header, or one that says that
there are no documents; as JSON, an array with an object for each entry, of which a reader makes the
position, the path, the language and the counts again. -/
theorem usage_agrees_with_relocation (tree : SymbolTree) (map : PathMap) :
    let remapped := (tree.remap map).tree
    let entries := remapped.usage
    (entries = remapped.documents.mapIdx fun index document =>
        ⟨⟨index⟩, document, tree.methodsUsing ⟨index⟩, tree.pointsIn ⟨index⟩⟩) ∧
      remapped.documents.length = tree.documents.length ∧
      (entries.map (·.sequencePoints)).sum = pointsWhere tree.hasDocument tree.groups ∧
      (∀ (σ : Type) (emitter : Emitter σ) (state : σ) (summary : Summary),
        (emitter.relocate tree map state).result = .ok summary →
          (entries.map (·.sequencePoints)).sum = summary.sequencePoints) ∧
      ∀ (system : FileSystem) (settings : GlobalOptions) (file : String) (given : Option String)
        (source : TreeFile.NamedTree), readTree system file = .ok source → source.tree = tree →
          readGivenMap system given = .ok map →
            let report := run system ⟨settings, .documents file given⟩
            report.result = .ok () ∧
              (settings.json = false → report.output = Listing.tableText entries) ∧
              (settings.json = true → report.output = Listing.arrayText entries ∧
                Json.Document.ofText report.output =
                  ⟨.array (entries.map Listing.node) none, false⟩) := by
  intro remapped entries
  refine ⟨tree.usage_remap map, tree.length_documents_remap map, ?_, ?_, ?_⟩
  · show (remapped.usage.map (·.sequencePoints)).sum = _
    rw [SymbolTree.sum_sequencePoints_usage, SymbolTree.hasDocument_remap, SymbolTree.groups_remap]
  · intro σ emitter state summary h
    exact SymbolTree.sum_sequencePoints_usage_of_relocate h
  · rintro system settings file given source hsource rfl hmap
    obtain ⟨hresult, houtput⟩ := run_documents settings hsource hmap
    refine ⟨hresult, fun hjson => ?_, fun hjson => ?_⟩
    · rw [houtput, hjson]
      rfl
    · rw [houtput, hjson]
      exact ⟨rfl, Listing.ofText_arrayText entries⟩

/-- The file of the tree with shared documents. -/
def sharedDocumentsValue : Json.Value :=
  let number (n : Nat) : Json.Value := .number (.integer n)
  let group (document : Nat) (points : List (List Nat)) : Json.Value :=
    .object [("document", number document),
      ("points", .array (points.map fun point => .array (point.map number)))]
  let local_ (name : String) (slot : Nat) (compilerGenerated : Bool) : Json.Value :=
    .object [("name", .string name), ("slot", number slot),
      ("compilerGenerated", .boolean compilerGenerated)]
  let constant (name type : String) (value : Json.Value) : Json.Value :=
    .object [("name", .string name), ("type", .string type), ("value", value)]
  let scope (offset length : Nat) (members : List (String × Json.Value)) : Json.Value :=
    .object (("offset", number offset) :: ("length", number length) :: members)
  let guid (last : String) : Json.Value := .string ("00000000-0000-0000-0000-00000000000" ++ last)
  let inner := scope 2 4 [("variables", .array [local_ "y" 1 true])]
  let outer := scope 0 8 [("variables", .array [local_ "x" 0 false]),
    ("constants", .array [constant "c" "i4" (number 7)]), ("scopes", .array [inner])]
  .object
    [("documents", .array
        [.object [("path", .string "a.cs")], .object [("path", .string "b.cs")],
          .object [("path", .string "a.cs"), ("language", guid "1"), ("vendor", guid "2"),
            ("documentType", guid "3")]]),
      ("entryPoint", .string "0x06000001"),
      ("functions", .array
        [.object
            [("token", .string "0x06000001"), ("slotToken", .string "0x11000001"),
              ("lines", .array
                [group 1 [[0, 3, 1, 3, 9]], group 2 [], group 0 [[4, 7, 1, 7, 2]],
                  group 1 [[6, 16707566, 0, 16707566, 0]]]),
              ("scope", outer), ("constants", .array [constant "d" "null" .null]),
              ("iteratorClass", .string "I"),
              ("iteratorScopes", .array [.array [number 1, number 2]])],
          .object
            [("token", .string "0x06000002"), ("lines", .array [group 2 [[0, 9, 1, 9, 2]]]),
              ("scope", scope 0 2 [])]])]

theorem decode_sharedDocumentsValue :
    (sharedDocumentsValue.node?.map fun node =>
      (TreeFile.treeKind.decoder TreeFile.maxLevels node).toOption.map
        TreeFile.TreeEntry.toTree) = some (some (.ok ⟨sharedDocuments, .empty⟩)) := by
  cbv

/-- This file, and a map that renames the second document. -/
def sharedFiles : FileSystem := treeAndMap sharedDocumentsValue (mapValue [("b.cs", "c.cs")])

/-- Two methods share the last document, one of them by a line group without points, and the second
document is used twice by one method. Both ways of counting come to four points, and so does what is
printed for the files of this tree and this map. -/
theorem usage_agrees_with_relocation_sharedDocuments :
    let map := PathMap.ofList [("b.cs", "c.cs")]
    let entries := (sharedDocuments.remap map).tree.usage
    let outcome := (Emitter.recording .strict none).relocate sharedDocuments map
      (Recording.start none)
    let listing (json : Bool) :=
      (run sharedFiles ⟨⟨json, false⟩, .documents "t" (some "m")⟩).output
    (entries.map fun entry => (entry.document.path, entry.methods, entry.sequencePoints)) =
        [("a.cs", 1, 1), ("c.cs", 1, 2), ("a.cs", 2, 1)] ∧
      outcome.result = .ok ⟨2, 1, 2, 4, 3, 2⟩ ∧ (entries.map (·.sequencePoints)).sum = 4 ∧
      listing false =
        "ID  FUNCTIONS  POINTS  PATH\n" ++
        " 0          1       1  a.cs\n" ++
        " 1          1       2  c.cs\n" ++
        " 2          2       1  a.cs\n" ∧
      listing true =
        "[\n  \x7b\n    \"id\": 0,\n    \"path\": \"a.cs\",\n" ++
        "    \"language\": \"3f5162f8-07c6-11d3-9053-00c04fa302a1\",\n" ++
        "    \"functions\": 1,\n    \"sequence_points\": 1\n  \x7d,\n" ++
        "  \x7b\n    \"id\": 1,\n    \"path\": \"c.cs\",\n" ++
        "    \"language\": \"3f5162f8-07c6-11d3-9053-00c04fa302a1\",\n" ++
        "    \"functions\": 1,\n    \"sequence_points\": 2\n  \x7d,\n" ++
        "  \x7b\n    \"id\": 2,\n    \"path\": \"a.cs\",\n" ++
        "    \"language\": \"00000000-0000-0000-0000-000000000001\",\n" ++
        "    \"functions\": 2,\n    \"sequence_points\": 1\n  \x7d\n]\n" := by
  intro map entries outcome listing
  have hresult : ((Emitter.recording .strict none).relocate sharedDocuments
      (.ofList [("b.cs", "c.cs")]) (Recording.start none)).result = .ok ⟨2, 1, 2, 4, 3, 2⟩ := by cbv
  obtain ⟨hentries, -, -, hsum, hlisting⟩ := usage_agrees_with_relocation sharedDocuments map
  have hcounts : (entries.map fun entry =>
      (entry.document.path, entry.methods, entry.sequencePoints)) =
        [("a.cs", 1, 1), ("c.cs", 1, 2), ("a.cs", 2, 1)] := by
    show ((sharedDocuments.remap map).tree.usage.map _) = _
    rw [hentries]
    cbv
  obtain ⟨hfile, hmap, -⟩ := read_treeAndMap sharedDocumentsValue (mapValue [("b.cs", "c.cs")])
  have hsource : readTree sharedFiles "t" = .ok ⟨sharedDocuments, .empty⟩ :=
    readTree_of_read hfile decode_sharedDocumentsValue
  have hread : readMap sharedFiles "m" = .ok map := readMap_of_read hmap
  have hlisted (json : Bool) :=
    hlisting sharedFiles ⟨json, false⟩ "t" (some "m") _ hsource rfl hread
  refine ⟨hcounts, hresult, hsum _ _ _ _ hresult, ?_, ?_⟩
  · refine ((hlisted false).2.1 rfl).trans ?_
    rw [hentries]
    decide +kernel
  · refine ((hlisted true).2.2 rfl).1.trans ?_
    rw [hentries]
    decide +kernel

end CommandLine

end DebugSymbols
