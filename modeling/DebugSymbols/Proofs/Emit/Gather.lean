import DebugSymbols.Proofs.Emit.Recorded

/-!
# How line groups are gathered

Groups are gathered by handle, and different paths have different handles, so they are gathered by
path: there is one batch for each path, in the order in which the paths first appear, and it holds
the points of all groups with this path one after the other.
-/

namespace DebugSymbols

namespace Stretch

theorem mem_paths {stretches : List Stretch} {path : String} :
    path ∈ paths stretches ↔ ∃ stretch ∈ stretches, stretch.path = path := by
  rw [paths, mem_map_path_fresh]
  simp [Stretch.path]

theorem nodup_paths (stretches : List Stretch) : (paths stretches).Nodup := by
  have h := nodup_map_path_append_fresh [] (stretches.map (·.document)) List.nodup_nil
  rwa [List.nil_append] at h

/-- A stretch behind the others adds its path unless it is there already. -/
theorem paths_append_singleton (stretches : List Stretch) (stretch : Stretch) :
    paths (stretches ++ [stretch]) =
      if stretch.path ∈ paths stretches then paths stretches
      else paths stretches ++ [stretch.path] := by
  rw [paths, List.map_append, fresh_append, List.map_append, List.nil_append, List.map_singleton,
    ← paths]
  by_cases h : stretch.path ∈ paths stretches
  · rw [if_pos h, fresh_singleton_of_mem h, List.map_nil, List.append_nil]
  · rw [if_neg h, fresh_singleton_of_notMem h, List.map_singleton]
    rfl

theorem pointsIn_append_singleton (stretches : List Stretch) (stretch : Stretch) (path : String) :
    pointsIn (stretches ++ [stretch]) path =
      pointsIn stretches path ++ if stretch.path = path then stretch.points else [] := by
  rw [pointsIn, List.filter_append, List.flatMap_append, ← pointsIn]
  by_cases h : stretch.path = path <;> simp [h]

theorem pointsIn_eq_nil {stretches : List Stretch} {path : String} (h : path ∉ paths stretches) :
    pointsIn stretches path = [] := by
  rw [pointsIn, List.filter_eq_nil_iff.2, List.flatMap_nil]
  intro stretch hmem hpath
  exact h (mem_paths.2 ⟨stretch, hmem, of_decide_eq_true hpath⟩)

/-- The batches of stretches, path by path. -/
def batches (handle : String → DocumentHandle) (stretches : List Stretch) :
    List (DocumentHandle × Batch) :=
  (paths stretches).map fun path => (handle path, .ofPoints (pointsIn stretches path))

end Stretch

/-! ## Gathering -/

open Emitter (gather)

variable {handle : String → DocumentHandle}

/-- Points of a path that has a batch are put at its end. -/
theorem gather_map_of_mem {paths : List String} {points : String → List SequencePoint}
    {path : String} (more : List SequencePoint) (hnodup : paths.Nodup) (hmem : path ∈ paths)
    (hinj : ∀ other ∈ paths, handle other = handle path → other = path) :
    gather (handle path) more (paths.map fun other => (handle other, .ofPoints (points other))) =
      paths.map fun other =>
        (handle other, .ofPoints (points other ++ if path = other then more else [])) := by
  induction paths with
  | nil => cases hmem
  | cons first paths ih =>
    obtain ⟨hfirst, hpaths⟩ := List.nodup_cons.1 hnodup
    rw [List.map_cons, List.map_cons, gather]
    by_cases heq : path = first
    · -- the path has this batch, and the batches behind it are of other paths
      subst heq
      rw [if_pos rfl, if_pos rfl, Batch.extend_ofPoints]
      refine congrArg _ (List.map_congr_left fun other hother => ?_)
      rw [if_neg, List.append_nil]
      rintro rfl
      exact hfirst hother
    · have hne : handle first ≠ handle path := fun h => heq (hinj first List.mem_cons_self h).symm
      have hrest : path ∈ paths := (List.mem_cons.1 hmem).resolve_left heq
      rw [if_neg hne, if_neg heq, List.append_nil,
        ih hpaths hrest fun other hother => hinj other (List.mem_cons_of_mem _ hother)]

/-- Points of a path that has no batch get one behind the others. -/
theorem gather_map_of_notMem {paths : List String} {points : String → List SequencePoint}
    {path : String} (more : List SequencePoint) (hmem : path ∉ paths)
    (hinj : ∀ other ∈ paths, handle other = handle path → other = path) :
    gather (handle path) more (paths.map fun other => (handle other, .ofPoints (points other))) =
      paths.map (fun other => (handle other, .ofPoints (points other))) ++
        [(handle path, .ofPoints more)] := by
  induction paths with
  | nil => rfl
  | cons first paths ih =>
    have hne : handle first ≠ handle path := by
      intro h
      exact hmem (hinj first List.mem_cons_self h ▸ List.mem_cons_self)
    rw [List.map_cons, gather, if_neg hne, List.cons_append,
      ih (fun h => hmem (List.mem_cons_of_mem _ h)) fun other hother =>
        hinj other (List.mem_cons_of_mem _ hother)]

/-- To gather one more stretch is to have the batches with it. -/
theorem gather_batches {stretches : List Stretch} {stretch : Stretch}
    (hinj : ∀ other ∈ stretches, handle other.path = handle stretch.path →
      other.path = stretch.path) :
    gather (handle stretch.path) stretch.points (Stretch.batches handle stretches) =
      Stretch.batches handle (stretches ++ [stretch]) := by
  have hpaths : ∀ other ∈ Stretch.paths stretches, handle other = handle stretch.path →
      other = stretch.path := by
    intro other hother
    obtain ⟨known, hknown, rfl⟩ := Stretch.mem_paths.1 hother
    exact hinj known hknown
  rw [Stretch.batches, Stretch.batches, Stretch.paths_append_singleton]
  by_cases hmem : stretch.path ∈ Stretch.paths stretches
  · rw [gather_map_of_mem _ (Stretch.nodup_paths _) hmem hpaths, if_pos hmem]
    refine List.map_congr_left fun path _ => ?_
    rw [Stretch.pointsIn_append_singleton]
  · rw [gather_map_of_notMem _ hmem hpaths, if_neg hmem, List.map_append, List.map_singleton]
    congr 1
    · refine List.map_congr_left fun path hpath => ?_
      rw [Stretch.pointsIn_append_singleton, if_neg, List.append_nil]
      rintro rfl
      exact hmem hpath
    · rw [Stretch.pointsIn_append_singleton, if_pos rfl, Stretch.pointsIn_eq_nil hmem,
        List.nil_append]

/-- Gathering stretches one after the other gives one batch for each path. -/
theorem foldl_gather_batches (front stretches : List Stretch)
    (hinj : ∀ a ∈ front ++ stretches, ∀ b ∈ front ++ stretches,
      handle a.path = handle b.path → a.path = b.path) :
    stretches.foldl (fun batches stretch => gather (handle stretch.path) stretch.points batches)
        (Stretch.batches handle front) = Stretch.batches handle (front ++ stretches) := by
  induction stretches generalizing front with
  | nil => rw [List.foldl_nil, List.append_nil]
  | cons stretch stretches ih =>
    rw [List.foldl_cons, gather_batches, ih, List.append_assoc, List.singleton_append]
    · rw [List.append_assoc, List.singleton_append]
      exact hinj
    · intro other hother
      exact hinj other (List.mem_append_left _ hother) stretch
        (List.mem_append_right _ List.mem_cons_self)

/-! ## Lines -/

namespace Emitter

variable {options : Options} {names : Option Names} {tree : SymbolTree} {method : Token}

theorem document?_of_documentOf {id : DocumentId} {document : Document}
    (h : documentOf tree method id = .ok document) : tree.document? id = some document := by
  rw [documentOf] at h
  split at h
  · rename_i hdocument
    split at h
    · cases h
    · cases h
      exact hdocument
  · cases h

/-- Gathering the lines of a method defines its fresh documents and gathers its stretches. -/
theorem recorded_gatherLines {lines : List LineGroup}
    {batches result : List (DocumentHandle × Batch)} {emission last : Emission Recording}
    {log : List Entry} {known : List Document}
    (h : ((Emitter.recording options names).gatherLines tree method lines batches).outcome
      emission = (.ok result, last))
    (hrecorded : emission.Recorded log known) :
    let stretches := tree.stretches lines
    let used := stretches.map (·.document)
    let documents := known ++ fresh known used
    result = stretches.foldl
        (fun batches stretch => gather (handleOf documents stretch.path) stretch.points batches)
        batches ∧
      last.Recorded (log ++ definitions known used) documents := by
  induction lines generalizing batches emission log known with
  | nil =>
    cases h
    refine ⟨rfl, ?_⟩
    simpa [SymbolTree.stretches, definitions, fresh] using hrecorded
  | cons group lines ih =>
    rw [gatherLines] at h
    rw [SymbolTree.stretches]
    by_cases hempty : group.isEmpty = true
    · rw [if_pos hempty] at h ⊢
      exact ih h hrecorded
    · rw [if_neg hempty] at h ⊢
      obtain ⟨document, hdocument, h⟩ := Attempt.outcome_lift_bind_eq_ok_iff.1 h
      rw [document?_of_documentOf hdocument]
      obtain ⟨handle, middle, hregister, h⟩ := Attempt.outcome_bind_eq_ok_iff.1 h
      obtain ⟨hhandle, hmiddle⟩ := recorded_register hregister hrecorded
      obtain ⟨hresult, hlast⟩ := ih h hmiddle
      rw [List.append_assoc, List.append_assoc, ← definitions_append, ← fresh_append] at hlast
      refine ⟨?_, hlast⟩
      -- the handle was given before the rest of the documents, which do not change it
      have hknown : document.path ∈ (known ++ fresh known [document]).map (·.path) :=
        mem_map_path_append_fresh.2 (Or.inr (by simp))
      have hkept := handleOf_append hknown (fresh (known ++ fresh known [document])
        ((tree.stretches lines).map (·.document)))
      rw [← hhandle, List.append_assoc, ← fresh_append] at hkept
      rw [hresult, List.append_assoc, ← fresh_append, ← hkept]
      rfl

/-- The lines of a method make one batch for each path. -/
theorem recorded_gatherLines_batches {lines : List LineGroup}
    {result : List (DocumentHandle × Batch)} {emission last : Emission Recording}
    {log : List Entry} {known : List Document}
    (h : ((Emitter.recording options names).gatherLines tree method lines []).outcome
      emission = (.ok result, last))
    (hrecorded : emission.Recorded log known) :
    let stretches := tree.stretches lines
    let used := stretches.map (·.document)
    let documents := known ++ fresh known used
    result = Stretch.batches (handleOf documents) stretches ∧
      last.Recorded (log ++ definitions known used) documents := by
  obtain ⟨hresult, hlast⟩ := recorded_gatherLines h hrecorded
  refine ⟨?_, hlast⟩
  have hknown : ∀ stretch ∈ tree.stretches lines, stretch.path ∈
      (known ++ fresh known ((tree.stretches lines).map (·.document))).map (·.path) := by
    intro stretch hmem
    refine mem_map_path_append_fresh.2 (Or.inr ?_)
    rw [List.map_map]
    exact List.mem_map_of_mem hmem
  rw [hresult]
  -- gathering compares handles, which are equal for equal paths only
  exact foldl_gather_batches [] (tree.stretches lines) fun a ha b hb =>
    handleOf_inj (hknown a ha) (hknown b hb)

end Emitter

end DebugSymbols
