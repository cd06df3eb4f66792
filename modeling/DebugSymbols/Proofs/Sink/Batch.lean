import DebugSymbols.Sink.Batch

/-!
# Batches lose no point

A batch holds points column by column. Each position that all columns have is a point, so the
points of a batch are as many as its shortest column has entries. Points that are added go to the
end of every column. If the columns are equally long, then they follow the points that were there;
and this is so for no other batch, because a longer column has an entry already where the new point
should stand.
-/

namespace DebugSymbols.Batch

variable {batch : Batch} {point : SequencePoint} {points more : List SequencePoint} {i : Nat}

/-! ## Positions -/

/-- A point stands at a position if its parts stand there in the columns. -/
def StandsAt (batch : Batch) (point : SequencePoint) (i : Nat) : Prop :=
  batch.offsets[i]? = some point.offset ∧ batch.startLines[i]? = some point.startLine ∧
    batch.startColumns[i]? = some point.startColumn ∧ batch.endLines[i]? = some point.endLine ∧
    batch.endColumns[i]? = some point.endColumn

/-- The length of the shortest column. -/
def shortest (batch : Batch) : Nat :=
  min batch.offsets.length (min batch.startLines.length (min batch.startColumns.length
    (min batch.endLines.length batch.endColumns.length)))

theorem length_points_eq_shortest (batch : Batch) : batch.points.length = batch.shortest := by
  simp only [Batch.points, List.length_map, List.length_zip, shortest]

theorem getElem?_points_eq_some_iff : batch.points[i]? = some point ↔ batch.StandsAt point i := by
  simp only [Batch.points, List.getElem?_map, Option.map_eq_some_iff, List.getElem?_zip_eq_some,
    StandsAt]
  constructor
  · rintro ⟨_, hstands, rfl⟩
    exact hstands
  · intro hstands
    exact ⟨(point.offset, point.startLine, point.startColumn, point.endLine, point.endColumn),
      hstands, rfl⟩

/-! ## Adding points -/

/-- To add points is to add the first one and then the others. -/
theorem extend_cons (batch : Batch) (point : SequencePoint) (more : List SequencePoint) :
    batch.extend (point :: more) = (batch.push point).extend more := by
  simp only [extend, push, List.map_cons, List.map_nil, List.append_assoc, List.singleton_append]

theorem extend_nil (batch : Batch) : batch.extend [] = batch := by
  simp only [extend, List.map_nil, List.append_nil]

/-- Points are added one after the other. -/
theorem foldl_push (batch : Batch) (points : List SequencePoint) :
    points.foldl push batch = batch.extend points := by
  induction points generalizing batch with
  | nil => rw [List.foldl_nil, extend_nil]
  | cons point points ih => rw [List.foldl_cons, ih, extend_cons]

theorem extend_append (batch : Batch) (points more : List SequencePoint) :
    batch.extend (points ++ more) = (batch.extend points).extend more := by
  rw [← foldl_push, List.foldl_append, foldl_push, foldl_push]

theorem extend_ofPoints (points more : List SequencePoint) :
    (ofPoints points).extend more = ofPoints (points ++ more) :=
  (extend_append empty points more).symm

theorem length_extend (batch : Batch) (points : List SequencePoint) :
    (batch.extend points).length = batch.length + points.length := by
  simp only [extend, length, List.length_append, List.length_map]

theorem shortest_extend (batch : Batch) (points : List SequencePoint) :
    (batch.extend points).shortest = batch.shortest + points.length := by
  simp only [shortest, extend, List.length_append, List.length_map]
  omega

/-- A point stays where it stands. -/
theorem StandsAt.extend (h : batch.StandsAt point i) (more : List SequencePoint) :
    (batch.extend more).StandsAt point i := by
  have hstays : ∀ {α : Type} {column : List α} {entry : α} (new : List α),
      column[i]? = some entry → (column ++ new)[i]? = some entry := by
    intro α column entry new hentry
    obtain ⟨hi, -⟩ := List.getElem?_eq_some_iff.1 hentry
    rw [List.getElem?_append_left hi, hentry]
  obtain ⟨hoffset, hstartLine, hstartColumn, hendLine, hendColumn⟩ := h
  exact ⟨hstays _ hoffset, hstays _ hstartLine, hstays _ hstartColumn, hstays _ hendLine,
    hstays _ hendColumn⟩

/-- The points of a batch stay where they are, whatever is added. -/
theorem points_prefix_extend (batch : Batch) (more : List SequencePoint) :
    batch.points <+: (batch.extend more).points := by
  rw [List.prefix_iff_getElem?]
  intro i hi
  have hstands := getElem?_points_eq_some_iff.1 (List.getElem?_eq_getElem hi)
  exact getElem?_points_eq_some_iff.2 (hstands.extend more)

/-! ## Columns of equal length -/

theorem isConsistent_iff :
    batch.isConsistent = true ↔
      batch.startLines.length = batch.length ∧ batch.startColumns.length = batch.length ∧
        batch.endLines.length = batch.length ∧ batch.endColumns.length = batch.length := by
  simp only [isConsistent, Bool.and_eq_true, beq_iff_eq, and_assoc]

/-- Added points leave the columns as even or uneven as they are. -/
theorem isConsistent_extend (batch : Batch) (points : List SequencePoint) :
    (batch.extend points).isConsistent = batch.isConsistent := by
  rw [Bool.eq_iff_iff, isConsistent_iff, isConsistent_iff, length_extend]
  simp only [extend, List.length_append, List.length_map, Nat.add_right_cancel_iff]

theorem isConsistent_ofPoints (points : List SequencePoint) :
    (ofPoints points).isConsistent = true :=
  isConsistent_extend empty points

/-- The columns of a consistent batch are as long as its list of points. -/
theorem length_points (h : batch.isConsistent = true) : batch.points.length = batch.length := by
  rw [isConsistent_iff] at h
  rw [length_points_eq_shortest]
  unfold shortest
  unfold length at h ⊢
  omega

/-- What a point that is added makes of the points: there is one more of them. -/
theorem exists_points_push (batch : Batch) (point : SequencePoint) :
    ∃ last, (batch.push point).points = batch.points ++ [last] ∧
      (batch.push point).StandsAt last batch.shortest := by
  obtain ⟨new, hnew⟩ := points_prefix_extend batch [point]
  have hlength : (batch.points ++ new).length = batch.points.length + 1 := by
    rw [hnew, length_points_eq_shortest, length_points_eq_shortest, shortest_extend]
    rfl
  rw [List.length_append, Nat.add_left_cancel_iff, List.length_eq_one_iff] at hlength
  obtain ⟨last, rfl⟩ := hlength
  refine ⟨last, hnew.symm, ?_⟩
  rw [← getElem?_points_eq_some_iff, ← length_points_eq_shortest, push, ← hnew,
    List.getElem?_concat_length]

/-- In a consistent batch, a point that is added follows the others. -/
theorem points_push (h : batch.isConsistent = true) (point : SequencePoint) :
    (batch.push point).points = batch.points ++ [point] := by
  have hat : ∀ {α : Type} {column : List α} (entry : α), column.length = batch.shortest →
      (column ++ [entry])[batch.shortest]? = some entry := by
    intro α column entry hcolumn
    rw [← hcolumn, List.getElem?_concat_length]
  have hshortest := length_points h
  rw [length_points_eq_shortest] at hshortest
  obtain ⟨hstartLines, hstartColumns, hendLines, hendColumns⟩ := isConsistent_iff.1 h
  rw [← hshortest] at hstartLines hstartColumns hendLines hendColumns
  have hstands : (batch.push point).StandsAt point batch.shortest :=
    ⟨hat _ hshortest.symm, hat _ hstartLines, hat _ hstartColumns, hat _ hendLines,
      hat _ hendColumns⟩
  obtain ⟨last, hpoints, hlast⟩ := exists_points_push batch point
  rw [← getElem?_points_eq_some_iff] at hstands hlast
  rw [hpoints, Option.some.inj (hlast.symm.trans hstands)]

/-- In a consistent batch, points that are added follow the others. -/
theorem points_extend (h : batch.isConsistent = true) (more : List SequencePoint) :
    (batch.extend more).points = batch.points ++ more := by
  induction more generalizing batch with
  | nil => rw [extend_nil, List.append_nil]
  | cons point more ih =>
    have hpush : (batch.push point).isConsistent = true := by rw [push, isConsistent_extend, h]
    rw [extend_cons, ih hpush, points_push h, List.append_assoc, List.singleton_append]

theorem points_ofPoints (points : List SequencePoint) : (ofPoints points).points = points :=
  points_extend rfl points

/-- A column in which either of two entries would stand at a position, if it were added, does not
reach behind this position. -/
theorem length_le_of_getElem?_concat {α : Type} {column : List α} {entry other : α}
    (hne : entry ≠ other) (hentry : (column ++ [entry])[i]? = some entry)
    (hother : (column ++ [other])[i]? = some other) : column.length ≤ i := by
  refine Nat.not_lt.1 fun hlt => ?_
  rw [List.getElem?_append_left hlt] at hentry hother
  exact hne (Option.some.inj (hentry.symm.trans hother))

/-- A batch in which every point that is added follows the others has columns of equal length. -/
theorem isConsistent_of_points_push
    (h : ∀ point, (batch.push point).points = batch.points ++ [point]) :
    batch.isConsistent = true := by
  have hstands : ∀ point, (batch.push point).StandsAt point batch.shortest := by
    intro point
    rw [← getElem?_points_eq_some_iff, h, ← length_points_eq_shortest,
      List.getElem?_concat_length]
  -- two points that differ in every part
  obtain ⟨hoffset, hstartLine, hstartColumn, hendLine, hendColumn⟩ := hstands ⟨0, 0, 0, 0, 0⟩
  obtain ⟨hoffset', hstartLine', hstartColumn', hendLine', hendColumn'⟩ :=
    hstands ⟨1, 1, 1, 1, 1⟩
  have hoffsets := length_le_of_getElem?_concat (by decide) hoffset hoffset'
  have hstartLines := length_le_of_getElem?_concat (by decide) hstartLine hstartLine'
  have hstartColumns := length_le_of_getElem?_concat (by decide) hstartColumn hstartColumn'
  have hendLines := length_le_of_getElem?_concat (by decide) hendLine hendLine'
  have hendColumns := length_le_of_getElem?_concat (by decide) hendColumn hendColumn'
  rw [isConsistent_iff]
  unfold shortest at hoffsets hstartLines hstartColumns hendLines hendColumns
  unfold length
  omega

/-! ## All batches -/

/-- The points of a batch are what stands at the positions up to the end of the shortest column. To
add points, one by one or at once, puts their parts at the end of every column in their order. It
leaves the columns as even or uneven as they are, moves no point, and there are as many more points
as were added. The consistent batches are those to which the added points are added as they are, and
then the batch is as long as its list of points. So what is collected is read back, and to add two
lists is to add the one and then the other. -/
theorem columns_lose_no_point (batch : Batch) (points more : List SequencePoint) :
    (batch.points.length = batch.shortest ∧
        ∀ i point, batch.points[i]? = some point ↔ batch.StandsAt point i) ∧
      (batch.extend points =
          ⟨batch.offsets ++ points.map (·.offset), batch.startLines ++ points.map (·.startLine),
            batch.startColumns ++ points.map (·.startColumn),
            batch.endLines ++ points.map (·.endLine),
            batch.endColumns ++ points.map (·.endColumn)⟩ ∧
        points.foldl push batch = batch.extend points) ∧
      (batch.extend points).isConsistent = batch.isConsistent ∧
      (batch.points <+: (batch.extend points).points ∧
        (batch.extend points).points.length = batch.points.length + points.length) ∧
      (batch.isConsistent = true ↔
        ∀ new, (batch.extend new).points = batch.points ++ new ∧
          (batch.extend new).length = (batch.points ++ new).length) ∧
      (ofPoints points).points = points ∧
      batch.extend (points ++ more) = (batch.extend points).extend more := by
  refine ⟨⟨length_points_eq_shortest batch, fun _ _ => getElem?_points_eq_some_iff⟩,
    ⟨rfl, foldl_push batch points⟩, isConsistent_extend batch points,
    ⟨points_prefix_extend batch points, ?_⟩, ⟨fun h new => ⟨points_extend h new, ?_⟩, fun h => ?_⟩,
    points_ofPoints points, extend_append batch points more⟩
  · rw [length_points_eq_shortest, length_points_eq_shortest, shortest_extend]
  · rw [length_extend, List.length_append, length_points h]
  · exact isConsistent_of_points_push fun point => (h [point]).1

end DebugSymbols.Batch
