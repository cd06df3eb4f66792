import Mathlib.Data.List.DropRight
import DebugSymbols.CommandLine.Usage
import DebugSymbols.Proofs.Json.Writing

/-!
# What the listing shows

The two forms of the listing of documents, spelled out. As JSON it is an array with an object of
five members for each entry. As a table it has a line for each entry below the header: three numbers
at the right of their columns, and the path. A path with line feeds goes on below itself. Nothing is
left of blanks at the end of a line.
-/

namespace DebugSymbols.CommandLine.Listing

open Json.Value (quoted lineBreak)

/-! ## As JSON -/

/-- The object that shows an entry. -/
def objectText (entry : DocumentUsage) : String :=
  "\x7b\n    \"id\": " ++ toString entry.id.index ++
    ",\n    \"path\": " ++ quoted entry.document.path ++
    ",\n    \"language\": " ++ quoted entry.document.language.text ++
    ",\n    \"functions\": " ++ toString entry.methods ++
    ",\n    \"sequence_points\": " ++ toString entry.sequencePoints ++ "\n  \x7d"

/-- The array that shows all entries. -/
def arrayText (entries : List DocumentUsage) : String :=
  if entries.isEmpty then "[]\n"
  else "[\n  " ++ ",\n  ".intercalate (entries.map objectText) ++ "\n]\n"

/-- The value that shows an entry. -/
def object (entry : DocumentUsage) : Json.Value :=
  .object
    [("id", jsonNumber entry.id.index),
      ("path", .string entry.document.path),
      ("language", .string entry.document.language.text),
      ("functions", jsonNumber entry.methods),
      ("sequence_points", jsonNumber entry.sequencePoints)]

/-- The object of an entry as it is written. -/
theorem indented_object (entry : DocumentUsage) : (object entry).indented 1 = objectText entry := by
  -- the text between two values comes from the brackets, the separator and the quoted key
  have hbetween :
      "\x7b" ++ lineBreak 2 ++ quoted "id" ++ ": " = "\x7b\n    \"id\": " ∧
        "," ++ lineBreak 2 ++ quoted "path" ++ ": " = ",\n    \"path\": " ∧
        "," ++ lineBreak 2 ++ quoted "language" ++ ": " = ",\n    \"language\": " ∧
        "," ++ lineBreak 2 ++ quoted "functions" ++ ": " = ",\n    \"functions\": " ∧
        "," ++ lineBreak 2 ++ quoted "sequence_points" ++ ": " = ",\n    \"sequence_points\": " ∧
        lineBreak 1 ++ "\x7d" = "\n  \x7d" := by
    decide +kernel
  calc
    _ = "\x7b" ++ lineBreak 2 ++ ("," ++ lineBreak 2).intercalate
          [quoted "id" ++ ": " ++ toString entry.id.index,
            quoted "path" ++ ": " ++ quoted entry.document.path,
            quoted "language" ++ ": " ++ quoted entry.document.language.text,
            quoted "functions" ++ ": " ++ toString entry.methods,
            quoted "sequence_points" ++ ": " ++ toString entry.sequencePoints] ++
          lineBreak 1 ++ "\x7d" := rfl
    _ = "\x7b" ++ lineBreak 2 ++ quoted "id" ++ ": " ++ toString entry.id.index ++
          ("," ++ lineBreak 2 ++ quoted "path" ++ ": ") ++ quoted entry.document.path ++
          ("," ++ lineBreak 2 ++ quoted "language" ++ ": ") ++
          quoted entry.document.language.text ++
          ("," ++ lineBreak 2 ++ quoted "functions" ++ ": ") ++ toString entry.methods ++
          ("," ++ lineBreak 2 ++ quoted "sequence_points" ++ ": ") ++
          toString entry.sequencePoints ++ (lineBreak 1 ++ "\x7d") := by
      simp only [String.intercalate_cons_cons, String.intercalate_singleton, String.append_assoc]
    _ = objectText entry := by
      simp only [hbetween]
      rfl

/-- The listing as JSON shows the objects of its entries. -/
theorem indented_usageJson (entries : List DocumentUsage) :
    (usageJson entries).indented 0 ++ "\n" = arrayText entries := by
  have hitems : Json.Value.indentedItems 1 (entries.map object) = entries.map objectText := by
    induction entries with
    | nil => rfl
    | cons entry entries ih =>
      rw [List.map_cons, Json.Value.indentedItems, indented_object, ih, List.map_cons]
  show Json.Value.bracketed "[" "]" 0 (Json.Value.indentedItems 1 (entries.map object)) ++ "\n" = _
  rw [hitems, Json.Value.bracketed, List.isEmpty_map, arrayText]
  split
  · rfl
  · have hbreaks : "[" ++ lineBreak 1 = "[\n  " ∧ "," ++ lineBreak 1 = ",\n  " ∧
        lineBreak 0 ++ "]" ++ "\n" = "\n]\n" := by
      decide +kernel
    calc
      _ = "[" ++ lineBreak 1 ++ ("," ++ lineBreak 1).intercalate (entries.map objectText) ++
            (lineBreak 0 ++ "]" ++ "\n") := by
        simp only [Nat.zero_add, String.append_assoc]
      _ = _ := by
        simp only [hbreaks]

/-- What a reader of JSON makes of the object that shows an entry. -/
def node (entry : DocumentUsage) : Json.Node :=
  .object
    [(.ok "id", .number (.ofInt entry.id.index)),
      (.ok "path", .string (.ok entry.document.path)),
      (.ok "language", .string (.ok entry.document.language.text)),
      (.ok "functions", .number (.ofInt entry.methods)),
      (.ok "sequence_points", .number (.ofInt entry.sequencePoints))] none

/-- The listing as JSON is read back as an array of what shows its entries. -/
theorem ofText_arrayText (entries : List DocumentUsage) :
    Json.Document.ofText (arrayText entries) = ⟨.array (entries.map node) none, false⟩ := by
  have hitems : Json.Value.nodesOfItems? (entries.map object) = some (entries.map node) := by
    induction entries with
    | nil => rfl
    | cons entry entries ih =>
      rw [List.map_cons, Json.Value.nodesOfItems?, ih]
      rfl
  have hnode : (usageJson entries).node? = some (.array (entries.map node) none) :=
    congrArg (Option.map (Json.Node.array · none)) hitems
  rw [← indented_usageJson, Json.Value.ofText_indented hnode]

/-! ## As a table -/

/-- The width of a column of numbers. -/
def columnWidth (header : String) (numbers : List Nat) : Nat :=
  (numbers.map fun n => (toString n).length).foldl max header.length

/-- A line: three cells at the right of their columns, each before two blanks, and a part of a path.
Blanks at its end are left out. -/
def line (entries : List DocumentUsage) (id methods points path : List Char) : List Char :=
  (id.leftpad (columnWidth "ID" (entries.map (·.id.index))) ' ' ++ [' ', ' '] ++
    methods.leftpad (columnWidth "FUNCTIONS" (entries.map (·.methods))) ' ' ++ [' ', ' '] ++
    points.leftpad (columnWidth "POINTS" (entries.map (·.sequencePoints))) ' ' ++ [' ', ' '] ++
    path).rdropWhile Text.isBlank

/-- The lines that show an entry: its numbers beside the first line of its path, and nothing beside
the others. -/
def entryLines (entries : List DocumentUsage) (entry : DocumentUsage) : List (List Char) :=
  (entry.document.path.toList.splitOn '\n').mapIdx fun index part =>
    if index = 0 then
      line entries (toString entry.id.index).toList (toString entry.methods).toList
        (toString entry.sequencePoints).toList part
    else line entries [] [] [] part

/-- The table that shows all entries. -/
def tableText (entries : List DocumentUsage) : String :=
  if entries.isEmpty then "No documents.\n"
  else
    String.ofList
      ((line entries "ID".toList "FUNCTIONS".toList "POINTS".toList "PATH".toList ::
        entries.flatMap (entryLines entries)).flatMap (· ++ ['\n']))

theorem splitLines_eq_splitOn (chars : List Char) : splitLines chars = chars.splitOn '\n' := by
  induction chars with
  | nil => rfl
  | cons c chars ih =>
    obtain ⟨first, others, hsplit⟩ :=
      List.exists_cons_of_ne_nil (List.splitOn_ne_nil '\n' chars)
    rw [splitLines, List.splitOn_cons_eq_if_modifyHead, ih, hsplit, List.modifyHead_cons]
    simp only [beq_iff_eq]

/-- A number has one line. -/
theorem splitLines_toString (n : Nat) : splitLines (toString n).toList = [(toString n).toList] := by
  have hdigits : (toString n).toList = Nat.toDigits 10 n := String.toList_ofList
  rw [splitLines_eq_splitOn, List.splitOn_eq_singleton]
  intro hmem
  rw [hdigits] at hmem
  have hdigit := Nat.isDigit_of_mem_toDigits (by decide) (by decide) hmem
  exact absurd hdigit (by decide)

/-- What a cell is filled up with at its end is left out at the end of a line. -/
theorem rdropWhile_append_replicate (chars : List Char) (n : Nat) :
    (chars ++ List.replicate n ' ').rdropWhile Text.isBlank = chars.rdropWhile Text.isBlank := by
  induction n with
  | zero => rw [List.replicate_zero, List.append_nil]
  | succ n ih =>
    rw [List.replicate_succ', ← List.append_assoc,
      List.rdropWhile_concat_pos Text.isBlank _ ' ' (by decide), ih]

/-- The cells of an entry. -/
def row (entry : DocumentUsage) : Table.Row :=
  [[(toString entry.id.index).toList], [(toString entry.methods).toList],
    [(toString entry.sequencePoints).toList], entry.document.path.toList.splitOn '\n']

/-- The cells of the header. -/
def header : Table.Row :=
  [["ID".toList], ["FUNCTIONS".toList], ["POINTS".toList], ["PATH".toList]]

theorem cells_usageTable (entries : List DocumentUsage) :
    (usageTable entries).cells = header :: entries.map row := by
  have hrow : ∀ entry : DocumentUsage,
      [toString entry.id.index, toString entry.methods, toString entry.sequencePoints,
        entry.document.path].map (fun cell => splitLines cell.toList) = row entry := by
    intro entry
    rw [List.map_cons, List.map_cons, List.map_cons, List.map_singleton, splitLines_toString,
      splitLines_toString, splitLines_toString, splitLines_eq_splitOn, row]
  show header :: (entries.map _).map _ = _
  rw [List.map_map]
  exact congrArg (header :: ·) (List.map_congr_left fun entry _ => hrow entry)

/-- A column of numbers is as wide as its header and its numbers need. -/
theorem width_numbers (name : String) (number : DocumentUsage → Nat) (entries : List DocumentUsage)
    (index : Nat) (hheader : header[index]? = some [name.toList])
    (hrow : ∀ entry, (row entry)[index]? = some [(toString (number entry)).toList]) :
    Table.width (header :: entries.map row) index = columnWidth name (entries.map number) := by
  have hlengths : (entries.map row).flatMap (fun row => (row[index]?.getD []).map List.length) =
      entries.map fun entry => (toString (number entry)).length := by
    induction entries with
    | nil => rfl
    | cons entry entries ih =>
      rw [List.map_cons, List.flatMap_cons, hrow, ih]
      rfl
  rw [Table.width, List.flatMap_cons, hheader, hlengths, columnWidth, List.map_map]
  show List.foldl max (max 0 name.length) _ = _
  rw [Nat.zero_max]
  rfl

/-- Four cells are joined to a line. The path is last, so that its width makes no difference. -/
theorem trimEnd_cells (entries : List DocumentUsage) (last : Nat)
    (id methods points part : List Char) :
    Text.trimEnd ([' ', ' '].intercalate
      [Table.pad .right (columnWidth "ID" (entries.map (·.id.index))) id,
        Table.pad .right (columnWidth "FUNCTIONS" (entries.map (·.methods))) methods,
        Table.pad .right (columnWidth "POINTS" (entries.map (·.sequencePoints))) points,
        Table.pad .left last part]) = line entries id methods points part := by
  rw [List.intercalate_cons_cons, List.intercalate_cons_cons, List.intercalate_cons_cons,
    List.intercalate_singleton]
  show (_ ++ (_ ++ (_ ++ (part ++ List.replicate _ ' ')))).rdropWhile Text.isBlank = _
  rw [← List.append_assoc, ← List.append_assoc, ← List.append_assoc, rdropWhile_append_replicate,
    line]
  simp only [List.append_assoc, List.leftpad, Table.pad]

/-- The lines of a row with three cells of one line. -/
theorem tableRowLines_eq (entries : List DocumentUsage) (last : Nat)
    (id methods points : List Char) {path : List (List Char)} (hne : path ≠ []) :
    Table.rowLines [.right, .right, .right, .left]
        [columnWidth "ID" (entries.map (·.id.index)),
          columnWidth "FUNCTIONS" (entries.map (·.methods)),
          columnWidth "POINTS" (entries.map (·.sequencePoints)), last]
        [[id], [methods], [points], path] =
      path.mapIdx fun index part =>
        if index = 0 then line entries id methods points part else line entries [] [] [] part := by
  have hheight : [1, 1, 1, path.length].foldl max 0 = path.length := by
    have hpos := List.length_pos_iff.2 hne
    simp only [List.foldl_cons, List.foldl_nil]
    omega
  rw [Table.rowLines]
  show (List.range ([1, 1, 1, path.length].foldl max 0)).map _ = _
  rw [hheight]
  refine List.ext_getElem (by simp) fun index hindex _ => ?_
  have hlt : index < path.length := by simpa using hindex
  rw [List.getElem_map, List.getElem_range, List.getElem_mapIdx]
  refine (trimEnd_cells entries last ([id][index]?.getD []) ([methods][index]?.getD [])
    ([points][index]?.getD []) (path[index]?.getD [])).trans ?_
  rw [List.getElem?_eq_getElem hlt, Option.getD_some]
  cases index with
  | zero => rfl
  | succ index => rfl

/-- The lines of a row in the table of all entries. -/
def rowLines (entries : List DocumentUsage) : Table.Row → List (List Char) :=
  Table.rowLines [.right, .right, .right, .left]
    ((List.range 4).map (Table.width (header :: entries.map row)))

theorem text_usageTable (entries : List DocumentUsage) :
    (usageTable entries).text = String.ofList
      ((rowLines entries header ++
        entries.flatMap fun entry => rowLines entries (row entry)).flatMap (· ++ ['\n'])) := by
  rw [Table.text, cells_usageTable, List.flatMap_cons, List.flatMap_map]
  rfl

/-- The widths of the columns of numbers do not depend on the paths. -/
theorem widths_eq (entries : List DocumentUsage) :
    (List.range 4).map (Table.width (header :: entries.map row)) =
      [columnWidth "ID" (entries.map (·.id.index)),
        columnWidth "FUNCTIONS" (entries.map (·.methods)),
        columnWidth "POINTS" (entries.map (·.sequencePoints)),
        Table.width (header :: entries.map row) 3] := by
  rw [← width_numbers "ID" (·.id.index) entries 0 rfl fun _ => rfl,
    ← width_numbers "FUNCTIONS" (·.methods) entries 1 rfl fun _ => rfl,
    ← width_numbers "POINTS" (·.sequencePoints) entries 2 rfl fun _ => rfl]
  rfl

theorem rowLines_header (entries : List DocumentUsage) : rowLines entries header =
    [line entries "ID".toList "FUNCTIONS".toList "POINTS".toList "PATH".toList] := by
  rw [rowLines, widths_eq, header, tableRowLines_eq entries _ _ _ _ (List.cons_ne_nil _ _)]
  rfl

theorem rowLines_row (entries : List DocumentUsage) (entry : DocumentUsage) :
    rowLines entries (row entry) = entryLines entries entry := by
  rw [rowLines, widths_eq, row, tableRowLines_eq entries _ _ _ _ (List.splitOn_ne_nil _ _),
    entryLines]

/-- The listing as a table shows the lines of its entries. -/
theorem usageText_eq_tableText (entries : List DocumentUsage) :
    usageText entries = tableText entries := by
  rw [usageText, tableText, text_usageTable, rowLines_header]
  simp only [rowLines_row]
  rfl

end DebugSymbols.CommandLine.Listing
