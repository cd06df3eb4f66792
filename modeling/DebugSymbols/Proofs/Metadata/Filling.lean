import DebugSymbols.Proofs.Bytes.Buffer
import DebugSymbols.Proofs.Metadata.RoundTrip

/-!
# Blobs are filled in place

A blob can be written field by field into a buffer of its final size. The size comes from a formula
and the end of the writing from the fields, so the two have to agree for every name and every list
of ranges. They do: filling a buffer gives what the encoders give, and no write runs out of the
buffer.

`classBlob` and `scopesBlob` name every byte of the two blobs. The encoders give exactly these bytes
and refuse everything else as an invalid tree, but for one NUL character at the very end of a name.
-/

namespace DebugSymbols.Metadata

open Bytes (Word WriteStep Appends filled writeAt alignUp)

/-! ## Filling a buffer -/

/-- Writes the heads of a blob with one record of the given kind, up to the size of the record. -/
def fillHeads (kind : UInt8) : WriteStep := fun buffer offset => do
  let (buffer, offset) ← writeAt buffer offset version
  let (buffer, offset) ← writeAt buffer offset (1 : UInt8)
  let (buffer, offset) ← writeAt buffer (alignUp offset 4) version
  let (buffer, offset) ← writeAt buffer offset kind
  return (buffer, alignUp offset 4)

/-- Writes code units. -/
def fillUnits (units : List UInt16) : WriteStep := fun buffer offset =>
  units.foldlM (fun (buffer, offset) unit => writeAt buffer offset unit) (buffer, offset)

/-- Writes the start and the end of a range. -/
def fillRange (scope : Span) : WriteStep := fun buffer offset => do
  let (buffer, offset) ← writeAt buffer offset scope.offset
  let stop ← scope.stop
  writeAt buffer offset stop

/-- Writes ranges. -/
def fillRanges (scopes : List Span) : WriteStep := fun buffer offset =>
  scopes.foldlM (fun (buffer, offset) scope => fillRange scope buffer offset) (buffer, offset)

/-- Writes the fields of a class record behind its head: its size, its code units and their
terminator. -/
def fillClass (size : UInt32) (units : List UInt16) : WriteStep := fun buffer offset => do
  let (buffer, offset) ← writeAt buffer offset size
  fillUnits (units ++ [0]) buffer offset

/-- Writes the fields of a scopes record behind its head: its size, its count and its ranges. -/
def fillScopes (size count : UInt32) (scopes : List Span) : WriteStep := fun buffer offset => do
  let (buffer, offset) ← writeAt buffer offset size
  let (buffer, offset) ← writeAt buffer offset count
  fillRanges scopes buffer offset

/-- Fills a buffer with a blob of one record: its heads and then its fields. What the fields leave
is padding, which the buffer holds from the beginning. -/
def fillBlob (kind : RecordKind) (recordSize : Nat) (fields : WriteStep) :
    Except SymbolError (List UInt8) := do
  let (buffer, offset) ← fillHeads kind.code (List.replicate (4 + recordSize) 0) 0
  let (buffer, _) ← fields buffer offset
  return buffer

/-- The blob that names the class of an iterator, filled in place. -/
def fillIteratorClass (name : String) : Except SymbolError (List UInt8) :=
  match classNameUnits? name with
  | none => .error (.invalidTree (.nulInClassName name))
  | some units => do
    let recordSize := alignUp (recordHeadSize + 2 + 2 * units.length) 4
    let size ← toUInt32 recordSize
    fillBlob .forwardIterator recordSize (fillClass size units)

/-- The blob that lists the ranges of an iterator's scopes, filled in place. -/
def fillIteratorScopes (scopes : List Span) : Except SymbolError (List UInt8) := do
  let recordSize := recordHeadSize + 4 + 8 * scopes.length
  let size ← toUInt32 recordSize
  let count ← toUInt32 scopes.length
  fillBlob .iteratorScopes recordSize (fillScopes size count scopes)

/-! ## What filling appends -/

theorem writeAt_byte (written : List UInt8) (free : Nat) (byte : UInt8) :
    writeAt (filled written (free + 1)) written.length byte =
      .ok (filled (written ++ [byte]) free, written.length + 1) := by
  have h := (Appends.write byte).fill written (free + 1) (Nat.le_add_left 1 free)
  rw [toBytes_uint8] at h
  exact h

/-- The heads take eight bytes of a buffer, padding included. -/
theorem fillHeads_replicate (kind : UInt8) (free : Nat) :
    fillHeads kind (List.replicate (8 + free) 0) 0 =
      .ok (filled [version, 1, 0, 0, version, kind, 0, 0] free, 8) := by
  have hversion : writeAt (filled [] (free + 8)) 0 version =
      .ok (filled [version] (free + 7), 1) := writeAt_byte [] _ _
  have hcount : writeAt (filled [version] (free + 7)) 1 (1 : UInt8) =
      .ok (filled [version, 1] (free + 6), 2) := writeAt_byte [version] _ _
  have hrecord : writeAt (filled [version, 1, 0, 0] (free + 4)) 4 version =
      .ok (filled [version, 1, 0, 0, version] (free + 3), 5) :=
    writeAt_byte [version, 1, 0, 0] _ _
  have hkind : writeAt (filled [version, 1, 0, 0, version] (free + 3)) 5 kind =
      .ok (filled [version, 1, 0, 0, version, kind] (free + 2), 6) :=
    writeAt_byte [version, 1, 0, 0, version] _ _
  rw [Nat.add_comm 8 free, fillHeads]
  refine bind_eq_ok_iff.2 ⟨_, hversion, bind_eq_ok_iff.2 ⟨_, hcount, ?_⟩⟩
  -- the padding is passed over: two of the zeros that are left
  exact bind_eq_ok_iff.2 ⟨_, hrecord, bind_eq_ok_iff.2 ⟨_, hkind, rfl⟩⟩

/-- Writing code units appends their bytes. -/
theorem appends_fillUnits (units : List UInt16) :
    Appends (fillUnits units) (2 * units.length) (.ok (unitBytes units)) := by
  have hmap : units.mapM (fun unit => Except.ok (Word.toBytes unit)) =
      (.ok (units.map Word.toBytes) : Except SymbolError _) := List.mapM_pure
  have hall := Appends.foldlM (fun unit : UInt16 => Appends.write unit) units
  rw [hmap] at hall
  rw [unitBytes, List.flatMap_def]
  exact hall

/-- Writing a range appends its bytes, if it has an end. -/
theorem appends_fillRange (scope : Span) : Appends (fillRange scope) 8 (rangeBytes scope) := by
  have hbytes : rangeBytes scope = (.ok (Word.toBytes scope.offset) >>= fun front =>
      (scope.stop.map Word.toBytes).map (front ++ ·)) := by
    rw [rangeBytes]
    cases scope.stop <;> rfl
  rw [hbytes]
  exact (Appends.write scope.offset).bind (Appends.after (fun stop => Appends.write stop) scope.stop)

/-- Writing ranges appends the bytes of all of them, if each has an end. -/
theorem appends_fillRanges (scopes : List Span) :
    Appends (fillRanges scopes) (8 * scopes.length)
      ((scopes.mapM rangeBytes).map List.flatten) :=
  Appends.foldlM appends_fillRange scopes

/-- Writing the fields of a class record appends their bytes. -/
theorem appends_fillClass (size : UInt32) (units : List UInt16) :
    Appends (fillClass size units) (6 + 2 * units.length)
      (.ok (Word.toBytes size ++ (unitBytes units ++ [0, 0]))) := by
  have hbytes : unitBytes (units ++ [0]) = unitBytes units ++ [0, 0] := List.flatMap_append
  have hwidth : 4 + 2 * (units ++ [0]).length = 6 + 2 * units.length := by
    rw [List.length_append, List.length_singleton]
    omega
  have hboth := (Appends.write size).bind (appends_fillUnits (units ++ [0]))
  rw [hbytes] at hboth
  rw [← hwidth]
  exact hboth

/-- Writing the fields of a scopes record appends their bytes, if each range has an end. -/
theorem appends_fillScopes (size count : UInt32) (scopes : List Span) :
    Appends (fillScopes size count scopes) (8 + 8 * scopes.length)
      ((scopes.mapM rangeBytes).map fun ranges =>
        Word.toBytes size ++ (Word.toBytes count ++ ranges.flatten)) := by
  have hwidth : 4 + (4 + 8 * scopes.length) = 8 + 8 * scopes.length := by omega
  have hall := (Appends.write size).bind ((Appends.write count).bind (appends_fillRanges scopes))
  rw [← hwidth]
  cases hranges : scopes.mapM rangeBytes <;> rw [hranges] at hall <;> exact hall

/-- If the record has room for its fields, filling fails only if there are no bytes for them, and
the rest of the record stays zero. -/
theorem fillBlob_eq (kind : RecordKind) {fields : WriteStep} {width : Nat}
    {result : Except SymbolError (List UInt8)} (hfields : Appends fields width result)
    {recordSize : Nat} (hroom : 4 + width ≤ recordSize) :
    fillBlob kind recordSize fields = result.map fun bytes =>
      blobHead 1 ++ [version, kind.code, 0, 0] ++ bytes ++
        List.replicate (recordSize - (4 + width)) 0 := by
  obtain ⟨free, rfl⟩ := Nat.exists_eq_add_of_le hroom
  have hsize : 4 + (4 + width + free) = 8 + (width + free) := by omega
  have hfill := hfields.fill [version, 1, 0, 0, version, kind.code, 0, 0] (width + free)
    (Nat.le_add_right width free)
  rw [Nat.add_sub_cancel_left] at hfill ⊢
  rw [fillBlob, hsize, fillHeads_replicate]
  show (fields _ 8 >>= _) = _
  rw [show 8 = [version, 1, 0, 0, version, kind.code, 0, 0].length from rfl, hfill]
  cases result <;> rfl

/-! ## Filling is encoding -/

/-- Filling a buffer with the blob of a class never runs out of the buffer, and gives the blob that
is encoded. -/
theorem fillIteratorClass_eq (name : String) :
    fillIteratorClass name = encodeIteratorClass name := by
  rw [fillIteratorClass, encodeIteratorClass]
  cases classNameUnits? name with
  | none => rfl
  | some units =>
    have hroom : 4 + (6 + 2 * units.length) ≤
        alignUp (recordHeadSize + 2 + 2 * units.length) 4 := by
      rw [alignUp, recordHeadSize]
      omega
    have hpadding : alignUp (recordHeadSize + 2 + 2 * units.length) 4 -
        (4 + (6 + 2 * units.length)) =
          Bytes.paddingFor (unitBytes units ++ [0, 0]).length 4 := by
      rw [alignUp, recordHeadSize, Bytes.paddingFor, List.length_append, length_unitBytes,
        List.length_cons, List.length_singleton]
      omega
    dsimp only
    cases toUInt32 (alignUp (recordHeadSize + 2 + 2 * units.length) 4) with
    | error error => rfl
    | ok size =>
      refine (fillBlob_eq .forwardIterator (appends_fillClass size units) hroom).trans ?_
      rw [hpadding]
      show Except.ok _ = Except.ok _
      rw [recordHead, classPayload]
      simp only [List.append_assoc]

/-- Filling a buffer with the blob of ranges never runs out of the buffer, and gives the blob that
is encoded. -/
theorem fillIteratorScopes_eq (scopes : List Span) :
    fillIteratorScopes scopes = encodeIteratorScopes scopes := by
  rw [fillIteratorScopes, encodeIteratorScopes]
  have hroom : 4 + (8 + 8 * scopes.length) ≤ recordHeadSize + 4 + 8 * scopes.length := by
    rw [recordHeadSize]
    omega
  have hpadding : recordHeadSize + 4 + 8 * scopes.length - (4 + (8 + 8 * scopes.length)) = 0 := by
    rw [recordHeadSize]
    omega
  cases toUInt32 (recordHeadSize + 4 + 8 * scopes.length) with
  | error error => rfl
  | ok size =>
    cases toUInt32 scopes.length with
    | error error => rfl
    | ok count =>
      refine (fillBlob_eq .iteratorScopes (appends_fillScopes size count scopes) hroom).trans ?_
      rw [hpadding]
      cases scopes.mapM rangeBytes with
      | error error => rfl
      | ok ranges =>
        show Except.ok _ = Except.ok _
        rw [recordHead]
        simp only [List.append_assoc, List.replicate_zero, List.append_nil]

/-! ## Every byte -/

/-- The size of a class record for so many code units: ten bytes and two for each unit, rounded up
to a multiple of four. -/
def classSize (count : Nat) : Nat := (10 + 2 * count + 3) / 4 * 4

/-- The size is the only multiple of four that has room for the record and less than four bytes of
padding. -/
theorem classSize_spec (count : Nat) :
    classSize count % 4 = 0 ∧ 10 + 2 * count ≤ classSize count ∧
      classSize count < 10 + 2 * count + 4 := by
  rw [classSize]
  omega

/-- The bytes of the blob that names a class. -/
def classBlob (name : String) : List UInt8 :=
  let units := Text.Utf16.encode name.toList
  let size := classSize units.length
  [4, 1, 0, 0, 4, 4, 0, 0] ++ Bytes.ofNat 4 size ++
    units.flatMap (fun unit => Bytes.ofNat 2 unit.toNat) ++ [0, 0] ++
      List.replicate (4 + size - (14 + 2 * units.length)) 0

/-- The bytes of the blob that lists ranges. -/
def scopesBlob (scopes : List Span) : List UInt8 :=
  [4, 1, 0, 0, 4, 3, 0, 0] ++ Bytes.ofNat 4 (8 * scopes.length + 12) ++
    Bytes.ofNat 4 scopes.length ++
      scopes.flatMap fun scope =>
        Bytes.ofNat 4 scope.offset.toNat ++
          Bytes.ofNat 4 (scope.offset.toNat + scope.length.toNat)

/-- Whether a blob is the one that names a class. -/
structure NamesClass (name : String) (blob : List UInt8) : Prop where
  nul_notMem : '\x00' ∉ name.toList
  size_le : classSize (Text.Utf16.encode name.toList).length ≤ 0xFFFFFFFF
  bytes_eq : blob = classBlob name

/-- Whether a blob is the one that lists ranges. -/
structure ListsScopes (scopes : List Span) (blob : List UInt8) : Prop where
  size_le : 8 * scopes.length + 12 ≤ 0xFFFFFFFF
  ends_le : ∀ scope ∈ scopes, scope.offset.toNat + scope.length.toNat ≤ 0xFFFFFFFF
  bytes_eq : blob = scopesBlob scopes

theorem size_iteratorClass_eq_classSize (name : String) :
    (Record.iteratorClass name).size = classSize (Text.Utf16.encode name.toList).length := by
  rw [size_iteratorClass, alignUp, recordHeadSize, classSize]

theorem layout_iteratorClass (name : String) :
    layout [.iteratorClass name] = classBlob name := by
  have hpadding : (4 - (nameLayout name).length % 4) % 4 =
      4 + classSize (Text.Utf16.encode name.toList).length -
        (14 + 2 * (Text.Utf16.encode name.toList).length) := by
    have hsize := classSize_spec (Text.Utf16.encode name.toList).length
    rw [length_nameLayout]
    omega
  rw [layout, List.flatMap_cons, List.flatMap_nil, List.append_nil, Record.layout,
    size_iteratorClass_eq_classSize, Record.payload, padded, hpadding, nameLayout, classBlob]
  simp only [List.append_assoc]
  rfl

theorem layout_iteratorScopes (scopes : List Span) :
    layout [.iteratorScopes scopes] = scopesBlob scopes := by
  have hsize : (Record.iteratorScopes scopes).size = 8 * scopes.length + 12 := by
    rw [size_iteratorScopes, recordHeadSize]
    omega
  rw [layout, List.flatMap_cons, List.flatMap_nil, List.append_nil, Record.layout, hsize,
    Record.payload, scopesBlob]
  simp only [List.append_assoc]
  rfl

theorem encodeIteratorClass_eq_ok_iff_namesClass {name : String} {blob : List UInt8} :
    encodeIteratorClass name = .ok blob ↔ NamesClass (withoutTerminator name) blob := by
  rw [encodeIteratorClass_eq_ok_iff, layout_iteratorClass]
  constructor
  · rintro ⟨⟨hnul, hlt⟩, hblob⟩
    rw [size_iteratorClass_eq_classSize] at hlt
    exact ⟨hnul, Nat.le_of_lt_succ hlt, hblob⟩
  · rintro ⟨hnul, hle, hblob⟩
    rw [← size_iteratorClass_eq_classSize] at hle
    exact ⟨⟨hnul, Nat.lt_succ_of_le hle⟩, hblob⟩

theorem encodeIteratorScopes_eq_ok_iff_listsScopes {scopes : List Span} {blob : List UInt8} :
    encodeIteratorScopes scopes = .ok blob ↔ ListsScopes scopes blob := by
  have hsize : (Record.iteratorScopes scopes).size = 8 * scopes.length + 12 := by
    rw [size_iteratorScopes, recordHeadSize]
    omega
  rw [encodeIteratorScopes_eq_ok_iff, layout_iteratorScopes]
  constructor
  · rintro ⟨⟨hends, hlt⟩, hblob⟩
    rw [hsize] at hlt
    exact ⟨Nat.le_of_lt_succ hlt, fun scope hmem => Nat.le_of_lt_succ (hends scope hmem), hblob⟩
  · rintro ⟨hle, hends, hblob⟩
    rw [← hsize] at hle
    exact ⟨⟨fun scope hmem => Nat.lt_succ_of_le (hends scope hmem), Nat.lt_succ_of_le hle⟩, hblob⟩

/-! ## Every error -/

theorem failsOnly_encodeIteratorClass (name : String) :
    FailsOnly SymbolError.IsInvalidTree (encodeIteratorClass name) := by
  rw [encodeIteratorClass]
  split
  · exact FailsOnly.error trivial
  · exact FailsOnly.bind (FailsOnly.toUInt32 _) fun _ => FailsOnly.ok _

theorem failsOnly_encodeIteratorScopes (scopes : List Span) :
    FailsOnly SymbolError.IsInvalidTree (encodeIteratorScopes scopes) := by
  have hrange : ∀ scope, FailsOnly SymbolError.IsInvalidTree (rangeBytes scope) := fun scope =>
    FailsOnly.bind (FailsOnly.stop scope) fun _ => FailsOnly.ok _
  exact FailsOnly.bind (FailsOnly.toUInt32 _) fun _ => FailsOnly.bind (FailsOnly.toUInt32 _)
    fun _ => FailsOnly.bind (FailsOnly.mapM hrange scopes) fun _ => FailsOnly.ok _

/-- The encoders are exact to the byte. Filling a buffer in place gives what they give, so no write
runs out of a buffer, and all that they fail with is an invalid tree. Ranges have a blob exactly if
their record and their ends fit 32 bits, and it is `scopesBlob`. A name has a blob exactly if,
without a NUL character at its very end, it holds none and its record fits 32 bits, and it is
`classBlob` of what is left; so the blobs of a name are the ones that name it exactly if it holds no
NUL character or is refused. -/
theorem encoders_byte_exact (name : String) (scopes : List Span) :
    (fillIteratorClass name = encodeIteratorClass name ∧
      FailsOnly SymbolError.IsInvalidTree (encodeIteratorClass name) ∧
      (∀ blob, encodeIteratorClass name = .ok blob ↔ NamesClass (withoutTerminator name) blob) ∧
      ((∀ blob, encodeIteratorClass name = .ok blob ↔ NamesClass name blob) ↔
        '\x00' ∉ name.toList ∨ ∃ error, encodeIteratorClass name = .error error)) ∧
    fillIteratorScopes scopes = encodeIteratorScopes scopes ∧
      FailsOnly SymbolError.IsInvalidTree (encodeIteratorScopes scopes) ∧
      ∀ blob, encodeIteratorScopes scopes = .ok blob ↔ ListsScopes scopes blob := by
  refine ⟨⟨fillIteratorClass_eq name, failsOnly_encodeIteratorClass name,
    fun _ => encodeIteratorClass_eq_ok_iff_namesClass, ?_⟩, fillIteratorScopes_eq scopes,
    failsOnly_encodeIteratorScopes scopes, fun _ => encodeIteratorScopes_eq_ok_iff_listsScopes⟩
  constructor
  · intro hclaim
    cases hresult : encodeIteratorClass name with
    | error error => exact Or.inr ⟨error, rfl⟩
    | ok blob => exact Or.inl ((hclaim blob).1 hresult).nul_notMem
  · rintro (hnul | ⟨error, herror⟩) blob
    · rw [encodeIteratorClass_eq_ok_iff_namesClass, withoutTerminator_of_notMem hnul]
    · constructor
      · intro h
        rw [herror] at h
        cases h
      · intro h
        rw [encodeIteratorClass_eq_ok_iff_namesClass, withoutTerminator_of_notMem h.nul_notMem]
        exact h

/-- A name with a NUL character at its end is given a blob, although none names it. -/
theorem blob_despite_final_nul :
    encodeIteratorClass "X\x00" = .ok [4, 1, 0, 0, 4, 4, 0, 0, 12, 0, 0, 0, 0x58, 0, 0, 0] ∧
      ¬ ∀ blob, encodeIteratorClass "X\x00" = .ok blob ↔ NamesClass "X\x00" blob := by
  have hblob : encodeIteratorClass "X\x00" =
      .ok [4, 1, 0, 0, 4, 4, 0, 0, 12, 0, 0, 0, 0x58, 0, 0, 0] := rfl
  refine ⟨hblob, ?_⟩
  intro hclaim
  exact ((hclaim _).1 hblob).nul_notMem (by decide)

end DebugSymbols.Metadata
