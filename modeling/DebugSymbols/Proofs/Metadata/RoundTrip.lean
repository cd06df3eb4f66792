import DebugSymbols.Proofs.Metadata.Decode

/-!
# Writing and reading are inverse to each other

Both encoders succeed exactly if their one record is valid, and then they give its blob. Hence what
they write is read back, and a blob of one known record is what its encoder writes. The class of an
iterator is the exception: one NUL character at the very end of its name is taken for the terminator
and is lost.
-/

namespace DebugSymbols.Metadata

open Bytes (Word)

/-- A name without the NUL character at its very end, if there is one. -/
def withoutTerminator (name : String) : String :=
  if name.toList.getLast? = some '\x00' then String.ofList name.toList.dropLast else name

theorem toList_withoutTerminator (name : String) :
    (withoutTerminator name).toList =
      if name.toList.getLast? = some '\x00' then name.toList.dropLast else name.toList := by
  rw [withoutTerminator]
  split
  · rw [String.toList_ofList]
  · rfl

/-- A name without NUL characters keeps all its characters. -/
theorem withoutTerminator_of_notMem {name : String} (h : '\x00' ∉ name.toList) :
    withoutTerminator name = name := by
  rw [withoutTerminator, if_neg]
  intro hlast
  exact h (List.mem_of_getLast? hlast)

/-- A name that holds no other NUL character keeps all its characters only if it holds none. -/
theorem withoutTerminator_eq_self_iff {name : String}
    (h : '\x00' ∉ (withoutTerminator name).toList) :
    withoutTerminator name = name ↔ '\x00' ∉ name.toList := by
  constructor
  · intro heq
    rw [← heq]
    exact h
  · exact withoutTerminator_of_notMem

/-! ## The encoders -/

theorem toUInt32_eq_ok_iff {n : Nat} {word : UInt32} :
    toUInt32 n = .ok word ↔ n < UInt32.size ∧ word = UInt32.ofNat n := by
  rw [toUInt32]
  by_cases h : n < UInt32.size
  · simp [h, eq_comm]
  · simp [h]

/-- The blob of a single record. -/
theorem layout_singleton {record : Record} (h : record.size < UInt32.size) :
    layout [record] = blobHead 1 ++ recordHead record.kind (UInt32.ofNat record.size) ++
      record.payload := by
  rw [recordHead, toBytes_ofNat h]
  rw [layout, List.flatMap_cons, List.flatMap_nil, List.append_nil, Record.layout]
  exact (List.append_assoc _ _ _).symm

theorem classNameUnits?_eq (name : String) :
    classNameUnits? name =
      if '\x00' ∈ (withoutTerminator name).toList then none
      else some (Text.Utf16.encode (withoutTerminator name).toList) := by
  rw [classNameUnits?, toList_withoutTerminator]

/-- The size field of a class record is the size of the record. -/
theorem size_iteratorClass (name : String) :
    (Record.iteratorClass name).size =
      Bytes.alignUp (recordHeadSize + 2 + 2 * (Text.Utf16.encode name.toList).length) 4 := by
  rw [Record.size, Record.payload, padded, List.length_append, List.length_replicate,
    length_nameLayout, Bytes.alignUp, recordHeadSize]
  omega

/-- Writing a class succeeds exactly if its record is valid, and gives the record's blob. -/
theorem encodeIteratorClass_eq_ok_iff {name : String} {blob : List UInt8} :
    encodeIteratorClass name = .ok blob ↔
      (Record.iteratorClass (withoutTerminator name)).Valid ∧
        blob = layout [.iteratorClass (withoutTerminator name)] := by
  rw [encodeIteratorClass, classNameUnits?_eq]
  by_cases hnul : '\x00' ∈ (withoutTerminator name).toList
  · rw [if_pos hnul]
    constructor
    · intro h
      cases h
    · rintro ⟨hvalid, -⟩
      exact absurd hnul hvalid.sound
  · rw [if_neg hnul]
    simp only [bind_eq_ok_iff, toUInt32_eq_ok_iff, ← size_iteratorClass]
    constructor
    · rintro ⟨_, ⟨hlt, rfl⟩, hblob⟩
      cases hblob
      exact ⟨⟨hnul, hlt⟩, (layout_singleton hlt).symm⟩
    · rintro ⟨⟨-, hlt⟩, rfl⟩
      exact ⟨_, ⟨hlt, rfl⟩, congrArg Except.ok (layout_singleton hlt).symm⟩

theorem rangeBytes_eq_ok_iff {scope : Span} {bytes : List UInt8} :
    rangeBytes scope = .ok bytes ↔ scope.reach < UInt32.size ∧ bytes = rangeLayout scope := by
  simp only [rangeBytes, bind_eq_ok_iff, Span.stop_eq_ok_iff]
  constructor
  · rintro ⟨_, ⟨hreach, rfl⟩, hbytes⟩
    cases hbytes
    exact ⟨hreach, (rangeLayout_eq hreach).symm⟩
  · rintro ⟨hreach, rfl⟩
    exact ⟨_, ⟨hreach, rfl⟩, congrArg Except.ok (rangeLayout_eq hreach).symm⟩

theorem mapM_rangeBytes_eq_ok_iff {scopes : List Span} {ranges : List (List UInt8)} :
    scopes.mapM rangeBytes = .ok ranges ↔
      (∀ scope ∈ scopes, scope.reach < UInt32.size) ∧ ranges = scopes.map rangeLayout := by
  induction scopes generalizing ranges with
  | nil =>
    rw [List.mapM_nil]
    constructor
    · intro h
      cases h
      exact ⟨by simp, rfl⟩
    · rintro ⟨-, rfl⟩
      rfl
  | cons scope scopes ih =>
    simp only [List.mapM_cons, bind_eq_ok_iff, rangeBytes_eq_ok_iff, ih, List.forall_mem_cons]
    constructor
    · rintro ⟨_, ⟨hreach, rfl⟩, _, ⟨hreaches, rfl⟩, h⟩
      cases h
      exact ⟨⟨hreach, hreaches⟩, rfl⟩
    · rintro ⟨⟨hreach, hreaches⟩, rfl⟩
      exact ⟨_, ⟨hreach, rfl⟩, _, ⟨hreaches, rfl⟩, rfl⟩

/-- The size field of a scopes record is the size of the record. -/
theorem size_iteratorScopes (scopes : List Span) :
    (Record.iteratorScopes scopes).size = recordHeadSize + 4 + 8 * scopes.length := by
  rw [Record.size, Record.payload, List.length_append, Bytes.length_ofNat,
    length_flatMap_rangeLayout, recordHeadSize]
  omega

/-- Writing ranges succeeds exactly if their record is valid, and gives the record's blob. -/
theorem encodeIteratorScopes_eq_ok_iff {scopes : List Span} {blob : List UInt8} :
    encodeIteratorScopes scopes = .ok blob ↔
      (Record.iteratorScopes scopes).Valid ∧ blob = layout [.iteratorScopes scopes] := by
  simp only [encodeIteratorScopes, bind_eq_ok_iff, toUInt32_eq_ok_iff, mapM_rangeBytes_eq_ok_iff,
    ← size_iteratorScopes]
  have hpayload : scopes.length < UInt32.size → (Record.iteratorScopes scopes).payload =
      Word.toBytes (UInt32.ofNat scopes.length) ++ (scopes.map rangeLayout).flatten := by
    intro hlt
    rw [toBytes_ofNat hlt, Record.payload, List.flatMap_def]
  constructor
  · rintro ⟨_, ⟨hlt, rfl⟩, _, ⟨hcount, rfl⟩, _, ⟨hreaches, rfl⟩, h⟩
    cases h
    refine ⟨⟨hreaches, hlt⟩, ?_⟩
    rw [layout_singleton hlt, hpayload hcount, List.append_assoc, List.append_assoc,
      List.append_assoc]
    rfl
  · rintro ⟨⟨hreaches, hlt⟩, rfl⟩
    have hcount : scopes.length < UInt32.size := by
      have hsize := size_iteratorScopes scopes
      omega
    refine ⟨_, ⟨hlt, rfl⟩, _, ⟨hcount, rfl⟩, _, ⟨hreaches, rfl⟩, ?_⟩
    rw [layout_singleton hlt, hpayload hcount, ← List.append_assoc]
    rfl

/-! ## Both ways -/

/-- A single valid record is read back from its blob. -/
theorem decode_layout_singleton {record : Record} (h : record.Valid) :
    decode (layout [record]) = .ok [record] :=
  decode_eq_ok_iff.2 ⟨⟨by simp, by simpa using h⟩, rfl⟩

/-- A blob that is read as a single known record is what its encoder writes. -/
theorem encode?_of_decode {blob : List UInt8} {record : Record} (h : decode blob = .ok [record])
    (hknown : record.isKnown = true) : encode? record = some (.ok blob) := by
  obtain ⟨⟨-, hvalid⟩, rfl⟩ := decode_eq_ok_iff.1 h
  have hrecord := hvalid record List.mem_cons_self
  cases record with
  | iteratorClass name =>
    have hname : withoutTerminator name = name := withoutTerminator_of_notMem hrecord.sound
    rw [encode?, encodeIteratorClass_eq_ok_iff.2 ⟨hname.symm ▸ hrecord, rfl⟩, hname]
  | iteratorScopes scopes => rw [encode?, encodeIteratorScopes_eq_ok_iff.2 ⟨hrecord, rfl⟩]
  | unknown kind data => cases hknown

/-- Encoders and decoder are inverse to each other, but for NUL characters in the name of a class:
what is written for a name is read as the name without a NUL character at its very end, and so it is
read as the name itself exactly if the name holds none. -/
theorem encode_decode_inverse (name : String) (scopes : List Span) (record : Record)
    (blob : List UInt8) :
    (encodeIteratorClass name = .ok blob →
        decode blob = .ok [.iteratorClass (withoutTerminator name)] ∧
          (decode blob = .ok [.iteratorClass name] ↔ '\x00' ∉ name.toList)) ∧
      (encodeIteratorScopes scopes = .ok blob → decode blob = .ok [.iteratorScopes scopes]) ∧
        (decode blob = .ok [record] → record.isKnown = true →
          encode? record = some (.ok blob)) := by
  refine ⟨?_, ?_, encode?_of_decode⟩
  · intro h
    obtain ⟨hvalid, rfl⟩ := encodeIteratorClass_eq_ok_iff.1 h
    have hread := decode_layout_singleton hvalid
    refine ⟨hread, ?_⟩
    rw [hread, ← withoutTerminator_eq_self_iff hvalid.sound]
    simp
  · intro h
    obtain ⟨hvalid, rfl⟩ := encodeIteratorScopes_eq_ok_iff.1 h
    exact decode_layout_singleton hvalid

/-- A name with a surrogate pair and a range that ends at the last offset, there and back. -/
theorem encode_decode_surrogates :
    (encodeIteratorClass "A😀" =
        .ok [4, 1, 0, 0, 4, 4, 0, 0, 16, 0, 0, 0, 0x41, 0, 0x3D, 0xD8, 0x00, 0xDE, 0, 0] ∧
      decode [4, 1, 0, 0, 4, 4, 0, 0, 16, 0, 0, 0, 0x41, 0, 0x3D, 0xD8, 0x00, 0xDE, 0, 0] =
        .ok [.iteratorClass "A😀"] ∧
      encode? (.iteratorClass "A😀") = some (.ok
        [4, 1, 0, 0, 4, 4, 0, 0, 16, 0, 0, 0, 0x41, 0, 0x3D, 0xD8, 0x00, 0xDE, 0, 0])) ∧
    (encodeIteratorScopes [⟨0xFFFFFFF0, 15⟩] =
        .ok [4, 1, 0, 0, 4, 3, 0, 0, 20, 0, 0, 0, 1, 0, 0, 0,
          0xF0, 0xFF, 0xFF, 0xFF, 0xFF, 0xFF, 0xFF, 0xFF] ∧
      decode [4, 1, 0, 0, 4, 3, 0, 0, 20, 0, 0, 0, 1, 0, 0, 0,
          0xF0, 0xFF, 0xFF, 0xFF, 0xFF, 0xFF, 0xFF, 0xFF] =
        .ok [.iteratorScopes [⟨0xFFFFFFF0, 15⟩]] ∧
      encode? (.iteratorScopes [⟨0xFFFFFFF0, 15⟩]) = some (.ok
        [4, 1, 0, 0, 4, 3, 0, 0, 20, 0, 0, 0, 1, 0, 0, 0,
          0xF0, 0xFF, 0xFF, 0xFF, 0xFF, 0xFF, 0xFF, 0xFF])) := by
  have hname : encodeIteratorClass "A😀" =
      .ok [4, 1, 0, 0, 4, 4, 0, 0, 16, 0, 0, 0, 0x41, 0, 0x3D, 0xD8, 0x00, 0xDE, 0, 0] := by cbv
  have hranges : encodeIteratorScopes [⟨0xFFFFFFF0, 15⟩] =
      .ok [4, 1, 0, 0, 4, 3, 0, 0, 20, 0, 0, 0, 1, 0, 0, 0,
        0xF0, 0xFF, 0xFF, 0xFF, 0xFF, 0xFF, 0xFF, 0xFF] := by cbv
  obtain ⟨hclass, -, hclassBack⟩ := encode_decode_inverse "A😀" [] (.iteratorClass "A😀")
    [4, 1, 0, 0, 4, 4, 0, 0, 16, 0, 0, 0, 0x41, 0, 0x3D, 0xD8, 0x00, 0xDE, 0, 0]
  obtain ⟨-, hscopes, hscopesBack⟩ := encode_decode_inverse "" [⟨0xFFFFFFF0, 15⟩]
    (.iteratorScopes [⟨0xFFFFFFF0, 15⟩])
    [4, 1, 0, 0, 4, 3, 0, 0, 20, 0, 0, 0, 1, 0, 0, 0,
      0xF0, 0xFF, 0xFF, 0xFF, 0xFF, 0xFF, 0xFF, 0xFF]
  have hclassRead := (hclass hname).2.2 (by decide)
  exact ⟨⟨hname, hclassRead, hclassBack hclassRead rfl⟩,
    hranges, hscopes hranges, hscopesBack (hscopes hranges) rfl⟩

/-- The NUL character at the end of a name is lost. -/
theorem encode_loses_final_nul :
    encodeIteratorClass "X\x00" = .ok [4, 1, 0, 0, 4, 4, 0, 0, 12, 0, 0, 0, 0x58, 0, 0, 0] ∧
      decode [4, 1, 0, 0, 4, 4, 0, 0, 12, 0, 0, 0, 0x58, 0, 0, 0] ≠
        .ok [.iteratorClass "X\x00"] := by
  have hread : decode [4, 1, 0, 0, 4, 4, 0, 0, 12, 0, 0, 0, 0x58, 0, 0, 0] =
      .ok [.iteratorClass "X"] := by cbv
  refine ⟨rfl, ?_⟩
  rw [hread]
  simp

end DebugSymbols.Metadata
