import DebugSymbols.Proofs.Metadata.Faults

/-!
# Complete blobs

A sequence of bytes is complete if nothing that it announces is missing: it has a head, and for each
record that the head counts a frame, which is a head with a size and as many bytes as the size says.
What the frames hold may be anything.

To read a complete sequence should name what is at fault in it, as no byte is missing. It does, with
one exception: the frame of a scopes record that is sound up to its size and has no payload. Its
count is looked for behind the end of the payload, and so it is out of bounds.
-/

namespace DebugSymbols.Metadata

open Bytes (Cursor Word)

/-! ## Frames -/

/-- The head of a record, whatever it holds, and as many bytes as its size announces. -/
structure Frame where
  version : UInt8
  kind : UInt8
  padding : UInt8 × UInt8
  payload : List UInt8
  aligned : payload.length % 4 = 0
  fits : 8 + payload.length < UInt32.size

namespace Frame

/-- The bytes of a frame. -/
def bytes (frame : Frame) : List UInt8 :=
  [frame.version, frame.kind, frame.padding.1, frame.padding.2] ++
    Bytes.ofNat 4 (8 + frame.payload.length) ++ frame.payload

/-- Whether a frame is that of a record that can stand in a blob. -/
def IsRecord (frame : Frame) : Prop := ∃ record : Record, record.Valid ∧ frame.bytes = record.layout

/-- Whether a frame is sound up to its size, of the kind of scopes, and without a payload. -/
structure MissesCount (frame : Frame) : Prop where
  version_eq : frame.version = 4
  kind_eq : frame.kind = 3
  padding_eq : frame.padding = (0, 0)
  payload_eq : frame.payload = []

theorem length_bytes_mod (frame : Frame) : frame.bytes.length % 4 = 0 := by
  have haligned := frame.aligned
  rw [bytes, List.length_append, List.length_append, Bytes.length_ofNat]
  show (4 + 4 + _) % 4 = 0
  omega

end Frame

theorem malformed_ne_outOfBounds {α : Type} {fault : BlobFault} :
    (malformed fault : Except SymbolError α) ≠ .error .outOfBounds := by
  intro h
  cases h

/-- Behind version and kind of something aligned, the padding is the next two bytes. -/
theorem skipPadding_of_passes {cursor next : Cursor} {padding : UInt8 × UInt8}
    (haligned : cursor.position % 4 = 2) (h : cursor.Passes [padding.1, padding.2] next) :
    skipPadding cursor =
      if padding = (0, 0) then .ok next else malformed (.headerPadding next.position) := by
  have hpadding : Bytes.paddingFor cursor.position 4 = 2 := by
    rw [Bytes.paddingFor]
    omega
  have halign : cursor.align 4 = .ok ([padding.1, padding.2], next) :=
    Cursor.align_eq_ok_iff.2 ⟨hpadding.symm, h⟩
  rw [skipPadding, halign]
  by_cases hzero : padding = (0, 0)
  · rw [if_pos hzero, hzero]
    rfl
  · have hany : [padding.1, padding.2].any (· != 0) = true := by
      rw [← Bool.not_eq_false, ← Bool.not_eq_true, any_ne_zero_eq_false]
      intro hall
      injection hall with hfirst hall
      injection hall with hsecond _
      exact hzero (Prod.ext hfirst hsecond)
    rw [if_neg hzero]
    show (if _ then _ else _) = _
    rw [if_pos hany]
    rfl

variable {frame : Frame} {cursor next : Cursor}

/-- From a multiple of four on, a frame is read whole, and what is made of it is decided by its head
and its payload. -/
theorem decodeRecord_of_passes (haligned : cursor.position % 4 = 0)
    (h : cursor.Passes frame.bytes next) :
    decodeRecord cursor =
      if frame.version ≠ 4 then malformed (.recordVersion frame.version)
      else if frame.padding ≠ (0, 0) then malformed (.headerPadding (cursor.position + 4))
      else (decodePayload frame.kind frame.payload).map fun record => (record, next) := by
  have hfits := frame.fits
  have hbytes : frame.bytes = [frame.version] ++ [frame.kind] ++
      [frame.padding.1, frame.padding.2] ++ Word.toBytes (UInt32.ofNat (8 + frame.payload.length)) ++
        frame.payload := by
    rw [toBytes_ofNat hfits]
    rfl
  rw [hbytes] at h
  obtain ⟨fourth, h, hpayload⟩ := Cursor.passes_append_iff.1 h
  obtain ⟨third, h, hsize⟩ := Cursor.passes_append_iff.1 h
  obtain ⟨second, h, hpadding⟩ := Cursor.passes_append_iff.1 h
  obtain ⟨first, hversion, hkind⟩ := Cursor.passes_append_iff.1 h
  have hsecond : second.position = cursor.position + 2 := by
    rw [hkind.position_eq, hversion.position_eq]
    rfl
  have hsecond_mod : second.position % 4 = 2 := by omega
  have hthird : third.position = cursor.position + 4 := by
    rw [hpadding.position_eq, hsecond]
    rfl
  have hnat : (UInt32.ofNat (8 + frame.payload.length)).toNat = 8 + frame.payload.length :=
    UInt32.toNat_ofNat_of_lt' hfits
  rw [← toBytes_uint8, ← Cursor.read_eq_ok_iff] at hversion hkind
  rw [← Cursor.read_eq_ok_iff] at hsize
  have htake : fourth.take (8 + frame.payload.length - recordHeadSize) =
      .ok (frame.payload, next) :=
    Cursor.take_eq_ok_iff.2 ⟨(Nat.add_sub_cancel_left _ _).symm, hpayload⟩
  have haccepted : ¬ (8 + frame.payload.length < recordHeadSize ∨
      (8 + frame.payload.length) % 4 ≠ 0) := by
    have hmod := frame.aligned
    rw [recordHeadSize]
    omega
  simp only [decodeRecord, hversion, hkind, ok_bind, skipPadding_of_passes hsecond_mod hpadding,
    hthird]
  by_cases hfound : frame.version ≠ 4
  · rw [if_pos hfound]
    exact if_pos hfound
  · rw [if_neg hfound]
    refine (if_neg hfound).trans ?_
    by_cases hzero : frame.padding ≠ (0, 0)
    · rw [if_neg hzero, if_pos hzero]
      rfl
    · rw [if_neg hzero, if_pos (Decidable.not_not.1 hzero)]
      simp only [ok_bind, hsize, hnat, if_neg haccepted, htake]
      cases decodePayload frame.kind frame.payload with
      | error error => rfl
      | ok record => rfl

/-- A frame is out of bounds exactly if it misses a count. -/
theorem decodeRecord_eq_outOfBounds_iff (haligned : cursor.position % 4 = 0)
    (h : cursor.Passes frame.bytes next) :
    decodeRecord cursor = .error .outOfBounds ↔ frame.MissesCount := by
  have hpayload : frame.payload.length < 4 ↔ frame.payload = [] := by
    have hmod := frame.aligned
    rw [← List.length_eq_zero_iff]
    omega
  rw [decodeRecord_of_passes haligned h]
  by_cases hversion : frame.version ≠ 4
  · rw [if_pos hversion]
    exact ⟨fun hread => absurd hread malformed_ne_outOfBounds,
      fun hmisses => absurd hmisses.version_eq hversion⟩
  by_cases hpadding : frame.padding ≠ (0, 0)
  · rw [if_neg hversion, if_pos hpadding]
    exact ⟨fun hread => absurd hread malformed_ne_outOfBounds,
      fun hmisses => absurd hmisses.padding_eq hpadding⟩
  rw [if_neg hversion, if_neg hpadding, map_eq_error_iff, decodePayload_eq_outOfBounds_iff, hpayload]
  constructor
  · rintro ⟨hkind, hnone⟩
    exact ⟨Decidable.not_not.1 hversion, hkind, Decidable.not_not.1 hpadding, hnone⟩
  · intro hmisses
    exact ⟨hmisses.kind_eq, hmisses.payload_eq⟩

/-- A frame is read exactly if it is that of a record, and then all of it is read. -/
theorem decodeRecord_eq_ok_iff_isRecord (haligned : cursor.position % 4 = 0)
    (h : cursor.Passes frame.bytes next) {last : Cursor} :
    (∃ record, decodeRecord cursor = .ok (record, last)) ↔ frame.IsRecord ∧ last = next := by
  constructor
  · rintro ⟨record, hread⟩
    have hlast : last = next := by
      rw [decodeRecord_of_passes haligned h] at hread
      split at hread
      · cases hread
      split at hread
      · cases hread
      obtain ⟨_, -, heq⟩ := map_eq_ok_iff.1 hread
      cases heq
      rfl
    subst hlast
    obtain ⟨hvalid, hpasses⟩ := (decodeRecord_eq_ok_iff haligned).1 hread
    exact ⟨⟨record, hvalid, h.bytes_eq hpasses⟩, rfl⟩
  · rintro ⟨⟨record, hvalid, hbytes⟩, rfl⟩
    rw [hbytes] at h
    exact ⟨record, (decodeRecord_eq_ok_iff haligned).2 ⟨hvalid, h⟩⟩

/-! ## Frames in a row -/

/-- Whether the first frame that is no record misses a count. -/
def MeetsMissingCount (frames : List Frame) : Prop :=
  ∃ front frame back, frames = front ++ frame :: back ∧ (∀ earlier ∈ front, earlier.IsRecord) ∧
    frame.MissesCount

theorem not_meetsMissingCount_nil : ¬ MeetsMissingCount [] := by
  rintro ⟨front, frame, back, hframes, -⟩
  exact List.append_ne_nil_of_right_ne_nil front (List.cons_ne_nil frame back) hframes.symm

theorem meetsMissingCount_cons_iff {frames : List Frame} :
    MeetsMissingCount (frame :: frames) ↔
      frame.MissesCount ∨ frame.IsRecord ∧ MeetsMissingCount frames := by
  constructor
  · rintro ⟨front, found, back, hframes, hfront, hmisses⟩
    cases front with
    | nil =>
      cases hframes
      exact Or.inl hmisses
    | cons first front =>
      cases hframes
      obtain ⟨hfirst, hfront⟩ := List.forall_mem_cons.1 hfront
      exact Or.inr ⟨hfirst, front, found, back, rfl, hfront, hmisses⟩
  · rintro (hmisses | ⟨hrecord, front, found, back, rfl, hfront, hmisses⟩)
    · exact ⟨[], frame, frames, rfl, by simp, hmisses⟩
    · exact ⟨frame :: front, found, back, rfl, List.forall_mem_cons.2 ⟨hrecord, hfront⟩, hmisses⟩

/-- From a multiple of four on, frames in a row are out of bounds exactly if the first of them that
is no record misses a count. -/
theorem decodeRecords_eq_outOfBounds_iff {frames : List Frame} (haligned : cursor.position % 4 = 0)
    (h : cursor.Passes (frames.flatMap Frame.bytes) next) :
    decodeRecords frames.length cursor = .error .outOfBounds ↔ MeetsMissingCount frames := by
  induction frames generalizing cursor with
  | nil =>
    constructor
    · intro hread
      cases hread
    · intro hmeets
      exact absurd hmeets not_meetsMissingCount_nil
  | cons frame frames ih =>
    rw [List.flatMap_cons] at h
    obtain ⟨middle, hframe, hframes⟩ := Cursor.passes_append_iff.1 h
    have hmiddle : middle.position % 4 = 0 := by
      have hmod := frame.length_bytes_mod
      rw [hframe.position_eq]
      omega
    have hrest : ∀ record : Record, (decodeRecords frames.length middle >>= fun rest =>
        Except.ok (record :: rest.1, rest.2)) = .error .outOfBounds ↔ MeetsMissingCount frames := by
      intro record
      rw [bind_eq_error_iff, ih hmiddle hframes, or_iff_left]
      rintro ⟨_, -, hread⟩
      cases hread
    rw [List.length_cons, decodeRecords, bind_eq_error_iff,
      decodeRecord_eq_outOfBounds_iff haligned hframe, meetsMissingCount_cons_iff]
    refine or_congr_right ?_
    constructor
    · rintro ⟨⟨record, last⟩, hread, hlater⟩
      obtain ⟨hrecord, rfl⟩ := (decodeRecord_eq_ok_iff_isRecord haligned hframe).1 ⟨record, hread⟩
      exact ⟨hrecord, (hrest record).1 hlater⟩
    · rintro ⟨hrecord, hlater⟩
      obtain ⟨record, hread⟩ := (decodeRecord_eq_ok_iff_isRecord haligned hframe).2 ⟨hrecord, rfl⟩
      exact ⟨(record, middle), hread, (hrest record).2 hlater⟩

/-! ## Blobs -/

/-- A blob from which nothing is missing: its head, a frame for each record that the head counts,
and whatever follows them. -/
structure CompleteBlob where
  version : UInt8
  padding : UInt8 × UInt8
  frames : List Frame
  length_le : frames.length ≤ 255
  trailing : List UInt8

/-- The bytes of a complete blob. -/
def CompleteBlob.bytes (blob : CompleteBlob) : List UInt8 :=
  [blob.version, UInt8.ofNat blob.frames.length, blob.padding.1, blob.padding.2] ++
    blob.frames.flatMap Frame.bytes ++ blob.trailing

/-- A complete blob is out of bounds exactly if its head is sound and the first frame that is no
record is sound up to its size, of the kind of scopes, and without a payload. Every other fault in a
complete blob is reported as what it is. -/
theorem outOfBounds_of_complete (blob : CompleteBlob) :
    (decode blob.bytes = .error .outOfBounds ↔
        blob.version = 4 ∧ blob.padding = (0, 0) ∧ MeetsMissingCount blob.frames) ∧
      ∀ error, decode blob.bytes = .error error → error = .outOfBounds ∨ error.IsMalformed := by
  refine ⟨?_, fun error h => SymbolError.OfBlob.eq_or_isMalformed _ (failsOnly_decode _ _ h)⟩
  have hbytes : blob.bytes = [blob.version] ++ [UInt8.ofNat blob.frames.length] ++
      [blob.padding.1, blob.padding.2] ++ blob.frames.flatMap Frame.bytes ++ blob.trailing := rfl
  obtain ⟨last, hpasses, -⟩ := Cursor.start_passes_iff.2 hbytes
  obtain ⟨fourth, hpasses, -⟩ := Cursor.passes_append_iff.1 hpasses
  obtain ⟨third, hpasses, hframes⟩ := Cursor.passes_append_iff.1 hpasses
  obtain ⟨second, hpasses, hpadding⟩ := Cursor.passes_append_iff.1 hpasses
  obtain ⟨first, hversion, hcount⟩ := Cursor.passes_append_iff.1 hpasses
  have hsecond : second.position = 2 := by
    rw [hcount.position_eq, hversion.position_eq]
    rfl
  have hsecond_mod : second.position % 4 = 2 := by omega
  have hthird : third.position = second.position + 2 := hpadding.position_eq
  have hnat : (UInt8.ofNat blob.frames.length).toNat = blob.frames.length :=
    UInt8.toNat_ofNat_of_lt' (Nat.lt_succ_of_le blob.length_le)
  rw [← toBytes_uint8, ← Cursor.read_eq_ok_iff] at hversion hcount
  simp only [decode, hversion, hcount, ok_bind, skipPadding_of_passes hsecond_mod hpadding, hnat]
  by_cases hfound : blob.version ≠ version
  · rw [if_pos hfound]
    exact ⟨fun hread => absurd hread malformed_ne_outOfBounds,
      fun h => absurd h.1 hfound⟩
  by_cases hzero : blob.padding = (0, 0)
  · rw [if_neg hfound, if_pos hzero, ok_bind, bind_eq_error_iff,
      decodeRecords_eq_outOfBounds_iff (by omega) hframes, or_iff_left]
    · exact ⟨fun hmeets => ⟨Decidable.not_not.1 hfound, hzero, hmeets⟩, fun h => h.2.2⟩
    · rintro ⟨⟨records, last⟩, -, hread⟩
      dsimp only at hread
      split at hread
      · cases hread
      · cases hread
  · rw [if_neg hfound, if_neg hzero]
    exact ⟨fun hread => absurd hread malformed_ne_outOfBounds,
      fun h => absurd h.2.1 hzero⟩

/-- A class record without a payload is at fault, as its name has no end. -/
example : decode [4, 1, 0, 0, 4, 4, 0, 0, 8, 0, 0, 0] =
    .error (.malformed .unterminatedClassName) := by cbv

/-- The count of scopes without a payload is out of bounds, though no byte is missing. -/
theorem complete_scopes_outOfBounds :
    ∃ blob : CompleteBlob, blob.bytes = [4, 1, 0, 0, 4, 3, 0, 0, 8, 0, 0, 0] ∧
      decode blob.bytes = .error .outOfBounds := by
  have hread : decode [4, 1, 0, 0, 4, 3, 0, 0, 8, 0, 0, 0] = .error .outOfBounds := by cbv
  let scopes : Frame := ⟨4, 3, (0, 0), [], rfl, by decide⟩
  let blob : CompleteBlob := ⟨4, (0, 0), [scopes], by decide, []⟩
  have hbytes : blob.bytes = [4, 1, 0, 0, 4, 3, 0, 0, 8, 0, 0, 0] := by decide
  refine ⟨blob, hbytes, ?_⟩
  rw [hbytes]
  exact hread

end DebugSymbols.Metadata
