import DebugSymbols.Metadata.Decode
import DebugSymbols.Proofs.Bytes.Cursor
import DebugSymbols.Proofs.Metadata.Layout
import DebugSymbols.Proofs.Text.Utf16

/-!
# Reading accepts exactly the format

Every reader of the decoder is described by the bytes it passes. Records start at multiples of four,
so the padding behind version and kind is always two bytes; this is the invariant of the induction
over the records. Padding, counts and sizes are checked, so each list of records has one blob.
-/

namespace DebugSymbols.Metadata

open Bytes (Cursor Word)

/-! ## Checks -/

/-- What follows a check succeeds exactly if the check finds no fault. -/
theorem check_eq_ok_iff {α β : Type} {p : Prop} [Decidable p] {fault : BlobFault}
    {next : α → Except SymbolError β} {result : Except SymbolError β} {value : β} :
    (if p then malformed fault >>= next else result) = .ok value ↔ ¬ p ∧ result = .ok value := by
  by_cases h : p
  · rw [if_pos h]
    constructor
    · intro hfault
      cases hfault
    · rintro ⟨hnot, -⟩
      exact absurd h hnot
  · rw [if_neg h]
    exact (and_iff_right h).symm

/-- Bytes without a nonzero one are zeros. -/
theorem any_ne_zero_eq_false {bytes : List UInt8} :
    ¬ bytes.any (· != 0) = true ↔ bytes = List.replicate bytes.length 0 := by
  simp [List.eq_replicate_iff]

theorem toBytes_uint8 (byte : UInt8) : Word.toBytes byte = [byte] := by
  show [UInt8.ofNat byte.toNat] = _
  rw [UInt8.ofNat_toNat]

/-- Behind version and kind of something aligned, the padding is two zero bytes. -/
theorem skipPadding_eq_ok_iff {cursor next : Cursor} (h : cursor.position % 4 = 2) :
    skipPadding cursor = .ok next ↔ cursor.Passes [0, 0] next := by
  have hpadding : Bytes.paddingFor cursor.position 4 = 2 := by
    rw [Bytes.paddingFor]
    omega
  simp only [skipPadding, bind_eq_ok_iff, Prod.exists, Cursor.align_eq_ok_iff, check_eq_ok_iff,
    hpadding, any_ne_zero_eq_false]
  constructor
  · rintro ⟨padding, last, ⟨hlength, hpasses⟩, hzero, hlast⟩
    cases hlast
    rw [hzero, hlength] at hpasses
    exact hpasses
  · intro hpasses
    exact ⟨[0, 0], next, ⟨rfl, hpasses⟩, rfl, rfl⟩

/-! ## Class names -/

theorem unitsOf_unitBytes_append (units : List UInt16) (bytes : List UInt8) :
    unitsOf (unitBytes units ++ bytes) = units ++ unitsOf bytes := by
  induction units with
  | nil => rfl
  | cons unit units ih =>
    have hbytes : Word.toBytes unit = [UInt8.ofNat unit.toNat, UInt8.ofNat (unit.toNat / 256)] := rfl
    have hcons : unitBytes (unit :: units) ++ bytes =
        UInt8.ofNat unit.toNat :: UInt8.ofNat (unit.toNat / 256) :: (unitBytes units ++ bytes) := by
      rw [unitBytes, List.flatMap_cons, hbytes]
      rfl
    rw [hcons, unitsOf, ← hbytes, Word.ofBytes_toBytes, ih, List.cons_append]

/-- Bytes of even length are the bytes of their code units. -/
theorem unitBytes_unitsOf : ∀ {bytes : List UInt8}, bytes.length % 2 = 0 →
    unitBytes (unitsOf bytes) = bytes
  | [], _ => rfl
  | [byte], h => by
    rw [List.length_singleton] at h
    omega
  | low :: high :: rest, h => by
    have hrest : rest.length % 2 = 0 := by
      rw [List.length_cons, List.length_cons] at h
      omega
    have hpair : Word.toBytes (Word.ofBytes [low, high] : UInt16) = [low, high] :=
      Word.toBytes_ofBytes rfl
    rw [unitsOf, unitBytes, List.flatMap_cons, hpair]
    exact congrArg (fun tail => low :: high :: tail) (unitBytes_unitsOf hrest)

/-- Code units that are not all different from zero are a name, the terminator and a rest. -/
theorem eq_takeWhile_append {units : List UInt16}
    (h : (units.takeWhile (· != 0)).length ≠ units.length) :
    ∃ tail, units = units.takeWhile (· != 0) ++ 0 :: tail := by
  have hsplit := List.takeWhile_append_dropWhile (p := (· != 0)) (l := units)
  cases hdrop : units.dropWhile (· != 0) with
  | nil =>
    rw [hdrop, List.append_nil] at hsplit
    exact absurd (congrArg List.length hsplit) h
  | cons unit tail =>
    have hhead := List.head?_dropWhile_not (p := (· != 0)) units
    rw [hdrop] at hhead
    have hzero : unit = 0 := by simpa using hhead
    rw [hdrop, hzero] at hsplit
    exact ⟨tail, hsplit.symm⟩

/-- The code units in front of the terminator are the ones before it. -/
theorem takeWhile_ne_zero_append {units : List UInt16} (h : 0 ∉ units) (tail : List UInt16) :
    (units ++ 0 :: tail).takeWhile (· != 0) = units := by
  have hall : ∀ unit ∈ units, (unit != 0) = true := by
    intro unit hmem
    rw [bne_iff_ne]
    rintro rfl
    exact h hmem
  rw [List.takeWhile_append_of_pos hall, List.takeWhile_cons]
  simp

/-- Reading the payload of a class record accepts exactly the payloads of class records. -/
theorem decodeIteratorClass_eq_ok_iff {payload : List UInt8} {record : Record}
    (h : payload.length % 4 = 0) :
    decodeIteratorClass payload = .ok record ↔
      ∃ name : String, record = .iteratorClass name ∧ '\x00' ∉ name.toList ∧
        payload = padded (nameLayout name) := by
  have heven : payload.length % 2 = 0 := by omega
  simp only [decodeIteratorClass, check_eq_ok_iff, heven, ne_eq, not_true_eq_false,
    not_false_eq_true, true_and, any_ne_zero_eq_false]
  constructor
  · rintro ⟨hterminated, hzero, hshort, hname⟩
    obtain ⟨tail, htail⟩ := eq_takeWhile_append hterminated
    generalize hunits : (unitsOf payload).takeWhile (· != 0) = name at *
    -- the payload is the name, the terminator and the padding
    have hpayload : payload = unitBytes name ++ [0, 0] ++ unitBytes tail := by
      rw [← unitBytes_unitsOf heven, htail, unitBytes, List.flatMap_append, List.append_assoc]
      rfl
    have hfront : (unitBytes name ++ [0, 0]).length = 2 * (name.length + 1) := by
      rw [List.length_append, length_unitBytes]
      rfl
    have hpadding : payload.drop (2 * (name.length + 1)) = unitBytes tail := by
      rw [← hfront, hpayload, List.drop_left]
    rw [hpadding] at hzero hshort
    split at hname
    · cases hname
    · rename_i text hdecode
      cases hname
      have htext := Text.Utf16.decode?_eq_some_iff.1 hdecode
      have hlayout : nameLayout (String.ofList text) = unitBytes name ++ [0, 0] := by
        rw [nameLayout_eq, String.toList_ofList, htext]
      refine ⟨String.ofList text, rfl, ?_, ?_⟩
      · rw [String.toList_ofList, ← Text.Utf16.zero_mem_encode, ← htext, ← hunits]
        intro hmem
        have hne := List.all_eq_true.1 List.all_takeWhile 0 hmem
        simp at hne
      · have hlength : (4 - (unitBytes name ++ [0, 0]).length % 4) % 4 = (unitBytes tail).length := by
          rw [hpayload, List.length_append] at h
          omega
        rw [padded, hlayout, hlength, ← hzero]
        exact hpayload
  · rintro ⟨name, rfl, hnul, rfl⟩
    have hnot : 0 ∉ Text.Utf16.encode name.toList := fun hmem =>
      hnul (Text.Utf16.zero_mem_encode.1 hmem)
    have hunits : ∃ tail, unitsOf (padded (nameLayout name)) =
        Text.Utf16.encode name.toList ++ 0 :: tail := by
      rw [padded, nameLayout_eq, List.append_assoc, unitsOf_unitBytes_append]
      exact ⟨_, rfl⟩
    obtain ⟨tail, htail⟩ := hunits
    have hdrop : (padded (nameLayout name)).drop
        (2 * ((Text.Utf16.encode name.toList).length + 1)) =
          List.replicate ((4 - (nameLayout name).length % 4) % 4) 0 := by
      rw [padded, show 2 * ((Text.Utf16.encode name.toList).length + 1) = (nameLayout name).length
        from (length_nameLayout name).symm, List.drop_left]
    rw [htail, takeWhile_ne_zero_append hnot, hdrop, Text.Utf16.decode?_eq_some_iff.2 rfl]
    refine ⟨?_, ?_, ?_, ?_⟩
    · rw [List.length_append, List.length_cons]
      omega
    · rw [List.length_replicate]
    · rw [List.length_replicate]
      omega
    · simp only [String.ofList_toList]
      rfl

/-! ## Ranges -/

/-- Reading ranges passes exactly their bytes. -/
theorem decodeRanges_eq_ok_iff {count : Nat} {cursor : Cursor} {scopes : List Span} :
    decodeRanges count cursor = .ok scopes ↔
      scopes.length = count ∧ (∀ scope ∈ scopes, scope.reach < UInt32.size) ∧
        ∃ next, cursor.Passes (scopes.flatMap rangeLayout) next := by
  induction count generalizing cursor scopes with
  | zero =>
    constructor
    · intro h
      cases h
      exact ⟨rfl, by simp, cursor, Cursor.passes_nil_iff.2 rfl⟩
    · rintro ⟨hlength, -, -⟩
      rw [List.length_eq_zero_iff.1 hlength]
      rfl
  | succ count ih =>
    simp only [decodeRanges, bind_eq_ok_iff, Prod.exists, Cursor.read_eq_ok_iff, check_eq_ok_iff,
      ih]
    constructor
    · rintro ⟨start, middle, hstart, stop, last, hstop, hle, rest, ⟨hlength, hends, next, hrest⟩,
        heq⟩
      cases heq
      have hstop_eq : start + (stop - start) = stop := by
        rw [UInt32.add_comm, UInt32.sub_add_cancel]
      have hreach : Span.reach ⟨start, stop - start⟩ = stop.toNat := by
        have hle' : start ≤ stop := UInt32.not_lt.1 hle
        show start.toNat + (stop - start).toNat = _
        rw [UInt32.toNat_sub_of_le _ _ hle']
        exact Nat.add_sub_cancel' (UInt32.le_iff_toNat_le.1 hle')
      have hlt : Span.reach ⟨start, stop - start⟩ < UInt32.size := hreach ▸ stop.toNat_lt
      refine ⟨by rw [List.length_cons, hlength], ?_, next, ?_⟩
      · intro scope hmem
        rcases List.mem_cons.1 hmem with rfl | hmem
        · exact hlt
        · exact hends scope hmem
      · rw [List.flatMap_cons, rangeLayout_eq hlt, hstop_eq]
        exact Cursor.passes_append_iff.2
          ⟨last, Cursor.passes_append_iff.2 ⟨middle, hstart, hstop⟩, hrest⟩
    · rintro ⟨hlength, hends, next, hpasses⟩
      obtain ⟨scope, rest, rfl⟩ := List.exists_cons_of_length_eq_add_one hlength
      have hreach := hends scope List.mem_cons_self
      rw [List.flatMap_cons, rangeLayout_eq hreach] at hpasses
      obtain ⟨last, hscope, hrest⟩ := Cursor.passes_append_iff.1 hpasses
      obtain ⟨middle, hstart, hstop⟩ := Cursor.passes_append_iff.1 hscope
      refine ⟨scope.offset, middle, hstart, _, last, hstop, ?_, rest, ⟨?_, ?_, next, hrest⟩, ?_⟩
      · rw [UInt32.lt_iff_toNat_lt, Span.toNat_offset_add_length hreach, Span.reach]
        omega
      · rw [List.length_cons] at hlength
        omega
      · exact fun scope hmem => hends scope (List.mem_cons_of_mem _ hmem)
      · rw [Span.offset_add_length_sub_offset]
        rfl

/-- Reading the payload of a scopes record accepts exactly the payloads of scopes records. -/
theorem decodeIteratorScopes_eq_ok_iff {payload : List UInt8} {record : Record} :
    decodeIteratorScopes payload = .ok record ↔
      ∃ scopes : List Span, record = .iteratorScopes scopes ∧ scopes.length < UInt32.size ∧
        (∀ scope ∈ scopes, scope.reach < UInt32.size) ∧
          payload = Bytes.ofNat 4 scopes.length ++ scopes.flatMap rangeLayout := by
  simp only [decodeIteratorScopes, bind_eq_ok_iff, Prod.exists, Cursor.read_eq_ok_iff,
    check_eq_ok_iff, decodeRanges_eq_ok_iff, ne_eq, Decidable.not_not]
  constructor
  · rintro ⟨count, middle, hcount, hsize, scopes, ⟨hlength, hends, last, hranges⟩, heq⟩
    cases heq
    have hlt : scopes.length < UInt32.size := hlength ▸ count.toNat_lt
    refine ⟨scopes, rfl, hlt, hends, ?_⟩
    -- the count leaves no byte behind the ranges
    have hall := Cursor.passes_append_iff.2 ⟨middle, hcount, hranges⟩
    have hbytes : Word.toBytes count = Bytes.ofNat 4 scopes.length := by
      rw [hlength]
      rfl
    rw [hbytes] at hall
    refine Cursor.start_passes_iff.1 ⟨last, hall, ?_⟩
    have hrest := congrArg List.length hall.rest_eq
    rw [Cursor.rest_start, List.length_append, List.length_append, Bytes.length_ofNat,
      length_flatMap_rangeLayout, ← hsize, hlength] at hrest
    rw [Cursor.hasMore_eq_false]
    exact List.length_eq_zero_iff.1 (by omega)
  · rintro ⟨scopes, rfl, hlt, hends, hpayload⟩
    obtain ⟨last, hall, -⟩ := Cursor.start_passes_iff.2 hpayload
    rw [← toBytes_ofNat hlt] at hall
    obtain ⟨middle, hcount, hranges⟩ := Cursor.passes_append_iff.1 hall
    have hnat : (UInt32.ofNat scopes.length).toNat = scopes.length := UInt32.toNat_ofNat_of_lt' hlt
    refine ⟨_, middle, hcount, ?_, scopes, ⟨hnat.symm, hends, last, hranges⟩, rfl⟩
    rw [hnat, hpayload, List.length_append, Bytes.length_ofNat, length_flatMap_rangeLayout]
    omega

/-! ## Records -/

/-- The kind with a number has this number. -/
theorem RecordKind.code_of_ofCode? {code : UInt8} {kind : RecordKind} (h : ofCode? code = some kind) :
    kind.code = code := by
  unfold ofCode? at h
  repeat' split at h
  all_goals
    cases h
  all_goals
    symm
    assumption

/-- Reading the payload of a record accepts exactly the payloads of sound records of its kind. -/
theorem decodePayload_eq_ok_iff {kind : UInt8} {payload : List UInt8} {record : Record}
    (hmod : payload.length % 4 = 0) (hlt : payload.length < UInt32.size) :
    decodePayload kind payload = .ok record ↔
      record.Sound ∧ record.kind = kind ∧ record.payload = payload := by
  by_cases hclass : kind = 4
  · subst hclass
    show decodeIteratorClass payload = .ok record ↔ _
    rw [decodeIteratorClass_eq_ok_iff hmod]
    constructor
    · rintro ⟨name, rfl, hnul, hpayload⟩
      exact ⟨hnul, rfl, hpayload.symm⟩
    · rintro ⟨hsound, hkind, hpayload⟩
      cases record with
      | iteratorClass name => exact ⟨name, rfl, hsound, hpayload.symm⟩
      | iteratorScopes scopes => cases hkind
      | unknown kind data => exact absurd hkind hsound.2.1
  · by_cases hscopes : kind = 3
    · subst hscopes
      show decodeIteratorScopes payload = .ok record ↔ _
      rw [decodeIteratorScopes_eq_ok_iff]
      constructor
      · rintro ⟨scopes, rfl, -, hends, hpayload⟩
        exact ⟨hends, rfl, hpayload.symm⟩
      · rintro ⟨hsound, hkind, hpayload⟩
        cases record with
        | iteratorClass name => cases hkind
        | iteratorScopes scopes =>
          have hlength := congrArg List.length hpayload
          rw [Record.payload, List.length_append, length_flatMap_rangeLayout] at hlength
          exact ⟨scopes, rfl, by omega, hsound, hpayload.symm⟩
        | unknown kind data => exact absurd hkind hsound.1
    · have hunknown : decodePayload kind payload = .ok (.unknown kind payload) := by
        rw [decodePayload]
        split
        · rename_i hkind
          exact absurd (RecordKind.code_of_ofCode? hkind).symm hclass
        · rename_i hkind
          exact absurd (RecordKind.code_of_ofCode? hkind).symm hscopes
        · rfl
      rw [hunknown, Except.ok.injEq]
      constructor
      · rintro rfl
        exact ⟨⟨hscopes, hclass, hmod⟩, rfl, rfl⟩
      · rintro ⟨-, hkind, hpayload⟩
        cases record with
        | iteratorClass name => exact absurd hkind.symm hclass
        | iteratorScopes scopes => exact absurd hkind.symm hscopes
        | unknown kind' data =>
          cases hkind
          cases hpayload
          rfl

/-- From a multiple of four on, reading a record passes exactly the bytes of a valid record. -/
theorem decodeRecord_eq_ok_iff {cursor next : Cursor} {record : Record}
    (haligned : cursor.position % 4 = 0) :
    decodeRecord cursor = .ok (record, next) ↔
      record.Valid ∧ cursor.Passes record.layout next := by
  simp only [decodeRecord, bind_eq_ok_iff, Prod.exists, Cursor.read_eq_ok_iff, check_eq_ok_iff,
    Cursor.take_eq_ok_iff, toBytes_uint8, ne_eq, Decidable.not_not, not_or, Nat.not_lt]
  constructor
  · rintro ⟨found, first, hfound, hversion, kind, second, hkind, third, hpadding, size, fourth,
      hsize, ⟨hhead, hmod⟩, payload, fifth, ⟨hlength, hpayload⟩, record', hdecode, heq⟩
    cases heq
    subst hversion
    have hposition : second.position % 4 = 2 := by
      rw [hkind.position_eq, hfound.position_eq, List.length_singleton, List.length_singleton]
      omega
    rw [skipPadding_eq_ok_iff hposition] at hpadding
    have hsize_lt : size.toNat < UInt32.size := size.toNat_lt
    have hhead' : 8 ≤ size.toNat := hhead
    have hlength' : payload.length = size.toNat - 8 := hlength
    obtain ⟨hsound, hrecord, hbytes⟩ :=
      (decodePayload_eq_ok_iff (by omega) (by omega)).1 hdecode
    have hnat : record.size = size.toNat := by
      rw [Record.size, hbytes, hlength']
      omega
    have hword : Word.toBytes size = Bytes.ofNat 4 record.size := by
      rw [hnat]
      rfl
    refine ⟨⟨hsound, hnat ▸ hsize_lt⟩, ?_⟩
    have hlayout : record.layout = [version] ++ [kind] ++ [0, 0] ++ Word.toBytes size ++ payload := by
      rw [Record.layout, hrecord, hbytes, hword]
      rfl
    rw [hlayout]
    exact Cursor.passes_append_iff.2 ⟨fourth, Cursor.passes_append_iff.2 ⟨third,
      Cursor.passes_append_iff.2 ⟨second, Cursor.passes_append_iff.2 ⟨first, hfound, hkind⟩,
        hpadding⟩, hsize⟩, hpayload⟩
  · rintro ⟨⟨hsound, hlt⟩, hpasses⟩
    have hmod := hsound.length_payload_mod
    have hsize_eq : record.size = 8 + record.payload.length := rfl
    have hnat : (UInt32.ofNat record.size).toNat = record.size := UInt32.toNat_ofNat_of_lt' hlt
    have hlayout : record.layout = [version] ++ [record.kind] ++ [0, 0] ++
        Word.toBytes (UInt32.ofNat record.size) ++ record.payload := by
      rw [toBytes_ofNat hlt]
      rfl
    rw [hlayout] at hpasses
    obtain ⟨fourth, hhead, hpayload⟩ := Cursor.passes_append_iff.1 hpasses
    obtain ⟨third, hhead, hsize⟩ := Cursor.passes_append_iff.1 hhead
    obtain ⟨second, hhead, hpadding⟩ := Cursor.passes_append_iff.1 hhead
    obtain ⟨first, hfound, hkind⟩ := Cursor.passes_append_iff.1 hhead
    have hposition : second.position % 4 = 2 := by
      rw [hkind.position_eq, hfound.position_eq, List.length_singleton, List.length_singleton]
      omega
    refine ⟨version, first, hfound, rfl, record.kind, second, hkind, third,
      (skipPadding_eq_ok_iff hposition).2 hpadding, _, fourth, hsize, ⟨?_, ?_⟩, record.payload, next,
      ⟨?_, hpayload⟩, record, (decodePayload_eq_ok_iff hmod (by omega)).2 ⟨hsound, rfl, rfl⟩, rfl⟩
    · rw [hnat]
      exact Nat.le_add_right _ _
    · rw [hnat]
      omega
    · rw [hnat, hsize_eq]
      exact (Nat.add_sub_cancel_left _ _).symm

/-- From a multiple of four on, reading records passes exactly the bytes of valid records. -/
theorem decodeRecords_eq_ok_iff {count : Nat} {cursor next : Cursor} {records : List Record}
    (haligned : cursor.position % 4 = 0) :
    decodeRecords count cursor = .ok (records, next) ↔
      records.length = count ∧ (∀ record ∈ records, record.Valid) ∧
        cursor.Passes (records.flatMap Record.layout) next := by
  induction count generalizing cursor records with
  | zero =>
    constructor
    · intro h
      cases h
      exact ⟨rfl, by simp, Cursor.passes_nil_iff.2 rfl⟩
    · rintro ⟨hlength, -, hpasses⟩
      rw [List.length_eq_zero_iff.1 hlength] at hpasses ⊢
      rw [Cursor.passes_nil_iff.1 hpasses]
      rfl
  | succ count ih =>
    -- a record is as long as its size, so the next one is aligned as well
    have hnext : ∀ {record : Record} {middle : Cursor}, record.Valid →
        cursor.Passes record.layout middle → middle.position % 4 = 0 := by
      intro record middle hvalid hpasses
      have hmod := hvalid.sound.length_payload_mod
      rw [hpasses.position_eq, Record.length_layout, Record.size]
      omega
    simp only [decodeRecords, bind_eq_ok_iff, Prod.exists, decodeRecord_eq_ok_iff haligned]
    constructor
    · rintro ⟨record, middle, ⟨hvalid, hrecord⟩, rest, last, hrest, heq⟩
      cases heq
      obtain ⟨hlength, hvalids, hpasses⟩ := (ih (hnext hvalid hrecord)).1 hrest
      refine ⟨by rw [List.length_cons, hlength], ?_, ?_⟩
      · exact List.forall_mem_cons.2 ⟨hvalid, hvalids⟩
      · rw [List.flatMap_cons]
        exact Cursor.passes_append_iff.2 ⟨middle, hrecord, hpasses⟩
    · rintro ⟨hlength, hvalids, hpasses⟩
      obtain ⟨record, rest, rfl⟩ := List.exists_cons_of_length_eq_add_one hlength
      obtain ⟨hvalid, hvalids⟩ := List.forall_mem_cons.1 hvalids
      rw [List.flatMap_cons] at hpasses
      obtain ⟨middle, hrecord, hrest⟩ := Cursor.passes_append_iff.1 hpasses
      rw [List.length_cons] at hlength
      exact ⟨record, middle, ⟨hvalid, hrecord⟩, rest, next,
        (ih (hnext hvalid hrecord)).2 ⟨by omega, hvalids, hrest⟩, rfl⟩

/-! ## Blobs -/

/-- Reading succeeds exactly on the blob of a valid list of records, and gives this list. -/
theorem decode_eq_ok_iff {data : List UInt8} {records : List Record} :
    decode data = .ok records ↔ ValidBlob records ∧ data = layout records := by
  simp only [decode, bind_eq_ok_iff, Prod.exists, Cursor.read_eq_ok_iff, check_eq_ok_iff,
    toBytes_uint8, ne_eq, Decidable.not_not, Bool.not_eq_true]
  constructor
  · rintro ⟨found, first, hfound, hversion, count, second, hcount, third, hpadding, records', last,
      hrecords, hmore, heq⟩
    cases heq
    subst hversion
    have hposition : second.position = 2 := by
      rw [hcount.position_eq, hfound.position_eq]
      rfl
    rw [skipPadding_eq_ok_iff (by omega)] at hpadding
    have haligned : third.position % 4 = 0 := by
      rw [hpadding.position_eq, hposition]
      rfl
    obtain ⟨hlength, hvalid, hpasses⟩ := (decodeRecords_eq_ok_iff haligned).1 hrecords
    have hcount_eq : count = UInt8.ofNat records.length := by
      rw [hlength, UInt8.ofNat_toNat]
    have hlt := count.toNat_lt
    refine ⟨⟨by omega, hvalid⟩, Cursor.start_passes_iff.1 ⟨last, ?_, hmore⟩⟩
    have hlayout : layout records =
        [version] ++ [count] ++ [0, 0] ++ records.flatMap Record.layout := by
      rw [hcount_eq]
      rfl
    rw [hlayout]
    exact Cursor.passes_append_iff.2 ⟨third, Cursor.passes_append_iff.2 ⟨second,
      Cursor.passes_append_iff.2 ⟨first, hfound, hcount⟩, hpadding⟩, hpasses⟩
  · rintro ⟨⟨hlength, hvalid⟩, hdata⟩
    obtain ⟨last, hpasses, hmore⟩ := Cursor.start_passes_iff.2 hdata
    have hlayout : layout records = [version] ++ [UInt8.ofNat records.length] ++ [0, 0] ++
        records.flatMap Record.layout := rfl
    rw [hlayout] at hpasses
    obtain ⟨third, hhead, hrecords⟩ := Cursor.passes_append_iff.1 hpasses
    obtain ⟨second, hhead, hpadding⟩ := Cursor.passes_append_iff.1 hhead
    obtain ⟨first, hfound, hcount⟩ := Cursor.passes_append_iff.1 hhead
    have hposition : second.position = 2 := by
      rw [hcount.position_eq, hfound.position_eq]
      rfl
    have haligned : third.position % 4 = 0 := by
      rw [hpadding.position_eq, hposition]
      rfl
    have hnat : (UInt8.ofNat records.length).toNat = records.length :=
      UInt8.toNat_ofNat_of_lt' (Nat.lt_succ_of_le hlength)
    exact ⟨version, first, hfound, rfl, _, second, hcount, third,
      (skipPadding_eq_ok_iff (by omega)).2 hpadding, records, last,
      (decodeRecords_eq_ok_iff haligned).2 ⟨hnat.symm, hvalid, hrecords⟩, hmore, rfl⟩

/-- The format is canonical: reading accepts exactly the blobs of valid lists of records. So every
valid list is read back from its blob, and no two sequences of bytes are read as the same list. -/
theorem decode_accepts_exactly_layout :
    (∀ (data : List UInt8) (records : List Record),
        decode data = .ok records ↔ ValidBlob records ∧ data = layout records) ∧
      (∀ records : List Record, ValidBlob records → decode (layout records) = .ok records) ∧
        ∀ (a b : List UInt8) (records : List Record),
          decode a = .ok records → decode b = .ok records → a = b := by
  refine ⟨fun data records => decode_eq_ok_iff, ?_, ?_⟩
  · intro records hvalid
    exact decode_eq_ok_iff.2 ⟨hvalid, rfl⟩
  · intro a b records ha hb
    rw [(decode_eq_ok_iff.1 ha).2, (decode_eq_ok_iff.1 hb).2]

/-- A blob with a record of each form: a name with a surrogate pair, a range that ends at the last
offset, and a payload of another kind. -/
theorem decode_layout_mixed :
    ValidBlob [.iteratorClass "A😀", .iteratorScopes [⟨5, 20⟩, ⟨0xFFFFFFF0, 15⟩],
        .unknown 7 [1, 2, 3, 4]] ∧
      decode (layout [.iteratorClass "A😀", .iteratorScopes [⟨5, 20⟩, ⟨0xFFFFFFF0, 15⟩],
        .unknown 7 [1, 2, 3, 4]]) =
        .ok [.iteratorClass "A😀", .iteratorScopes [⟨5, 20⟩, ⟨0xFFFFFFF0, 15⟩],
          .unknown 7 [1, 2, 3, 4]] := by
  have hvalid : ValidBlob [.iteratorClass "A😀", .iteratorScopes [⟨5, 20⟩, ⟨0xFFFFFFF0, 15⟩],
      .unknown 7 [1, 2, 3, 4]] := by decide
  exact ⟨hvalid, decode_accepts_exactly_layout.2.1 _ hvalid⟩

end DebugSymbols.Metadata
