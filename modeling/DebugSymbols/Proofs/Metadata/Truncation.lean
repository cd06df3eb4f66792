import DebugSymbols.Proofs.Metadata.Decode

/-!
# Torn and prolonged blobs

A reader looks at nothing but the bytes that it passes. So what it makes of the beginning of a
sequence is what it makes of the whole, unless the beginning ends too early for it, and then it runs
out of bounds before it can find anything else at fault. `Agree` states this for two runs of a
reader, and is kept when readers are put one after the other.

A blob that is read is therefore told from all that is shorter and from all that is longer: its
proper beginnings are out of bounds, and bytes behind it are reported as such.
-/

namespace DebugSymbols.Metadata

open Bytes (Cursor Word)

/-! ## Two runs of a reader -/

/-- The results of a reader on the beginning of a sequence and on the whole of it: out of bounds at
the beginning, or the same error, or related values. -/
inductive Agree {α : Type} (related : α → α → Prop) :
    Except SymbolError α → Except SymbolError α → Prop
  | torn (whole : Except SymbolError α) : Agree related (.error .outOfBounds) whole
  | error (error : SymbolError) : Agree related (.error error) (.error error)
  | ok {short long : α} (h : related short long) : Agree related (.ok short) (.ok long)

namespace Agree

variable {α β : Type} {related : α → α → Prop} {related' : β → β → Prop}

/-- Readers that agree, one after the other, agree. -/
theorem bind {short long : Except SymbolError α} {next next' : α → Except SymbolError β}
    (h : Agree related short long)
    (hnext : ∀ a b, related a b → Agree related' (next a) (next' b)) :
    Agree related' (short >>= next) (long >>= next') := by
  cases h with
  | torn whole => exact .torn _
  | error error => exact .error error
  | ok h => exact hnext _ _ h

/-- A check of the same thing on both sides. -/
theorem check {p : Prop} [Decidable p] {fault : BlobFault} {α' : Type}
    {next next' : α' → Except SymbolError α} {short long : Except SymbolError α}
    (h : Agree related short long) :
    Agree related (if p then malformed fault >>= next else short)
      (if p then malformed fault >>= next' else long) := by
  by_cases hp : p
  · rw [if_pos hp, if_pos hp]
    exact .error (.malformed fault)
  · rw [if_neg hp, if_neg hp]
    exact h

end Agree

/-- Two cursors at one position, the first in the beginning of a sequence, the second in the whole.
-/
structure Beside (front extra : List UInt8) (short long : Cursor) : Prop where
  short_data : short.data.toList = front
  long_data : long.data.toList = front ++ extra
  position_eq : short.position = long.position

/-- The same value, and cursors beside each other. -/
def ValueBeside {α : Type} (front extra : List UInt8) (short long : α × Cursor) : Prop :=
  short.1 = long.1 ∧ Beside front extra short.2 long.2

variable {front extra : List UInt8} {short long : Cursor}

theorem beside_start (front extra : List UInt8) :
    Beside front extra (Cursor.start front) (Cursor.start (front ++ extra)) where
  short_data := rfl
  long_data := rfl
  position_eq := rfl

/-! ## Readers -/

theorem agree_take (h : Beside front extra short long) (count : Nat) :
    Agree (ValueBeside front extra) (short.take count) (long.take count) := by
  have hshort : short.data.size = front.length := by rw [← Array.length_toList, h.short_data]
  have hlong : long.data.size = front.length + extra.length := by
    rw [← Array.length_toList, h.long_data, List.length_append]
  by_cases hroom : short.position + count ≤ short.data.size
  · have hbytes : (short.data.extract short.position (short.position + count)).toList =
        (long.data.extract long.position (long.position + count)).toList := by
      rw [Array.toList_extract, Array.toList_extract, h.short_data, h.long_data, ← h.position_eq,
        List.extract_eq_take_drop, List.extract_eq_take_drop, List.drop_append_of_le_length (by omega),
        List.take_append_of_le_length (by rw [List.length_drop]; omega)]
    rw [Cursor.take, dif_pos hroom, Cursor.take, dif_pos (by rw [← h.position_eq]; omega)]
    exact .ok ⟨hbytes, h.short_data, h.long_data, congrArg (· + count) h.position_eq⟩
  · rw [Cursor.take, dif_neg hroom]
    exact .torn _

theorem agree_align (h : Beside front extra short long) (alignment : Nat) :
    Agree (ValueBeside front extra) (short.align alignment) (long.align alignment) := by
  rw [Cursor.align, Cursor.align, h.position_eq]
  exact agree_take h _

theorem agree_read (α : Type) [Word α] (h : Beside front extra short long) :
    Agree (ValueBeside front extra) (short.read α) (long.read α) := by
  have htake := agree_take h (Word.width α)
  rw [Cursor.read, Cursor.read]
  generalize short.take (Word.width α) = result, long.take (Word.width α) = whole at htake ⊢
  cases htake with
  | torn => exact .torn _
  | error error => exact .error error
  | ok h => exact .ok ⟨congrArg Word.ofBytes h.1, h.2⟩

theorem agree_skipPadding (h : Beside front extra short long) :
    Agree (Beside front extra) (skipPadding short) (skipPadding long) := by
  rw [skipPadding, skipPadding]
  refine (agree_align h 4).bind ?_
  rintro ⟨padding, short⟩ ⟨_, long⟩ ⟨rfl, h⟩
  dsimp only
  rw [h.position_eq]
  exact Agree.check (.ok h)

theorem agree_decodeRecord (h : Beside front extra short long) :
    Agree (ValueBeside front extra) (decodeRecord short) (decodeRecord long) := by
  simp only [decodeRecord]
  rw [h.position_eq]
  refine (agree_read UInt8 h).bind ?_
  rintro ⟨found, short⟩ ⟨_, long⟩ ⟨rfl, h⟩
  refine Agree.check ((agree_read UInt8 h).bind ?_)
  rintro ⟨kind, short⟩ ⟨_, long⟩ ⟨rfl, h⟩
  refine (agree_skipPadding h).bind ?_
  intro short long h
  refine (agree_read UInt32 h).bind ?_
  rintro ⟨size, short⟩ ⟨_, long⟩ ⟨rfl, h⟩
  refine Agree.check ((agree_take h _).bind ?_)
  rintro ⟨payload, short⟩ ⟨_, long⟩ ⟨rfl, h⟩
  dsimp only
  -- the payload is the same, so it does not matter what is made of it
  cases decodePayload kind payload with
  | error error => exact .error error
  | ok record => exact .ok ⟨rfl, h⟩

theorem agree_decodeRecords (count : Nat) (h : Beside front extra short long) :
    Agree (ValueBeside front extra) (decodeRecords count short) (decodeRecords count long) := by
  induction count generalizing short long with
  | zero => exact .ok ⟨rfl, h⟩
  | succ count ih =>
    rw [decodeRecords, decodeRecords]
    refine (agree_decodeRecord h).bind ?_
    rintro ⟨record, short⟩ ⟨_, long⟩ ⟨rfl, h⟩
    refine (ih h).bind ?_
    rintro ⟨rest, short⟩ ⟨_, long⟩ ⟨rfl, h⟩
    exact .ok ⟨rfl, h⟩

/-! ## Blobs -/

/-- Reads the head and the records of a blob, whatever follows them. -/
def decodeBody (data : List UInt8) : Except SymbolError (List Record × Cursor) := do
  let (found, cursor) ← (Cursor.start data).read UInt8
  if found ≠ version then malformed (.version found)
  let (count, cursor) ← cursor.read UInt8
  let cursor ← skipPadding cursor
  decodeRecords count.toNat cursor

theorem length_of_decodeRecords {count : Nat} {cursor next : Cursor} {records : List Record}
    (h : decodeRecords count cursor = .ok (records, next)) : records.length = count := by
  induction count generalizing cursor records with
  | zero =>
    cases h
    rfl
  | succ count ih =>
    rw [decodeRecords] at h
    obtain ⟨⟨record, middle⟩, -, h⟩ := bind_eq_ok_iff.1 h
    obtain ⟨⟨rest, last⟩, hrest, h⟩ := bind_eq_ok_iff.1 h
    cases h
    rw [List.length_cons, ih hrest]

/-- A blob is its head and its records, and nothing behind them. -/
theorem decode_eq_bind (data : List UInt8) :
    decode data = decodeBody data >>= fun (records, cursor) =>
      if cursor.hasMore then malformed (.trailingBytes cursor.remaining records.length)
      else .ok records := by
  simp only [decode, decodeBody, bind_assoc]
  refine bind_congr fun first => ?_
  by_cases hversion : first.1 ≠ version
  · rw [if_pos hversion, if_pos hversion]
    rfl
  · rw [if_neg hversion, if_neg hversion, bind_assoc]
    refine bind_congr fun second => ?_
    rw [bind_assoc]
    refine bind_congr fun cursor => ?_
    cases hrecords : decodeRecords second.1.toNat cursor with
    | error error => rfl
    | ok result =>
      show (if result.2.hasMore then _ else _) = if result.2.hasMore then _ else _
      rw [length_of_decodeRecords hrecords]
      rfl

theorem agree_decodeBody (front extra : List UInt8) :
    Agree (ValueBeside front extra) (decodeBody front) (decodeBody (front ++ extra)) := by
  simp only [decodeBody]
  refine (agree_read UInt8 (beside_start front extra)).bind ?_
  rintro ⟨found, short⟩ ⟨_, long⟩ ⟨rfl, h⟩
  refine Agree.check ((agree_read UInt8 h).bind ?_)
  rintro ⟨count, short⟩ ⟨_, long⟩ ⟨rfl, h⟩
  refine (agree_skipPadding h).bind ?_
  intro short long h
  exact agree_decodeRecords count.toNat h

/-- A blob that is read is read to its end. -/
theorem decode_eq_ok_iff_decodeBody {data : List UInt8} {records : List Record} :
    decode data = .ok records ↔
      ∃ last, decodeBody data = .ok (records, last) ∧ last.hasMore = false := by
  rw [decode_eq_bind, bind_eq_ok_iff]
  constructor
  · rintro ⟨⟨found, last⟩, hbody, h⟩
    dsimp only at h
    split at h
    · cases h
    · rename_i hmore
      cases h
      exact ⟨last, hbody, Bool.eq_false_iff.2 hmore⟩
  · rintro ⟨last, hbody, hmore⟩
    refine ⟨(records, last), hbody, ?_⟩
    dsimp only
    rw [hmore]
    rfl

/-- Where a blob that is read ends, the cursor is at its end. -/
theorem position_of_hasMore {cursor : Cursor} (h : cursor.hasMore = false) :
    cursor.position = cursor.data.toList.length := by
  have hle := cursor.position_le
  rw [Cursor.hasMore, decide_eq_false_iff_not] at h
  rw [Array.length_toList]
  omega

/-- A proper beginning of a blob that is read is out of bounds. -/
theorem decode_of_append_eq_ok {front extra : List UInt8} {records : List Record}
    (h : decode (front ++ extra) = .ok records) (hextra : extra ≠ []) :
    decode front = .error .outOfBounds := by
  obtain ⟨last, hbody, hmore⟩ := decode_eq_ok_iff_decodeBody.1 h
  have hagree := agree_decodeBody front extra
  rw [hbody] at hagree
  rw [decode_eq_bind]
  generalize decodeBody front = result at hagree ⊢
  cases hagree with
  | torn => rfl
  | @ok torn _ h =>
    -- the end of the whole would be a position in the beginning
    have hle := torn.2.position_le
    rw [h.2.position_eq, position_of_hasMore hmore, ← Array.length_toList, h.2.short_data,
      h.2.long_data, List.length_append] at hle
    have hpos := List.length_pos_iff.2 hextra
    omega

/-- Bytes behind a blob that is read are reported, with their number. -/
theorem decode_append_of_eq_ok {data extra : List UInt8} {records : List Record}
    (h : decode data = .ok records) (hextra : extra ≠ []) :
    decode (data ++ extra) = .error (.malformed (.trailingBytes extra.length records.length)) := by
  obtain ⟨last, hbody, hmore⟩ := decode_eq_ok_iff_decodeBody.1 h
  have hagree := agree_decodeBody data extra
  rw [hbody] at hagree
  rw [decode_eq_bind]
  generalize decodeBody (data ++ extra) = result at hagree ⊢
  cases hagree with
  | @ok _ whole h =>
    obtain ⟨found, cursor⟩ := whole
    obtain ⟨rfl, h⟩ := h
    have hsize : cursor.data.size = data.length + extra.length := by
      rw [← Array.length_toList, h.long_data, List.length_append]
    have hposition : cursor.position = data.length := by
      rw [← h.position_eq, position_of_hasMore hmore, h.short_data]
    have hpos := List.length_pos_iff.2 hextra
    have hleft : cursor.hasMore = true := by
      rw [Cursor.hasMore, decide_eq_true_iff]
      omega
    have hremaining : cursor.remaining = extra.length := by
      rw [Cursor.remaining]
      omega
    show (if cursor.hasMore = true then _ else _) = _
    rw [if_pos hleft, hremaining]
    rfl

/-- Truncation and trailing data are told apart: what is shorter than a blob that is read, by any
number of bytes at its end, is out of bounds, and what is longer has trailing bytes. In particular
no blob is the beginning of another one. -/
theorem torn_and_prolonged_told_apart {data : List UInt8} {records : List Record}
    (h : decode data = .ok records) :
    (∀ front, front <+: data → front ≠ data → decode front = .error .outOfBounds) ∧
      (∀ whole, data <+: whole → data ≠ whole → decode whole = .error
        (.malformed (.trailingBytes (whole.length - data.length) records.length))) ∧
      ∀ whole others, data <+: whole → decode whole = .ok others → data = whole := by
  have hlonger : ∀ whole, data <+: whole → data ≠ whole → decode whole = .error
      (.malformed (.trailingBytes (whole.length - data.length) records.length)) := by
    rintro _ ⟨extra, rfl⟩ hne
    rw [List.length_append, Nat.add_sub_cancel_left]
    refine decode_append_of_eq_ok h ?_
    rintro rfl
    exact hne (List.append_nil data).symm
  refine ⟨?_, hlonger, ?_⟩
  · rintro front ⟨extra, rfl⟩ hne
    refine decode_of_append_eq_ok h ?_
    rintro rfl
    exact hne (List.append_nil front).symm
  · intro whole others hfront hwhole
    by_contra hne
    rw [hlonger whole hfront hne] at hwhole
    cases hwhole

/-- Two records, a name and a range: torn inside the second one, and with four zeros behind them. -/
theorem two_records_told_apart :
    decode (layout [.iteratorClass "X", .iteratorScopes [⟨5, 20⟩]]) =
        .ok [.iteratorClass "X", .iteratorScopes [⟨5, 20⟩]] ∧
      decode ((layout [.iteratorClass "X", .iteratorScopes [⟨5, 20⟩]]).take 30) =
        .error .outOfBounds ∧
      decode (layout [.iteratorClass "X", .iteratorScopes [⟨5, 20⟩]] ++ [0, 0, 0, 0]) =
        .error (.malformed (.trailingBytes 4 2)) := by
  have hread : decode (layout [.iteratorClass "X", .iteratorScopes [⟨5, 20⟩]]) =
      .ok [.iteratorClass "X", .iteratorScopes [⟨5, 20⟩]] := decode_eq_ok_iff.2 ⟨by decide, rfl⟩
  obtain ⟨htorn, hlonger, -⟩ := torn_and_prolonged_told_apart hread
  exact ⟨hread, htorn _ (List.take_prefix _ _) (by decide),
    hlonger _ (List.prefix_append _ _) (by decide)⟩

end DebugSymbols.Metadata
