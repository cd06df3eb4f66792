import DebugSymbols.Proofs.Bytes.Cursor
import DebugSymbols.Proofs.Bytes.InPlace

/-!
# Sequences of accesses

A cursor serves one access after the other, whether the ones before have succeeded or not. What one
access does is said by the bytes it consumes: it passes them, and if it fails it passes none. So a
sequence of accesses passes the bytes that its answers have consumed, and the cursor stands behind
exactly these.

The machine keeps a position instead of a cursor. It gives the same answers to every sequence and
stands at the position of the cursor, so its position never leaves the bytes either.
-/

namespace DebugSymbols.Bytes.Cursor

/-- An access to the bytes behind a cursor. There is no alignment of zero. -/
inductive Access : Type 1
  | read (α : Type) [word : Word α]
  | take (count : Nat)
  | align (alignment : Nat) (positive : 0 < alignment)
  | rest

namespace Access

/-- The values that an access gives. -/
def Value : Access → Type
  | read α => α
  | take _ | align _ _ | rest => List UInt8

/-- The number of bytes that an access asks for at a position. -/
def demand (position : Nat) : Access → Nat
  | read α => Word.width α
  | take count => count
  | align alignment _ => paddingFor position alignment
  | rest => 0

/-- The bytes that an access has consumed when it gives a value. -/
def consumed : (access : Access) → access.Value → List UInt8
  | read α, value => @Word.toBytes α _ value
  | take _, bytes | align _ _, bytes => bytes
  | rest, _ => []

/-- The value of an access, with the cursor behind it. -/
def perform (cursor : Cursor) : (access : Access) → Except SymbolError (access.Value × Cursor)
  | read α => cursor.read α
  | take count => cursor.take count
  | align alignment _ => cursor.align alignment
  | rest => .ok (cursor.rest, cursor)

/-- The access as the machine makes it. -/
def inPlace (data : List UInt8) : (access : Access) → InPlace Nat access.Value
  | read α => InPlace.read α data
  | take count => InPlace.take data count
  | align alignment _ => InPlace.align data alignment
  | rest => InPlace.rest data

end Access

/-- An access and what came of it. -/
structure Answer : Type 1 where
  access : Access
  result : Except SymbolError access.Value

/-- The bytes that an access has consumed, if it has succeeded. -/
def Answer.consumed (answer : Answer) : List UInt8 :=
  match answer.result with
  | .ok value => answer.access.consumed value
  | .error _ => []

/-- What comes of an access, and the cursor that is left. -/
def serve (cursor : Cursor) (access : Access) : Except SymbolError access.Value × Cursor :=
  settle (access.perform cursor) cursor

/-- What comes of a sequence of accesses, and the cursor that is left. -/
def run (cursor : Cursor) : List Access → List Answer × Cursor
  | [] => ([], cursor)
  | access :: accesses =>
    let (result, next) := cursor.serve access
    let (answers, last) := next.run accesses
    (⟨access, result⟩ :: answers, last)

/-- The sequence of accesses as the machine makes it from a position. -/
def runInPlace (data : List UInt8) (position : Nat) : List Access → Except Trap (List Answer × Nat)
  | [] => .ok ([], position)
  | access :: accesses =>
    match (access.inPlace data).outcome position with
    | .error trap => .error trap
    | .ok (result, next) => (runInPlace data next accesses).map fun (answers, last) =>
        (⟨access, result⟩ :: answers, last)

/-! ## One access -/

namespace Access

variable {cursor next : Cursor} {access : Access}

/-- An access that succeeds passes the bytes it consumes, and these are as many as it asks for. -/
theorem passes_of_perform {value : access.Value}
    (h : access.perform cursor = .ok (value, next)) :
    cursor.Passes (access.consumed value) next ∧
      (access.consumed value).length = access.demand cursor.position := by
  cases access with
  | read α => exact ⟨read_eq_ok_iff.1 h, @Word.length_toBytes α _ value⟩
  | take count => exact (take_eq_ok_iff.1 h).symm
  | align alignment _ => exact (align_eq_ok_iff.1 h).symm
  | rest =>
    cases h
    exact ⟨passes_nil_iff.2 rfl, rfl⟩

/-- An access succeeds exactly if as many bytes are left as it asks for. -/
theorem exists_perform_iff :
    (∃ value next, access.perform cursor = .ok (value, next)) ↔
      access.demand cursor.position ≤ cursor.remaining := by
  have hremaining : cursor.rest.length = cursor.remaining := cursor.length_rest
  constructor
  · rintro ⟨value, next, h⟩
    obtain ⟨hpasses, hlength⟩ := passes_of_perform h
    rw [← hremaining, hpasses.rest_eq, List.length_append, hlength]
    exact Nat.le_add_right _ _
  · rw [← hremaining]
    intro h
    cases access with
    | read α => exact exists_read α h
    | take count => exact exists_take h
    | align alignment _ => exact exists_take h
    | rest => exact ⟨_, _, rfl⟩

theorem failsOnly_perform {allowed : SymbolError → Prop} (hallowed : allowed .outOfBounds)
    (cursor : Cursor) (access : Access) : FailsOnly allowed (access.perform cursor) := by
  cases access with
  | read α => exact failsOnly_read hallowed α cursor
  | take count => exact failsOnly_take hallowed cursor count
  | align alignment _ => exact failsOnly_take hallowed cursor _
  | rest => exact FailsOnly.ok _

end Access

/-- A cursor passes what an access consumes, and nothing if the access fails. -/
theorem passes_serve (cursor : Cursor) (access : Access) :
    cursor.Passes (Answer.consumed ⟨access, (cursor.serve access).1⟩)
      (cursor.serve access).2 := by
  rw [serve]
  cases hperform : access.perform cursor with
  | error error => exact passes_nil_iff.2 rfl
  | ok reached => exact (Access.passes_of_perform hperform).1

/-- An access is answered with a value or is out of bounds, and then the cursor stays. -/
theorem serve_eq (cursor : Cursor) (access : Access) :
    (∃ value next, access.demand cursor.position ≤ cursor.remaining ∧
        cursor.serve access = (.ok value, next) ∧
        next.position = cursor.position + access.demand cursor.position) ∨
      cursor.remaining < access.demand cursor.position ∧
        cursor.serve access = (.error .outOfBounds, cursor) := by
  rw [serve]
  cases hperform : access.perform cursor with
  | error error =>
    have hfails : FailsOnly (· = .outOfBounds) (access.perform cursor) :=
      Access.failsOnly_perform (by rfl) cursor access
    cases hfails error hperform
    refine Or.inr ⟨Nat.lt_of_not_le fun hroom => ?_, rfl⟩
    obtain ⟨_, _, hok⟩ := Access.exists_perform_iff.2 hroom
    rw [hperform] at hok
    cases hok
  | ok reached =>
    obtain ⟨value, next⟩ := reached
    obtain ⟨hpasses, hlength⟩ := Access.passes_of_perform hperform
    refine Or.inl ⟨value, next, Access.exists_perform_iff.1 ⟨value, next, hperform⟩, rfl, ?_⟩
    rw [hpasses.position_eq, hlength]

/-! ## Sequences -/

/-- A cursor passes what the accesses of a sequence consume. -/
theorem passes_run (cursor : Cursor) (accesses : List Access) :
    cursor.Passes ((cursor.run accesses).1.flatMap Answer.consumed) (cursor.run accesses).2 := by
  induction accesses generalizing cursor with
  | nil => exact passes_nil_iff.2 rfl
  | cons access accesses ih =>
    rw [run, List.flatMap_cons, passes_append_iff]
    exact ⟨_, cursor.passes_serve access, ih _⟩

/-! ## Accesses in place -/

/-- The machine takes the bytes that the cursor takes. -/
theorem outcome_take {cursor : Cursor} (hdata : cursor.data.size < UInt64.size) (count : Nat) :
    (InPlace.take cursor.data.toList count).outcome cursor.position =
      .ok ((settle (cursor.take count) cursor).map id position) := by
  rw [InPlace.outcome_take (by simpa using hdata), Array.length_toList, take_eq]
  by_cases hroom : cursor.position + count ≤ cursor.data.size
  · rw [if_pos hroom, dif_pos hroom, rest_eq_drop]
    rfl
  · rw [if_neg hroom, dif_neg hroom]
    rfl

/-- A cursor reads the integer at its position. -/
theorem readAt_position (α : Type) [Word α] (cursor : Cursor) :
    readAt α cursor.data.toList cursor.position =
      (cursor.read α).map fun (value, next) => (value, next.position) := by
  rw [readAt, read, take_eq, Array.length_toList]
  by_cases hroom : cursor.position + Word.width α ≤ cursor.data.size
  · rw [if_pos hroom, dif_pos hroom, rest_eq_drop]
    rfl
  · rw [if_neg hroom, dif_neg hroom]
    rfl

/-- The machine answers an access as the cursor does, and its position is that of the cursor. -/
theorem outcome_inPlace {cursor : Cursor} (hdata : cursor.data.size < UInt64.size)
    (access : Access) :
    (access.inPlace cursor.data.toList).outcome cursor.position =
      .ok ((cursor.serve access).map id position) := by
  cases access with
  | read α =>
    show (InPlace.read α cursor.data.toList).outcome cursor.position = _
    rw [InPlace.outcome_read α (by simpa using hdata), readAt_position, serve, Access.perform]
    cases cursor.read α <;> rfl
  | take count => exact outcome_take hdata count
  | align alignment positive =>
    exact (InPlace.outcome_align positive _).trans (outcome_take hdata _)
  | rest =>
    refine (InPlace.outcome_rest _ _).trans ?_
    rw [← rest_eq_drop]
    rfl

/-- The machine answers a sequence of accesses as the cursor does. -/
theorem runInPlace_eq {cursor : Cursor} (hdata : cursor.data.size < UInt64.size)
    (accesses : List Access) :
    runInPlace cursor.data.toList cursor.position accesses =
      .ok ((cursor.run accesses).map id position) := by
  induction accesses generalizing cursor with
  | nil => rfl
  | cons access accesses ih =>
    -- the machine goes on with the same bytes, the cursor with those of the next one
    have hnext : (cursor.serve access).2.data = cursor.data := (cursor.passes_serve access).data_eq
    have hrun := ih (hnext ▸ hdata)
    rw [hnext] at hrun
    rw [runInPlace, outcome_inPlace hdata]
    show Except.map _ (runInPlace cursor.data.toList (cursor.serve access).2.position accesses) = _
    rw [hrun]
    rfl

/-- Whatever accesses are made to a sequence of bytes, and whether they succeed or not, the position
stays within the bytes and divides them: in front of it is what the accesses have consumed, one
behind the other, and behind it is the rest. The next access, of any kind, succeeds exactly if as
many bytes are left as it asks for, and moves by so many; else it is out of bounds and the cursor
stays. The machine is not trapped, gives the same answers and stands at the same position, if it can
count the bytes. -/
theorem accesses_in_order (data : List UInt8) (accesses : List Access) :
    let answers := ((start data).run accesses).1
    let cursor := ((start data).run accesses).2
    cursor.position ≤ cursor.length ∧ cursor.length = data.length ∧
      cursor.position + cursor.remaining = cursor.length ∧
      cursor.hasMore = decide (0 < cursor.remaining) ∧
      answers.flatMap Answer.consumed = data.take cursor.position ∧
      cursor.rest = data.drop cursor.position ∧
      (∀ access : Access,
        (∃ value next, access.demand cursor.position ≤ cursor.remaining ∧
            cursor.serve access = (.ok value, next) ∧
            next.position = cursor.position + access.demand cursor.position) ∨
          cursor.remaining < access.demand cursor.position ∧
            cursor.serve access = (.error .outOfBounds, cursor)) ∧
      (data.length < UInt64.size →
        runInPlace data 0 accesses = .ok (answers, cursor.position)) := by
  intro answers cursor
  obtain ⟨hdata, hposition, hrest⟩ := (start data).passes_run accesses
  have hle : cursor.position ≤ cursor.data.size := cursor.position_le
  have hsplit : data = answers.flatMap Answer.consumed ++ cursor.rest :=
    (rest_start data).symm.trans hrest
  have hlength : (answers.flatMap Answer.consumed).length = cursor.position :=
    ((Nat.zero_add _).symm.trans hposition.symm)
  refine ⟨hle, ?_, Nat.add_sub_cancel' hle, ?_, ?_, ?_, cursor.serve_eq, fun hsize => ?_⟩
  · rw [length, hdata, start, List.size_toArray]
  · rw [hasMore, remaining, decide_eq_decide]
    exact Nat.sub_pos_iff_lt.symm
  · rw [hsplit, ← hlength, List.take_left]
  · rw [← hlength]
    exact List.drop_left.symm.trans (congrArg (List.drop _) hsplit.symm)
  · have hstart : (start data).data.size < UInt64.size := hsize
    exact runInPlace_eq hstart accesses

/-- Two of five accesses are out of bounds. One of them asks for all the bytes that a machine word
can count, behind a position that is not zero. -/
theorem accesses_in_order_outOfBounds :
    let data : List UInt8 := [1, 2, 3, 4, 5]
    let accesses : List Access := [.read UInt16, .take (UInt64.size - 1),
      .align 4 (Nat.zero_lt_succ 3), .read Int32, .rest]
    let answers := ((start data).run accesses).1
    answers.map Answer.consumed = [[1, 2], [], [3, 4], [], []] ∧
      answers.flatMap Answer.consumed = data.take 4 ∧
      runInPlace data 0 accesses = .ok (answers, 4) := by
  intro data accesses answers
  have hposition : ((start data).run accesses).2.position = 4 := rfl
  have heach : answers.map Answer.consumed = [[1, 2], [], [3, 4], [], []] := by
    show ((start [1, 2, 3, 4, 5]).run [.read UInt16, .take (UInt64.size - 1),
      .align 4 (Nat.zero_lt_succ 3), .read Int32, .rest]).1.map Answer.consumed = _
    decide
  obtain ⟨-, -, -, -, hconsumed, -, -, hmachine⟩ := accesses_in_order data accesses
  rw [hposition] at hconsumed hmachine
  exact ⟨heach, hconsumed, hmachine (by decide)⟩

end DebugSymbols.Bytes.Cursor
