import DebugSymbols.Bytes.Buffer
import DebugSymbols.Proofs.Attempt

/-!
# Filling a buffer from its front

A buffer that starts as zeros and is written from its front on is what was written so far, and
behind it the zeros that are left. A step that writes at the end of what was written appends to it
and takes as much from the zeros; `Appends` says so and names the bytes. Steps that append can be
put one after the other, so a buffer that has room for all of them is never too short for one of
them.
-/

namespace DebugSymbols.Bytes

variable {α β : Type} [Word α]

/-- A buffer with what was written into it so far, and zeros that are left. -/
def filled (written : List UInt8) (free : Nat) : List UInt8 := written ++ List.replicate free 0

/-- A step that changes a buffer at an offset and gives the offset behind the change. -/
abbrev WriteStep : Type := List UInt8 → Nat → Except SymbolError (List UInt8 × Nat)

/-- If there is room for `width` bytes behind what was written, a step appends the bytes of `result`
there; it fails if there are no such bytes, and never because of the buffer. -/
structure Appends (step : WriteStep) (width : Nat) (result : Except SymbolError (List UInt8)) :
    Prop where
  length_eq : ∀ bytes, result = .ok bytes → bytes.length = width
  fill : ∀ (written : List UInt8) (free : Nat), width ≤ free →
    step (filled written free) written.length =
      result.map fun bytes => (filled (written ++ bytes) (free - width), written.length + width)

namespace Appends

/-- Writing an integer appends its bytes. -/
theorem write (value : α) :
    Appends (fun buffer offset => writeAt buffer offset value) (Word.width α)
      (.ok (Word.toBytes value)) where
  length_eq bytes h := by
    cases h
    exact Word.length_toBytes value
  fill written free h := by
    have hroom : written.length + Word.width α ≤ (filled written free).length := by
      rw [filled, List.length_append, List.length_replicate]
      omega
    have hfront : (filled written free).take written.length = written := by
      rw [filled, List.take_left]
    have hback : (filled written free).drop (written.length + Word.width α) =
        List.replicate (free - Word.width α) 0 := by
      rw [filled, ← List.drop_drop, List.drop_left, List.drop_replicate]
    rw [writeAt, if_pos hroom, hfront, hback]
    rfl

/-- A step that needs a value first appends what it does with the value, if there is one. -/
theorem after {width : Nat} {step : β → WriteStep} {bytes : β → List UInt8}
    (hstep : ∀ value, Appends (step value) width (.ok (bytes value)))
    (value : Except SymbolError β) :
    Appends (fun buffer offset => value >>= fun value => step value buffer offset) width
      (value.map bytes) := by
  cases value with
  | error error =>
    refine ⟨?_, fun _ _ _ => rfl⟩
    intro _ h
    cases h
  | ok value => exact hstep value

/-- Two steps one after the other append the bytes of both. -/
theorem bind {first second : WriteStep} {width width' : Nat}
    {front back : Except SymbolError (List UInt8)} (hfirst : Appends first width front)
    (hsecond : Appends second width' back) :
    Appends (fun buffer offset => first buffer offset >>= fun next => second next.1 next.2)
      (width + width') (front >>= fun bytes => back.map (bytes ++ ·)) where
  length_eq bytes h := by
    obtain ⟨bytesFront, hfront, h⟩ := bind_eq_ok_iff.1 h
    obtain ⟨bytesBack, hback, rfl⟩ := map_eq_ok_iff.1 h
    rw [List.length_append, hfirst.length_eq _ hfront, hsecond.length_eq _ hback]
  fill written free h := by
    rw [hfirst.fill written free (by omega)]
    cases front with
    | error error => rfl
    | ok bytes =>
      have hlength : (written ++ bytes).length = written.length + width := by
        rw [List.length_append, hfirst.length_eq bytes rfl]
      have hnext := hsecond.fill (written ++ bytes) (free - width) (by omega)
      rw [hlength] at hnext
      refine hnext.trans ?_
      cases back with
      | error error => rfl
      | ok more =>
        show Except.ok (filled (written ++ bytes ++ more) (free - width - width'), _) =
          Except.ok (filled (written ++ (bytes ++ more)) (free - (width + width')), _)
        rw [List.append_assoc, Nat.sub_sub, Nat.add_assoc]

/-- A step for each value of a list appends the bytes of all of them. -/
theorem foldlM {step : β → WriteStep} {width : Nat} {result : β → Except SymbolError (List UInt8)}
    (hstep : ∀ value, Appends (step value) width (result value)) (values : List β) :
    Appends (fun buffer offset => values.foldlM (fun next value => step value next.1 next.2)
      (buffer, offset)) (width * values.length) ((values.mapM result).map List.flatten) := by
  induction values with
  | nil =>
    refine ⟨?_, fun written free _ => ?_⟩
    · intro bytes h
      cases h
      rfl
    · rw [filled]
      show Except.ok (written ++ List.replicate free 0, written.length) =
        Except.ok (filled (written ++ []) (free - 0), written.length + 0)
      rw [List.append_nil, Nat.sub_zero, Nat.add_zero, filled]
  | cons value values ih =>
    have hbytes : ((value :: values).mapM result).map List.flatten =
        result value >>= fun bytes =>
          ((values.mapM result).map List.flatten).map (bytes ++ ·) := by
      rw [List.mapM_cons]
      cases result value with
      | error error => rfl
      | ok bytes => cases values.mapM result <;> rfl
    have hboth := (hstep value).bind ih
    rw [← hbytes] at hboth
    rw [List.length_cons, Nat.mul_succ, Nat.add_comm]
    simp only [List.foldlM_cons]
    exact hboth

end Appends

end DebugSymbols.Bytes
