import DebugSymbols.Proofs.Xml.Coupling
import DebugSymbols.Xml.OpenFile

/-!
# Buffered files take the whole text

As long as no write to it fails, a buffered file together with its buffer holds what was written so
far. Once it has been flushed it holds everything itself. Beside it goes a device that takes
everything and keeps the text as it is.
-/

namespace DebugSymbols.Xml

namespace OpenFile

/-! ## Writes to a file -/

variable {file reached : OpenFile} {bytes : ByteArray} {faults : Nat → Option WriteFault}

/-- What becomes of bytes that a file takes: file and buffer hold them behind what they held before,
or a write has failed. -/
inductive Takes (faults : Nat → Option WriteFault) (file : OpenFile) (bytes : ByteArray) :
    Except String Unit × OpenFile → Prop
  | taken {reached : OpenFile} (faults_eq : reached.faults = faults)
      (bytes_eq : reached.content ++ reached.buffer = file.content ++ file.buffer ++ bytes) :
      Takes faults file bytes (.ok (), reached)
  | failed (text : String) (reached : OpenFile) (hfault : ∃ write, faults write ≠ none) :
      Takes faults file bytes (.error text, reached)

theorem append_of_none (h : file.faults file.writes = none) (bytes : ByteArray) :
    file.append bytes =
      (.ok (), { file with content := file.content ++ bytes, writes := file.writes + 1 }) := by
  rw [append, h]

theorem exists_append_of_some {fault : WriteFault} (h : file.faults file.writes = some fault)
    (bytes : ByteArray) : ∃ reached, file.append bytes = (.error fault.text, reached) := by
  rw [append, h]
  exact ⟨_, rfl⟩

theorem takes_append (hfaults : file.faults = faults) (hbuffer : file.buffer = ByteArray.empty)
    (bytes : ByteArray) : Takes faults file bytes (file.append bytes) := by
  cases hfault : file.faults file.writes with
  | none =>
    rw [append_of_none hfault]
    refine .taken hfaults ?_
    rw [hbuffer, ByteArray.append_empty, ByteArray.append_empty]
  | some fault =>
    obtain ⟨reached, hreached⟩ := exists_append_of_some hfault bytes
    rw [hreached]
    refine .failed _ _ ⟨file.writes, ?_⟩
    rw [← hfaults, hfault]
    exact Option.some_ne_none fault

/-- What the buffer holds back is passed on, and then the buffer is empty. -/
theorem takes_drain (hfaults : file.faults = faults) :
    Takes faults file ByteArray.empty file.drain ∧
      (file.drain.1 = .ok () → file.drain.2.buffer = ByteArray.empty) := by
  rw [drain]
  split
  · rename_i hempty
    have hbuffer : file.buffer = ByteArray.empty := by
      rw [ByteArray.isEmpty, beq_iff_eq] at hempty
      exact ByteArray.size_eq_zero_iff.1 hempty
    exact ⟨.taken hfaults ByteArray.append_empty.symm, fun _ => hbuffer⟩
  · cases hfault : file.faults file.writes with
    | none =>
      rw [append_of_none hfault]
      have hdrained : file.buffer.extract ((file.content ++ file.buffer).size - file.content.size)
          file.buffer.size = ByteArray.empty := by
        rw [ByteArray.size_append, Nat.add_sub_cancel_left, ByteArray.extract_same]
      dsimp only
      rw [hdrained]
      exact ⟨.taken hfaults rfl, fun _ => rfl⟩
    | some fault =>
      obtain ⟨reached, hreached⟩ := exists_append_of_some hfault file.buffer
      rw [hreached]
      refine ⟨.failed _ _ ⟨file.writes, ?_⟩, fun h => nomatch h⟩
      rw [← hfaults, hfault]
      exact Option.some_ne_none fault

/-- A text is taken. -/
theorem takes_write (hfaults : file.faults = faults) (text : String) :
    Takes faults file text.toUTF8 (file.write text) := by
  rw [write]
  by_cases hfits : text.toUTF8.size ≤ bufferSize - file.buffer.size
  · rw [if_pos hfits]
    dsimp only
    split
    · exact .taken hfaults (ByteArray.append_assoc).symm
    · -- a text as long as the buffer fits if the buffer is empty
      rename_i hlong
      have hsize : file.buffer.size = 0 := by
        rw [bufferSize] at hfits hlong
        omega
      exact takes_append hfaults (ByteArray.size_eq_zero_iff.1 hsize) _
  · rw [if_neg hfits]
    obtain ⟨hdrain, hempty⟩ := takes_drain hfaults
    generalize file.drain = outcome at hdrain hempty ⊢
    cases hdrain with
    | failed error reached hfault => exact .failed error reached hfault
    | @taken reached hfaults' hbytes =>
      have hbuffer : reached.buffer = ByteArray.empty := hempty rfl
      rw [hbuffer, ByteArray.append_empty, ByteArray.append_empty] at hbytes
      dsimp only
      split
      · refine .taken hfaults' ?_
        dsimp only
        rw [hbuffer, ByteArray.empty_append, hbytes]
      · have happend := takes_append hfaults' hbuffer text.toUTF8
        generalize reached.append text.toUTF8 = last at happend ⊢
        cases happend with
        | failed error _ hfault => exact .failed error _ hfault
        | taken hfaults'' hbytes' =>
          refine .taken hfaults'' ?_
          rw [hbytes', hbuffer, ByteArray.append_empty, hbytes]

/-- A file that has been drained is closed with the content that it has. -/
theorem close_of_buffer_eq_empty (h : file.buffer = ByteArray.empty) :
    file.close = file.content := by
  have hempty : file.buffer.isEmpty = true := by
    rw [h]
    rfl
  rw [close, drain, if_pos hempty]

end OpenFile

/-! ## Stores -/

/-- File and buffer hold a text so far. -/
def OpenFile.Holds (faults : Nat → Option WriteFault) (file : OpenFile) (text : String) : Prop :=
  file.faults = faults ∧ file.content ++ file.buffer = text.toUTF8

/-- A buffered file holds what is written until a write to it fails. -/
theorem OpenFile.coupling (faults : Nat → Option WriteFault) :
    fileDevice.Coupling outputDevice (OpenFile.Holds faults)
      (fun _ _ => ∃ write, faults write ≠ none) where
  write text {file output} h := by
    obtain ⟨hfaults, hbytes⟩ := h
    have hwrite : Takes faults file text.toUTF8 (fileDevice.write text file) :=
      takes_write hfaults text
    have houtput : outputDevice.write text output = (.ok (), output ++ text) := rfl
    rw [houtput]
    generalize fileDevice.write text file = outcome at hwrite ⊢
    cases hwrite with
    | taken hfaults' hbytes' =>
      refine .together (.ok ()) ⟨hfaults', ?_⟩
      rw [hbytes', hbytes]
      exact String.toByteArray_append.symm
    | failed error reached hfault => exact .broken error (.ok ()) hfault
  flush {file output} h := by
    obtain ⟨hfaults, hbytes⟩ := h
    have hflush : Takes faults file ByteArray.empty (fileDevice.flush file) :=
      (takes_drain hfaults).1
    have houtput : outputDevice.flush output = (.ok (), output) := rfl
    rw [houtput]
    generalize fileDevice.flush file = outcome at hflush ⊢
    cases hflush with
    | taken hfaults' hbytes' =>
      refine .together (.ok ()) ⟨hfaults', ?_⟩
      rw [hbytes', ByteArray.append_empty, hbytes]
    | failed error reached hfault => exact .broken error (.ok ()) hfault
  broken_write _ _ _ h := h
  broken_flush h := h
  broken_write_other _ _ _ h := h
  broken_flush_other h := h

/-- The last thing that a store does to be closed is to flush its device. -/
theorem Store.exists_flush_of_close {ω : Type} {device : Device ω} {store last : Store ω}
    (h : (close device).outcome store = (.ok (), last)) :
    ∃ state, device.flush state = (.ok (), last.writer.device) := by
  rw [close, Attempt.outcome_bind, Attempt.outcome_get] at h
  dsimp only at h
  split at h
  · cases h
  · obtain ⟨_, _, -, hflush⟩ := Attempt.outcome_bind_eq_ok_iff.1 h
    obtain ⟨_, flushed, hflushed, hfinish⟩ := Attempt.outcome_bind_eq_ok_iff.1 hflush
    cases hfinish
    rename_i closed _
    rw [onWriter, Attempt.outcome_ofOutcome, Writer.flush] at hflushed
    refine ⟨closed.writer.device, ?_⟩
    generalize device.flush closed.writer.device = outcome at hflushed ⊢
    obtain ⟨_ | _, state⟩ := outcome
    · cases hflushed
    · cases hflushed
      rfl

end DebugSymbols.Xml
