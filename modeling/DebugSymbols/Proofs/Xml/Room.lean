import DebugSymbols.Proofs.Xml.Coupling
import DebugSymbols.Proofs.Xml.Watching
import DebugSymbols.Xml.Disk

/-!
# Stores on a disk with little room

A store on a disk that has room for so many bytes is compared with the same store on a disk without
a limit. Both go in step as long as everything fits. The first write that does not fit fills the
disk, and what it holds then are the first bytes of what the other disk holds. From there on the
disk stays as it is, whatever is asked of its store, and the other one holds these bytes and more.
-/

namespace DebugSymbols.Xml

/-! ## Disks -/

/-- Among the events there is a write that failed. -/
def Overflowed (events : List DeviceEvent) : Prop := ∃ text, .write text false ∈ events

theorem Overflowed.append {events more : List DeviceEvent} (h : Overflowed events) :
    Overflowed (events ++ more) :=
  h.imp fun _ hmem => List.mem_append_left _ hmem

/-- If the last event is not a failed write, then a failed write came before. -/
theorem Overflowed.of_append_singleton {events : List DeviceEvent} {last : DeviceEvent}
    (hlast : ∀ text, .write text false ≠ last) (h : Overflowed (events ++ [last])) :
    Overflowed events := by
  obtain ⟨text, hmem⟩ := h
  rcases List.mem_append.1 hmem with hbefore | hend
  · exact ⟨text, hbefore⟩
  · exact absurd (List.mem_singleton.1 hend) (hlast text)

namespace Disk

/-- A disk with limited room that has taken the same as one without a limit. -/
structure InStep (capacity : Nat) (bounded : Disk × List DeviceEvent) (unbounded : Disk) :
    Prop where
  capacity_eq : bounded.1.capacity = some capacity
  size_le : bounded.1.content.size ≤ capacity
  unbounded_eq : unbounded = { bounded.1 with capacity := none }
  not_overflowed : ¬ Overflowed bounded.2

/-- A full disk, which has failed a write, beside one without a limit that holds more. -/
structure CutOff (capacity : Nat) (bounded : Disk × List DeviceEvent) (unbounded : Disk) :
    Prop where
  capacity_eq : bounded.1.capacity = some capacity
  size_eq : bounded.1.content.size = capacity
  overflowed : Overflowed bounded.2
  unbounded_capacity : unbounded.capacity = none
  exists_more : ∃ more : ByteArray, unbounded.content = bounded.1.content ++ more ∧ 0 < more.size

variable {capacity : Nat} {bounded : Disk × List DeviceEvent} {unbounded : Disk}

theorem InStep.extract_content (h : InStep capacity bounded unbounded) :
    unbounded.content.extract 0 capacity = bounded.1.content := by
  have hmax : max capacity bounded.1.content.size = capacity := Nat.max_eq_left h.size_le
  rw [h.unbounded_eq]
  show bounded.1.content.extract 0 capacity = bounded.1.content
  rw [← hmax, ByteArray.extract_zero_max_size]

theorem CutOff.extract_content (h : CutOff capacity bounded unbounded) :
    unbounded.content.extract 0 capacity = bounded.1.content := by
  obtain ⟨more, hmore, -⟩ := h.exists_more
  rw [hmore, ByteArray.extract_append_eq_left h.size_eq.symm]

/-- The first bytes of a disk that has gone on are not all of them. -/
theorem CutOff.lt_size (h : CutOff capacity bounded unbounded) :
    capacity < unbounded.content.size := by
  obtain ⟨more, hmore, hpos⟩ := h.exists_more
  rw [hmore, ByteArray.size_append, h.size_eq]
  omega

/-- A text is kept as far as it fits. -/
theorem write_of_capacity {disk : Disk} (hcapacity : disk.capacity = some capacity)
    (text : String) :
    disk.write text =
      (if text.toUTF8.size ≤ capacity - disk.content.size then .ok () else .error "disk full",
        { disk with
          content := disk.content ++ text.toUTF8.extract 0 (capacity - disk.content.size) }) := by
  rw [write, hcapacity]
  dsimp only
  split <;> rfl

theorem write_of_none {disk : Disk} (hcapacity : disk.capacity = none) (text : String) :
    disk.write text = (.ok (), { disk with content := disk.content ++ text.toUTF8 }) := by
  rw [write, hcapacity]

/-- A text that fits is written to both disks; one that does not cuts the bounded one off. -/
theorem InStep.write (h : InStep capacity bounded unbounded) (text : String) :
    Coupled (InStep capacity) (CutOff capacity) (diskDevice.watched.write text bounded)
      (diskDevice.write text unbounded) := by
  obtain ⟨disk, seen⟩ := bounded
  obtain ⟨hcapacity, hsize, rfl, hfits⟩ := h
  have hbounded : diskDevice.watched.write text (disk, seen) = ((disk.write text).1,
      (disk.write text).2, seen ++ [.write text (disk.write text).1.isOk]) := rfl
  have hunbounded : diskDevice.write text { disk with capacity := none } =
      (.ok (), { disk with content := disk.content ++ text.toUTF8, capacity := none }) :=
    @write_of_none { disk with capacity := none } rfl text
  rw [hbounded, hunbounded, write_of_capacity hcapacity]
  dsimp only at hsize hfits ⊢
  by_cases hroom : text.toUTF8.size ≤ capacity - disk.content.size
  · have hall : text.toUTF8.extract 0 (capacity - disk.content.size) = text.toUTF8 := by
      rw [← Nat.max_eq_left hroom, ByteArray.extract_zero_max_size]
    rw [if_pos hroom, hall]
    refine .together (.ok ()) ⟨hcapacity, ?_, rfl, fun h => hfits (h.of_append_singleton ?_)⟩
    · rw [ByteArray.size_append]
      omega
    · intro other hother
      cases hother
  · rw [if_neg hroom]
    -- what fits fills the disk, and the rest of the text goes on from there
    have hwhole : text.toUTF8 = text.toUTF8.extract 0 (capacity - disk.content.size) ++
        text.toUTF8.extract (capacity - disk.content.size) text.toUTF8.size := by
      rw [← ByteArray.extract_eq_extract_append_extract _ (Nat.zero_le _) (by omega),
        ByteArray.extract_zero_size]
    refine .broken _ (.ok ()) ⟨hcapacity, ?_, ⟨text, ?_⟩, rfl,
      text.toUTF8.extract (capacity - disk.content.size) text.toUTF8.size, ?_, ?_⟩
    · rw [ByteArray.size_append, ByteArray.size_extract]
      omega
    · exact List.mem_append_right _ (List.mem_singleton.2 rfl)
    · dsimp only
      rw [ByteArray.append_assoc, ← hwhole]
    · rw [ByteArray.size_extract]
      omega

/-- A full disk keeps nothing of what is written. -/
theorem CutOff.write (h : CutOff capacity bounded unbounded) (text : String) :
    CutOff capacity (diskDevice.watched.write text bounded).2 unbounded := by
  obtain ⟨disk, seen⟩ := bounded
  obtain ⟨hcapacity, hsize, hoverflowed, hunbounded, hmore⟩ := h
  have hwatched : (diskDevice.watched.write text (disk, seen)).2 =
      ((disk.write text).2, seen ++ [.write text (disk.write text).1.isOk]) := rfl
  rw [hwatched, write_of_capacity hcapacity, hsize, Nat.sub_self, ByteArray.extract_same,
    ByteArray.append_empty]
  exact ⟨hcapacity, hsize, hoverflowed.append, hunbounded, hmore⟩

/-- A disk without a limit keeps what it holds. -/
theorem CutOff.write_unbounded (h : CutOff capacity bounded unbounded) (text : String) :
    CutOff capacity bounded (diskDevice.write text unbounded).2 := by
  obtain ⟨more, hmore, hpos⟩ := h.exists_more
  have hwrite : diskDevice.write text unbounded =
      (.ok (), { unbounded with content := unbounded.content ++ text.toUTF8 }) :=
    write_of_none h.unbounded_capacity text
  rw [hwrite]
  refine ⟨h.capacity_eq, h.size_eq, h.overflowed, h.unbounded_capacity, more ++ text.toUTF8, ?_, ?_⟩
  · dsimp only
    rw [hmore, ByteArray.append_assoc]
  · rw [ByteArray.size_append]
    omega

theorem InStep.flush (h : InStep capacity bounded unbounded) :
    Coupled (InStep capacity) (CutOff capacity) (diskDevice.watched.flush bounded)
      (diskDevice.flush unbounded) := by
  obtain ⟨disk, seen⟩ := bounded
  obtain ⟨hcapacity, hsize, rfl, hfits⟩ := h
  refine .together _ ⟨hcapacity, hsize, rfl, fun h => hfits (h.of_append_singleton ?_)⟩
  intro text htext
  cases htext

/-- A disk with limited room goes in step with one without a limit until it is cut off. -/
theorem coupling (capacity : Nat) :
    diskDevice.watched.Coupling diskDevice (InStep capacity) (CutOff capacity) where
  write text _ _ h := h.write text
  flush h := h.flush
  broken_write text _ _ h := h.write text
  broken_flush h := ⟨h.capacity_eq, h.size_eq, h.overflowed.append, h.unbounded_capacity,
    h.exists_more⟩
  broken_write_other text _ _ h := h.write_unbounded text
  broken_flush_other h := ⟨h.capacity_eq, h.size_eq, h.overflowed, h.unbounded_capacity,
    h.exists_more⟩

/-- Blank disks are in step. -/
theorem InStep.blank (capacity : Nat) (flushFails : Bool) :
    InStep capacity (Disk.blank (some capacity) flushFails, []) (Disk.blank none flushFails) := by
  refine ⟨rfl, Nat.zero_le capacity, rfl, ?_⟩
  rintro ⟨_, hmem⟩
  cases hmem

end Disk

/-! ## Stores -/

namespace Store

open Disk (CutOff)

variable {capacity : Nat} {bounded : Store (Disk × List DeviceEvent)} {unbounded : Store Disk}

/-- What a bounded disk holds are the first bytes of what a disk without a limit holds. -/
theorem Follows.extract_content
    (h : Follows (Disk.InStep capacity) (CutOff capacity) bounded unbounded) :
    bounded.writer.device.1.content = unbounded.writer.device.content.extract 0 capacity := by
  rcases h with hstep | hcut
  · exact hstep.writers.devices.extract_content.symm
  · exact (CutOff.extract_content hcut).symm

/-- A write has failed if and only if there was not enough room for everything. -/
theorem Follows.overflowed_iff
    (h : Follows (Disk.InStep capacity) (CutOff capacity) bounded unbounded) :
    Overflowed bounded.seen ↔ capacity < unbounded.writer.device.content.size := by
  rcases h with hstep | hcut
  · have hroom := hstep.writers.devices.size_le
    rw [hstep.writers.devices.unbounded_eq]
    exact iff_of_false hstep.writers.devices.not_overflowed (Nat.not_lt.2 hroom)
  · exact iff_of_true (CutOff.overflowed hcut) (CutOff.lt_size hcut)

/-- If no write has failed up to the end of a call, then both stores give the same answer. -/
theorem Follows.answer_eq (names : Option Names) (call : Call)
    (h : Follows (Disk.InStep capacity) (CutOff capacity) bounded unbounded)
    (hfits : ¬ Overflowed
      (((storeSink diskDevice.watched names).perform call).outcome bounded).2.seen) :
    (((storeSink diskDevice.watched names).perform call).outcome bounded).1 =
      (((storeSink diskDevice names).perform call).outcome unbounded).1 := by
  have hparallel := (Parallel.comparison (Disk.coupling capacity)).perform names call
  rcases h with hstep | hcut
  · have hcoupled := hparallel.coupled hstep
    generalize ((storeSink diskDevice.watched names).perform call).outcome bounded = outcome
      at hcoupled hfits ⊢
    generalize ((storeSink diskDevice names).perform call).outcome unbounded = outcome'
      at hcoupled ⊢
    cases hcoupled with
    | together result _ => rfl
    | broken error _ hcut => exact absurd (CutOff.overflowed hcut) hfits
  · exact absurd (CutOff.overflowed (hparallel.apart _ _ hcut)) hfits

/-- If no write has failed, then both stores give the same notices when they are given up. -/
theorem Follows.notices_eq (h : Follows (Disk.InStep capacity) (CutOff capacity) bounded unbounded)
    (hfits : ¬ Overflowed (giveUp diskDevice.watched bounded).2.seen) :
    (giveUp diskDevice.watched bounded).1 = (giveUp diskDevice unbounded).1 := by
  have hcoupling := Disk.coupling capacity
  rcases h with hstep | hcut
  · rcases giveUp_coupled hcoupling hstep with ⟨hnotices, -⟩ | hcut
    · exact hnotices
    · exact absurd (CutOff.overflowed hcut) hfits
  · exact absurd (CutOff.overflowed
      (giveUp_keeps (CutOff capacity · _) (fun _ => hcoupling.broken_flush) hcut)) hfits

/-- Whatever is asked of its store, a disk that has failed a write holds what it did. -/
theorem Follows.content_foldl_serve (names : Option Names) (requests : List Request)
    (h : Follows (Disk.InStep capacity) (CutOff capacity) bounded unbounded)
    (hfailed : Overflowed bounded.seen) :
    (requests.foldl (storeSink diskDevice.watched names).serve bounded).writer.device.1.content =
      bounded.writer.device.1.content := by
  rcases h with hstep | hcut
  · exact absurd hfailed hstep.writers.devices.not_overflowed
  · have hlater := apart_foldl_serve (Disk.coupling capacity) names requests hcut
    rw [← CutOff.extract_content hcut, ← CutOff.extract_content hlater]

/-- Let the same requests go to a store over a disk with room for so many bytes, which is watched,
and to a store over a disk without a limit. The bounded disk holds the first bytes of what the other
one holds, as many as it has room for, and a write has failed if and only if there are more. As long
as none has, both stores give the same answers and the same notices. Once one has, nothing that is
asked of the store changes what the disk holds. -/
theorem foldl_serve_full_disk (capacity : Nat) (flushFails : Bool) (names : Option Names)
    (requests : List Request) :
    let bounded := requests.foldl (storeSink diskDevice.watched names).serve
      (start diskDevice.watched (Disk.blank (some capacity) flushFails, [])).2
    let unbounded := requests.foldl (storeSink diskDevice names).serve
      (start diskDevice (Disk.blank none flushFails)).2
    bounded.unwatched = requests.foldl (storeSink diskDevice names).serve
        (start diskDevice (Disk.blank (some capacity) flushFails)).2 ∧
      bounded.writer.device.1.content = unbounded.writer.device.content.extract 0 capacity ∧
      (Overflowed bounded.seen ↔ capacity < unbounded.writer.device.content.size) ∧
      (∀ call, ¬ Overflowed (((storeSink diskDevice.watched names).perform call).outcome
          bounded).2.seen →
        (((storeSink diskDevice.watched names).perform call).outcome bounded).1 =
          (((storeSink diskDevice names).perform call).outcome unbounded).1) ∧
      (¬ Overflowed ((storeSink diskDevice.watched names).abort bounded).2.seen →
        ((storeSink diskDevice.watched names).abort bounded).1 =
          ((storeSink diskDevice names).abort unbounded).1) ∧
      (Overflowed bounded.seen → ∀ more : List Request,
        (more.foldl (storeSink diskDevice.watched names).serve bounded).writer.device.1.content =
          bounded.writer.device.1.content) := by
  intro bounded unbounded
  have hfollows : Follows (Disk.InStep capacity) (CutOff capacity) bounded unbounded :=
    follows_of_start (Disk.coupling capacity) names (Disk.InStep.blank capacity flushFails) requests
  refine ⟨(foldl_serve_unwatched diskDevice names _ requests).symm, hfollows.extract_content,
    hfollows.overflowed_iff, fun call => ?_, hfollows.notices_eq, fun hfailed more => ?_⟩
  · exact hfollows.answer_eq names call
  · exact hfollows.content_foldl_serve names more hfailed

end Store

end DebugSymbols.Xml
