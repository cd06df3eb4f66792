import DebugSymbols.Proofs.Xml.Comparison

/-!
# Watched devices

To speak about what a store asks of its device, and when, the device is watched: its state comes
with the list of all writes and flushes so far, and whether they succeeded. Any device can be
watched, and a store over a watched device answers every call as the store over the device itself.
-/

namespace DebugSymbols.Xml

/-! ## Devices -/

/-- What a device is asked for, and whether it did it. -/
inductive DeviceEvent
  | write (text : String) (done : Bool)
  | flush (done : Bool)
deriving DecidableEq, Repr

/-- The device that keeps what it is asked for. -/
def Device.watched {ω : Type} (device : Device ω) : Device (ω × List DeviceEvent) where
  write text := fun (state, seen) =>
    let (result, next) := device.write text state
    (result, next, seen ++ [.write text result.isOk])
  flush := fun (state, seen) =>
    let (result, next) := device.flush state
    (result, next, seen ++ [.flush result.isOk])

/-- The events of writing texts one after the other: all of them, or those up to a failure. -/
inductive WriteEvents (texts : List String) : Except String Unit → List DeviceEvent → Prop
  | complete : WriteEvents texts (.ok ()) (texts.map (.write · true))
  | cut (front : List String) (text : String) (back : List String) (error : String)
      (texts_eq : texts = front ++ text :: back) :
      WriteEvents texts (.error error) (front.map (.write · true) ++ [.write text false])

variable {ω : Type} {device : Device ω}

theorem WriteEvents.cons {text : String} {texts : List String} {result : Except String Unit}
    {events : List DeviceEvent} (h : WriteEvents texts result events) :
    WriteEvents (text :: texts) result (.write text true :: events) := by
  cases h with
  | complete => exact .complete
  | cut front last back error heq => exact .cut (text :: front) last back error (heq ▸ rfl)

/-- Texts that are written to a watched device are written to the device, and seen. -/
theorem Device.writeAll_watched (device : Device ω) (pieces : List String) (state : ω)
    (seen : List DeviceEvent) :
    ∃ events, WriteEvents (pieces.filter (!·.isEmpty)) (device.writeAll pieces state).1 events ∧
      device.watched.writeAll pieces (state, seen) =
        ((device.writeAll pieces state).1, (device.writeAll pieces state).2, seen ++ events) := by
  induction pieces generalizing state seen with
  | nil => exact ⟨[], .complete, by rw [List.append_nil]; rfl⟩
  | cons piece pieces ih =>
    rw [writeAll, writeAll, List.filter_cons]
    by_cases hempty : piece.isEmpty = true
    · rw [if_pos hempty, if_pos hempty, if_neg (by simp [hempty])]
      exact ih state seen
    · have hwatched : device.watched.write piece (state, seen) =
          ((device.write piece state).1, (device.write piece state).2,
            seen ++ [.write piece (device.write piece state).1.isOk]) := rfl
      rw [if_neg hempty, if_neg hempty, if_pos (by simp [hempty]), hwatched]
      rcases device.write piece state with ⟨error | _, next⟩
      · exact ⟨[.write piece false], .cut [] piece _ error rfl, rfl⟩
      · obtain ⟨events, hevents, hrest⟩ := ih next (seen ++ [.write piece true])
        refine ⟨.write piece true :: events, hevents.cons, hrest.trans ?_⟩
        rw [List.append_assoc, List.singleton_append]

/-! ## Writers -/

namespace Writer

/-- The writer over the device itself. -/
def unwatched (writer : Writer (ω × List DeviceEvent)) : Writer ω :=
  { writer with device := writer.device.1 }

/-- The texts that a writer writes for a piece of markup. -/
def texts (writer : Writer ω) (markup : Markup) : List String :=
  ((if writer.started then lineBreak (depthAt writer.depth markup) else []) ++
    markup.pieces).filter (!·.isEmpty)

/-- A piece of markup that is put on a watched device is put on the device, and seen. -/
theorem put_watched (device : Device ω) (markup : Markup)
    (writer : Writer (ω × List DeviceEvent)) :
    ∃ events, WriteEvents (writer.texts markup) (put device markup writer.unwatched).1 events ∧
      put device.watched markup writer = ((put device markup writer.unwatched).1,
        ⟨((put device markup writer.unwatched).2.device, writer.device.2 ++ events),
          depthAfter writer.depth markup, true⟩) := by
  obtain ⟨⟨state, seen⟩, depth, started⟩ := writer
  obtain ⟨events, hevents, hput⟩ := device.writeAll_watched
    ((if started then lineBreak (depthAt depth markup) else []) ++ markup.pieces) state seen
  refine ⟨events, hevents, ?_⟩
  rw [put, hput]
  rfl

/-- A flush of a watched device is seen. -/
theorem flush_watched (device : Device ω) (writer : Writer (ω × List DeviceEvent)) :
    ∃ result state, flush device.watched writer = (result,
      { writer with device := (state, writer.device.2 ++ [.flush result.isOk]) }) :=
  ⟨_, _, rfl⟩

end Writer

/-! ## Stores -/

namespace Store

/-- The store over the device itself. -/
def unwatched (store : Store (ω × List DeviceEvent)) : Store ω :=
  { store with writer := store.writer.unwatched }

/-- What the device of a store has seen. -/
def seen (store : Store (ω × List DeviceEvent)) : List DeviceEvent := store.writer.device.2

/-- An attempt on a store over a watched device is the one on the store over the device itself. -/
def Watches {α : Type} (attempt : Attempt (Store ω) α)
    (watched : Attempt (Store (ω × List DeviceEvent)) α) : Prop :=
  ∀ store, attempt.outcome store.unwatched =
    ((watched.outcome store).1, (watched.outcome store).2.unwatched)

namespace Watches

variable {α β : Type}

theorem bind {attempt : Attempt (Store ω) α} {watched : Attempt (Store (ω × List DeviceEvent)) α}
    {next : α → Attempt (Store ω) β}
    {watchedNext : α → Attempt (Store (ω × List DeviceEvent)) β}
    (hattempt : Watches attempt watched)
    (hnext : ∀ value, Watches (next value) (watchedNext value)) :
    Watches (attempt >>= next) (watched >>= watchedNext) := by
  intro store
  rw [Attempt.outcome_bind, Attempt.outcome_bind, hattempt store]
  rcases watched.outcome store with ⟨error | value, reached⟩
  · rfl
  · exact hnext value reached

theorem onWriter (operation : Operation) {step : Writer ω → Except String Unit × Writer ω}
    {watchedStep : Writer (ω × List DeviceEvent) →
      Except String Unit × Writer (ω × List DeviceEvent)}
    (hstep : ∀ writer, step writer.unwatched =
      ((watchedStep writer).1, (watchedStep writer).2.unwatched)) :
    Watches (onWriter operation step) (Store.onWriter operation watchedStep) := by
  intro store
  rw [Store.onWriter, Store.onWriter, Attempt.outcome_ofOutcome, Attempt.outcome_ofOutcome]
  have hwriter : store.unwatched.writer = store.writer.unwatched := rfl
  rw [hwriter, hstep]
  rcases watchedStep store.writer with ⟨_ | _, writer⟩ <;> rfl

/-- Every step of a store over a watched device is the one of the store over the device itself. -/
theorem comparison (device : Device ω) : Comparison device device.watched fun _ => Watches where
  lift result := fun store => by rw [Attempt.outcome_lift, Attempt.outcome_lift]
  bind := bind
  read := by
    intro _ next watchedNext hnext store
    rw [Attempt.outcome_bind, Attempt.outcome_bind, Attempt.outcome_get, Attempt.outcome_get]
    exact hnext store.unwatched store rfl store
  modify _ := fun _ => rfl
  write operation markup := by
    refine onWriter operation fun writer => ?_
    obtain ⟨events, -, hput⟩ := Writer.put_watched device markup writer
    rw [hput]
    rfl
  flush operation := onWriter operation fun _ => rfl

theorem perform (device : Device ω) (names : Option Names) (call : Call) :
    Watches ((storeSink device names).perform call)
      ((storeSink device.watched names).perform call) :=
  (comparison device).perform names call

end Watches

/-- Requests to a store over a watched device lead where they lead with the device itself. -/
theorem serve_unwatched (device : Device ω) (names : Option Names)
    (store : Store (ω × List DeviceEvent)) (request : Request) :
    (storeSink device names).serve store.unwatched request =
      ((storeSink device.watched names).serve store request).unwatched := by
  cases request with
  | call call => exact congrArg Prod.snd (Watches.perform device names call store)
  | abort =>
    have hflush : Writer.flush device store.unwatched.writer =
        ((Writer.flush device.watched store.writer).1,
          (Writer.flush device.watched store.writer).2.unwatched) := rfl
    have hfinished : store.unwatched.finished = store.finished := rfl
    show (giveUp device store.unwatched).2 = (giveUp device.watched store).2.unwatched
    rw [giveUp, giveUp, hflush, hfinished]
    split
    · rfl
    · rcases Writer.flush device.watched store.writer with ⟨_ | _, writer⟩ <;> rfl

theorem start_unwatched (device : Device ω) (state : ω) :
    start device state = ((start device.watched (state, [])).1,
      (start device.watched (state, [])).2.unwatched) :=
  (Watches.comparison device).head ⟨⟨(state, []), 0, false⟩, 0, [], false⟩

/-- Whatever is asked of it, a store over a watched device is the store over the device itself. -/
theorem foldl_serve_unwatched (device : Device ω) (names : Option Names) (state : ω)
    (requests : List Request) :
    requests.foldl (storeSink device names).serve (start device state).2 =
      (requests.foldl (storeSink device.watched names).serve
        (start device.watched (state, [])).2).unwatched := by
  rw [start_unwatched]
  exact List.foldl_hom unwatched fun store request => serve_unwatched device names store request

end Store

end DebugSymbols.Xml
