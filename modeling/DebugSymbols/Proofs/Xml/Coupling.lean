import DebugSymbols.Proofs.Xml.Comparison

/-!
# Stores over coupled devices

Two devices are coupled if they take the same texts with the same answers until the first of them
fails where the other one does not. From there on they are apart, whatever either of them is asked
for. Stores over coupled devices answer alike as long as the devices are in step.
-/

namespace DebugSymbols.Xml

open Attempt (Keeps)

variable {ω ω' : Type}

/-! ## Devices -/

/-- Two outcomes are the same with states in step, or the first one is a failure that leaves the
states apart. -/
inductive Coupled {σ σ' ε α : Type} (InStep Apart : σ → σ' → Prop) :
    Except ε α × σ → Except ε α × σ' → Prop
  | together {state : σ} {state' : σ'} (result : Except ε α) (h : InStep state state') :
      Coupled InStep Apart (result, state) (result, state')
  | broken {state : σ} {state' : σ'} (error : ε) (result : Except ε α) (h : Apart state state') :
      Coupled InStep Apart (.error error, state) (result, state')

/-- Devices that are in step until the first one fails, and apart from then on. -/
structure Device.Coupling (device : Device ω) (other : Device ω')
    (Together Broken : ω → ω' → Prop) : Prop where
  write : ∀ (text : String) {state : ω} {state' : ω'}, Together state state' →
    Coupled Together Broken (device.write text state) (other.write text state')
  flush : ∀ {state : ω} {state' : ω'}, Together state state' →
    Coupled Together Broken (device.flush state) (other.flush state')
  broken_write : ∀ (text : String) {state : ω} {state' : ω'}, Broken state state' →
    Broken (device.write text state).2 state'
  broken_flush : ∀ {state : ω} {state' : ω'}, Broken state state' →
    Broken (device.flush state).2 state'
  broken_write_other : ∀ (text : String) {state : ω} {state' : ω'}, Broken state state' →
    Broken state (other.write text state').2
  broken_flush_other : ∀ {state : ω} {state' : ω'}, Broken state state' →
    Broken state (other.flush state').2

/-- What each write keeps is kept by writing texts one after the other. -/
theorem Device.writeAll_keeps {device : Device ω} (holds : ω → Prop)
    (hwrite : ∀ text state, holds state → holds (device.write text state).2) (pieces : List String)
    {state : ω} (h : holds state) : holds (device.writeAll pieces state).2 := by
  induction pieces generalizing state with
  | nil => exact h
  | cons piece pieces ih =>
    rw [writeAll]
    split
    · exact ih h
    · have hnext := hwrite piece state h
      generalize device.write piece state = outcome at hnext ⊢
      rcases outcome with ⟨_ | _, next⟩
      · exact hnext
      · exact ih hnext

variable {device : Device ω} {other : Device ω'} {Together Broken : ω → ω' → Prop}

theorem Device.Coupling.writeAll (h : Coupling device other Together Broken) (pieces : List String)
    {state : ω} {state' : ω'} (hstep : Together state state') :
    Coupled Together Broken (device.writeAll pieces state) (other.writeAll pieces state') := by
  induction pieces generalizing state state' with
  | nil => exact .together _ hstep
  | cons piece pieces ih =>
    rw [Device.writeAll, Device.writeAll]
    split
    · exact ih hstep
    · have hwrite := h.write piece hstep
      generalize device.write piece state = outcome at hwrite ⊢
      generalize other.write piece state' = outcome' at hwrite ⊢
      cases hwrite with
      | together result hnext =>
        rcases result with error | _
        · exact .together (.error error) hnext
        · exact ih hnext
      | broken error result hnext =>
        -- the second device goes on alone
        rcases result with error' | _
        · exact .broken error (.error error') hnext
        · have hrest : Broken _ (other.writeAll pieces _).2 :=
            Device.writeAll_keeps _ (fun text _ => h.broken_write_other text) pieces hnext
          exact .broken error _ hrest

/-! ## Writers -/

/-- Writers over devices in step, at the same place. -/
structure Writer.InStep (Devices : ω → ω' → Prop) (writer : Writer ω) (writer' : Writer ω') :
    Prop where
  devices : Devices writer.device writer'.device
  depth_eq : writer.depth = writer'.depth
  started_eq : writer.started = writer'.started

theorem Device.Coupling.put (h : Coupling device other Together Broken) (markup : Markup)
    {writer : Writer ω} {writer' : Writer ω'} (hstep : writer.InStep Together writer') :
    Coupled (Writer.InStep Together) (fun writer writer' => Broken writer.device writer'.device)
      (Writer.put device markup writer) (Writer.put other markup writer') := by
  obtain ⟨state, depth, started⟩ := writer
  obtain ⟨state', depth', started'⟩ := writer'
  obtain ⟨hdevices, hdepth, hstarted⟩ := hstep
  cases hdepth
  cases hstarted
  have hwrite := h.writeAll
    ((if started then Writer.lineBreak (Writer.depthAt depth markup) else []) ++ markup.pieces)
    hdevices
  rw [Writer.put, Writer.put]
  dsimp only
  generalize device.writeAll _ state = outcome at hwrite ⊢
  generalize other.writeAll _ state' = outcome' at hwrite ⊢
  cases hwrite with
  | together result hnext => exact .together result ⟨hnext, rfl, rfl⟩
  | broken error result hnext => exact .broken error result hnext

theorem Device.Coupling.flushWriter (h : Coupling device other Together Broken)
    {writer : Writer ω} {writer' : Writer ω'} (hstep : writer.InStep Together writer') :
    Coupled (Writer.InStep Together) (fun writer writer' => Broken writer.device writer'.device)
      (Writer.flush device writer) (Writer.flush other writer') := by
  have hflush := h.flush hstep.devices
  rw [Writer.flush, Writer.flush]
  generalize device.flush writer.device = outcome at hflush ⊢
  generalize other.flush writer'.device = outcome' at hflush ⊢
  cases hflush with
  | together result hnext => exact .together result ⟨hnext, hstep.depth_eq, hstep.started_eq⟩
  | broken error result hnext => exact .broken error result hnext

/-! ## Stores -/

namespace Store

/-- Stores over writers in step that know the same. -/
structure InStep (Devices : ω → ω' → Prop) (store : Store ω) (store' : Store ω') : Prop where
  writers : store.writer.InStep Devices store'.writer
  knowledge_eq : store.knowledge = store'.knowledge

/-- Stores over devices that are apart. -/
def Apart (Devices : ω → ω' → Prop) (store : Store ω) (store' : Store ω') : Prop :=
  Devices store.writer.device store'.writer.device

/-- Attempts on stores over two devices that keep them in step until the first of them fails. Once
the devices are apart, neither of the attempts brings them together. -/
structure Parallel (Together Broken : ω → ω' → Prop) (α : Type) (attempt : Attempt (Store ω) α)
    (attempt' : Attempt (Store ω') α) : Prop where
  coupled : ∀ {store store'}, InStep Together store store' →
    Coupled (InStep Together) (Apart Broken) (attempt.outcome store) (attempt'.outcome store')
  apart : ∀ state' : ω', Keeps (fun store => Broken store.writer.device state') attempt
  apart_other : ∀ state : ω, Keeps (fun store' => Broken state store'.writer.device) attempt'

/-- What a step of its writer keeps of a device is kept by the store. -/
theorem keeps_onWriter (holds : ω → Prop) {operation : Operation}
    {step : Writer ω → Except String Unit × Writer ω}
    (hstep : ∀ writer, holds writer.device → holds (step writer).2.device) :
    Keeps (fun store : Store ω => holds store.writer.device) (onWriter operation step) := by
  intro store h
  have hreached := hstep store.writer h
  rw [onWriter, Attempt.outcome_ofOutcome]
  generalize step store.writer = result at hreached ⊢
  rcases result with ⟨_ | _, writer⟩
  · exact hreached
  · exact hreached

namespace Parallel

variable {Together Broken : ω → ω' → Prop} {α β : Type}

theorem bind {attempt : Attempt (Store ω) α} {attempt' : Attempt (Store ω') α}
    {next : α → Attempt (Store ω) β} {next' : α → Attempt (Store ω') β}
    (hattempt : Parallel Together Broken α attempt attempt')
    (hnext : ∀ value, Parallel Together Broken β (next value) (next' value)) :
    Parallel Together Broken β (attempt >>= next) (attempt' >>= next') where
  coupled := by
    intro store store' hstep
    rw [Attempt.outcome_bind, Attempt.outcome_bind]
    have hcoupled := hattempt.coupled hstep
    generalize attempt.outcome store = outcome at hcoupled ⊢
    generalize attempt'.outcome store' = outcome' at hcoupled ⊢
    cases hcoupled with
    | together result hreached =>
      rcases result with error | value
      · exact .together (.error error) hreached
      · exact (hnext value).coupled hreached
    | broken error result hreached =>
      rcases result with error' | value
      · exact .broken error (.error error') hreached
      · exact .broken error _ ((hnext value).apart_other _ _ hreached)
  apart state' := (hattempt.apart state').bind fun value => (hnext value).apart state'
  apart_other state := (hattempt.apart_other state).bind fun value =>
    (hnext value).apart_other state

/-- Steps of coupled writers are parallel. -/
theorem onWriter (operation : Operation) {step : Writer ω → Except String Unit × Writer ω}
    {step' : Writer ω' → Except String Unit × Writer ω'}
    (hcoupled : ∀ {writer writer'}, Writer.InStep Together writer writer' →
      Coupled (Writer.InStep Together) (fun writer writer' => Broken writer.device writer'.device)
        (step writer) (step' writer'))
    (hapart : ∀ {writer state'}, Broken writer.device state' →
      Broken (step writer).2.device state')
    (hapartOther : ∀ {state writer'}, Broken state writer'.device →
      Broken state (step' writer').2.device) :
    Parallel Together Broken Unit (onWriter operation step) (Store.onWriter operation step') where
  coupled := by
    intro store store' hstep
    rw [Store.onWriter, Store.onWriter, Attempt.outcome_ofOutcome, Attempt.outcome_ofOutcome]
    have hwriters := hcoupled hstep.writers
    generalize step store.writer = outcome at hwriters ⊢
    generalize step' store'.writer = outcome' at hwriters ⊢
    cases hwriters with
    | together result hnext =>
      rcases result with _ | _
      · exact .together _ ⟨hnext, hstep.knowledge_eq⟩
      · exact .together _ ⟨hnext, hstep.knowledge_eq⟩
    | broken error result hnext =>
      rcases result with _ | _
      · exact .broken _ _ hnext
      · exact .broken _ _ hnext
  apart state' := keeps_onWriter (Broken · state') fun _ => hapart
  apart_other state := keeps_onWriter (Broken state) fun _ => hapartOther

/-- Every step of stores over coupled devices is parallel. -/
theorem comparison {device : Device ω} {other : Device ω'}
    (h : device.Coupling other Together Broken) :
    Comparison device other (Parallel Together Broken) where
  lift result :=
    { coupled := by
        intro store store' hstep
        rw [Attempt.outcome_lift, Attempt.outcome_lift]
        exact .together result hstep
      apart := fun _ => Keeps.lift result
      apart_other := fun _ => Keeps.lift result }
  bind := bind
  read := by
    intro α next next' hnext
    -- a store that knows the same is needed where only one of them matters
    have hcounterpart : ∀ (store : Store ω) (state : ω'), ∃ store' : Store ω',
        store.knowledge = store'.knowledge :=
      fun store state => ⟨⟨⟨state, 0, false⟩, store.nextHandle, store.openElements,
        store.finished⟩, rfl⟩
    have hcounterpartOther : ∀ (store' : Store ω') (state : ω), ∃ store : Store ω,
        store.knowledge = store'.knowledge :=
      fun store' state => ⟨⟨⟨state, 0, false⟩, store'.nextHandle, store'.openElements,
        store'.finished⟩, rfl⟩
    refine ⟨?_, ?_, ?_⟩
    · intro store store' hstep
      exact (hnext store store' hstep.knowledge_eq).coupled hstep
    · intro state' store hapart
      obtain ⟨counterpart, hknown⟩ := hcounterpart store state'
      exact (hnext store counterpart hknown).apart state' store hapart
    · intro state store' hapart
      obtain ⟨counterpart, hknown⟩ := hcounterpartOther store' state
      exact (hnext counterpart store' hknown).apart_other state store' hapart
  modify change :=
    { coupled := fun hstep =>
        .together (.ok ()) ⟨hstep.writers, congrArg change hstep.knowledge_eq⟩
      apart := fun _ _ hapart => hapart
      apart_other := fun _ _ hapart => hapart }
  write operation markup := onWriter operation (h.put markup)
    (Device.writeAll_keeps (Broken · _) (fun text _ => h.broken_write text) _)
    (Device.writeAll_keeps (Broken _) (fun text _ => h.broken_write_other text) _)
  flush operation := onWriter operation h.flushWriter h.broken_flush h.broken_flush_other

end Parallel

/-! ## Runs -/

/-- Stores over devices that are in step or apart. -/
def Follows (Together Broken : ω → ω' → Prop) (store : Store ω) (store' : Store ω') : Prop :=
  InStep Together store store' ∨ Apart Broken store store'

theorem Follows.of_coupled {ε α : Type} {Together Broken : ω → ω' → Prop}
    {outcome : Except ε α × Store ω} {outcome' : Except ε α × Store ω'}
    (h : Coupled (InStep Together) (Apart Broken) outcome outcome') :
    Follows Together Broken outcome.2 outcome'.2 := by
  cases h with
  | together _ hstep => exact Or.inl hstep
  | broken _ _ hapart => exact Or.inr hapart

/-- What a flush keeps of a device is kept by giving its store up. -/
theorem giveUp_keeps {device : Device ω} (holds : ω → Prop)
    (hflush : ∀ state, holds state → holds (device.flush state).2) {store : Store ω}
    (h : holds store.writer.device) : holds (giveUp device store).2.writer.device := by
  rw [giveUp, Writer.flush]
  split
  · exact h
  · have hreached := hflush store.writer.device h
    generalize device.flush store.writer.device = result at hreached ⊢
    rcases result with ⟨_ | _, state⟩
    · exact hreached
    · exact hreached

section Coupling

variable {device : Device ω} {other : Device ω'} {Together Broken : ω → ω' → Prop}
  (h : device.Coupling other Together Broken) (names : Option Names)
  {store : Store ω} {store' : Store ω'}

include h

/-- Stores in step start in step. -/
theorem start_coupled {state : ω} {state' : ω'} (hstate : Together state state') :
    Coupled (InStep Together) (Apart Broken) (start device state) (start other state') :=
  (Parallel.comparison h).head.coupled ⟨⟨hstate, rfl, rfl⟩, rfl⟩

/-- Stores in step are given up with the same notices, or the devices are apart from then on. -/
theorem giveUp_coupled (hstep : InStep Together store store') :
    (giveUp device store).1 = (giveUp other store').1 ∧
        InStep Together (giveUp device store).2 (giveUp other store').2 ∨
      Apart Broken (giveUp device store).2 (giveUp other store').2 := by
  obtain ⟨writer, handle, elements, finished⟩ := store
  obtain ⟨writer', handle', elements', finished'⟩ := store'
  obtain ⟨hwriters, hknown⟩ := hstep
  cases hknown
  have hflush := h.flushWriter hwriters
  rw [giveUp, giveUp]
  dsimp only at hflush ⊢
  generalize Writer.flush device writer = outcome at hflush ⊢
  generalize Writer.flush other writer' = outcome' at hflush ⊢
  split
  · exact Or.inl ⟨rfl, hwriters, rfl⟩
  · cases hflush with
    | together result hnext =>
      rcases result with _ | _
      · exact Or.inl ⟨rfl, ⟨hnext, rfl⟩⟩
      · exact Or.inl ⟨rfl, ⟨hnext, rfl⟩⟩
    | broken error result hnext =>
      rcases result with _ | _
      · exact Or.inr hnext
      · exact Or.inr hnext

/-- What is asked of one of two stores does not bring their devices together. -/
theorem apart_serve (request : Request) (happart : Apart Broken store store') :
    Apart Broken ((storeSink device names).serve store request) store' := by
  cases request with
  | call call => exact ((Parallel.comparison h).perform names call).apart _ store happart
  | abort => exact giveUp_keeps (Broken · _) (fun _ => h.broken_flush) happart

theorem apart_serve_other (request : Request) (happart : Apart Broken store store') :
    Apart Broken store ((storeSink other names).serve store' request) := by
  cases request with
  | call call => exact ((Parallel.comparison h).perform names call).apart_other _ store' happart
  | abort => exact giveUp_keeps (Broken _) (fun _ => h.broken_flush_other) happart

theorem apart_foldl_serve (requests : List Request) (happart : Apart Broken store store') :
    Apart Broken (requests.foldl (storeSink device names).serve store) store' := by
  induction requests generalizing store with
  | nil => exact happart
  | cons request requests ih => exact ih (apart_serve h names request happart)

/-- The same request leads from stores that follow each other to such stores. -/
theorem follows_serve (request : Request) (hfollows : Follows Together Broken store store') :
    Follows Together Broken ((storeSink device names).serve store request)
      ((storeSink other names).serve store' request) := by
  rcases hfollows with hstep | happart
  · cases request with
    | call call =>
      exact .of_coupled (((Parallel.comparison h).perform names call).coupled hstep)
    | abort => exact (giveUp_coupled h hstep).imp_left And.right
  · exact Or.inr (apart_serve_other h names request (apart_serve h names request happart))

theorem follows_foldl_serve (requests : List Request)
    (hfollows : Follows Together Broken store store') :
    Follows Together Broken (requests.foldl (storeSink device names).serve store)
      (requests.foldl (storeSink other names).serve store') := by
  induction requests generalizing store store' with
  | nil => exact hfollows
  | cons request requests ih => exact ih (follows_serve h names request hfollows)

/-- The same requests to stores over devices in step leave stores that follow each other. -/
theorem follows_of_start {state : ω} {state' : ω'} (hstate : Together state state')
    (requests : List Request) :
    Follows Together Broken (requests.foldl (storeSink device names).serve (start device state).2)
      (requests.foldl (storeSink other names).serve (start other state').2) :=
  follows_foldl_serve h names requests (.of_coupled (start_coupled h hstate))

end Coupling

end Store

end DebugSymbols.Xml
