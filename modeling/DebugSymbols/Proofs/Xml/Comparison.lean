import DebugSymbols.Proofs.Emit.Dialogue
import DebugSymbols.Proofs.Sink.Acceptance
import DebugSymbols.Xml.Store

/-!
# Stores over two devices

Whatever a store does is made of a few steps: it reads or changes what it knows without its device,
it refuses, and it writes to its device or flushes it. So stores over two devices are compared step
by step: a comparison that these steps keep is kept by every call, and by every dialogue.
-/

namespace DebugSymbols.Xml.Store

variable {ω ω' : Type}

/-- What a store knows without its device. -/
structure Knowledge where
  nextHandle : Nat
  openElements : List String
  finished : Bool

/-- What a store knows. -/
def knowledge (store : Store ω) : Knowledge :=
  ⟨store.nextHandle, store.openElements, store.finished⟩

/-- The store with the same writer that knows something else. -/
def withKnowledge (store : Store ω) (known : Knowledge) : Store ω :=
  ⟨store.writer, known.nextHandle, known.openElements, known.finished⟩

/-- A relation between attempts on stores over two devices that all steps of a store keep. -/
structure Comparison (device : Device ω) (other : Device ω')
    (Compares : (α : Type) → Attempt (Store ω) α → Attempt (Store ω') α → Prop) : Prop where
  lift : ∀ {α : Type} (result : Except SymbolError α),
    Compares α (Attempt.lift result) (Attempt.lift result)
  bind : ∀ {α β : Type} {attempt : Attempt (Store ω) α} {attempt' : Attempt (Store ω') α}
    {next : α → Attempt (Store ω) β} {next' : α → Attempt (Store ω') β},
    Compares α attempt attempt' → (∀ value, Compares β (next value) (next' value)) →
      Compares β (attempt >>= next) (attempt' >>= next')
  read : ∀ {α : Type} {next : Store ω → Attempt (Store ω) α}
    {next' : Store ω' → Attempt (Store ω') α},
    (∀ store store', store.knowledge = store'.knowledge → Compares α (next store) (next' store')) →
      Compares α (get >>= next) (get >>= next')
  protected modify : ∀ change : Knowledge → Knowledge,
    Compares Unit (modify fun store => store.withKnowledge (change store.knowledge))
      (modify fun store => store.withKnowledge (change store.knowledge))
  write : ∀ (operation : Operation) (markup : Markup),
    Compares Unit (onWriter operation (Writer.put device markup))
      (onWriter operation (Writer.put other markup))
  flush : ∀ operation : Operation, Compares Unit (onWriter operation (Writer.flush device))
    (onWriter operation (Writer.flush other))

namespace Comparison

variable {device : Device ω} {other : Device ω'}
  {Compares : (α : Type) → Attempt (Store ω) α → Attempt (Store ω') α → Prop}

theorem pure {α : Type} (h : Comparison device other Compares) (value : α) :
    Compares α (Pure.pure value) (Pure.pure value) :=
  h.lift (.ok value)

theorem refuse {α : Type} (h : Comparison device other Compares) (operation : Operation)
    (refusal : Refusal) :
    Compares α (refuse operation refusal) (Store.refuse operation refusal) :=
  h.lift (.error (.sinkFailure operation refusal))

theorem put (h : Comparison device other Compares) (operation : Operation) (markup : Markup) :
    Compares Unit (put device operation markup) (Store.put other operation markup) := by
  apply h.read
  intro store store' hknown
  have hfinished : store.finished = store'.finished := congrArg Knowledge.finished hknown
  rw [hfinished]
  split
  · exact h.refuse operation .alreadyClosed
  · exact h.write operation markup

theorem openElement (h : Comparison device other Compares) (operation : Operation) (tag : Tag) :
    Compares Unit (openElement device operation tag) (Store.openElement other operation tag) := by
  apply h.bind (h.put operation _)
  intro _
  exact h.modify fun known => { known with openElements := tag.name :: known.openElements }

theorem expectOpen (h : Comparison device other Compares) (operation : Operation) (name : String) :
    Compares Unit (expectOpen operation name) (Store.expectOpen operation name) := by
  apply h.read
  intro store store' hknown
  have helements : store.openElements = store'.openElements :=
    congrArg Knowledge.openElements hknown
  rw [helements]
  split
  · split
    · exact h.pure ()
    · exact h.refuse _ _
  · exact h.refuse _ _

theorem closeElement (h : Comparison device other Compares) (operation : Operation)
    (name : String) :
    Compares Unit (closeElement device operation name)
      (Store.closeElement other operation name) := by
  apply h.bind (h.expectOpen operation name)
  intro _
  apply h.bind (h.put operation _)
  intro _
  exact h.modify fun known => { known with openElements := known.openElements.tail }

theorem putPoints (h : Comparison device other Compares) (points : List SequencePoint) :
    Compares Unit (putPoints device points) (Store.putPoints other points) := by
  induction points with
  | nil => exact h.pure ()
  | cons point points ih => exact h.bind (h.put _ _) fun _ => ih

theorem defineDocument (h : Comparison device other Compares) (document : Document) :
    Compares DocumentHandle (defineDocument device document)
      (Store.defineDocument other document) := by
  apply h.read
  intro store store' hknown
  have hhandle : store.nextHandle = store'.nextHandle := congrArg Knowledge.nextHandle hknown
  dsimp only
  rw [hhandle]
  apply h.bind (h.put _ _)
  intro _
  apply h.bind (h.modify fun known => { known with nextHandle := known.nextHandle + 1 })
  intro _
  exact h.pure _

theorem close (h : Comparison device other Compares) :
    Compares Unit (close device) (Store.close other) := by
  apply h.read
  intro store store' hknown
  have helements : store.openElements = store'.openElements :=
    congrArg Knowledge.openElements hknown
  dsimp only
  rw [helements]
  split
  · exact h.refuse _ _
  · apply h.bind (h.closeElement _ _)
    intro _
    apply h.bind (h.flush _)
    intro _
    exact h.modify fun known => { known with finished := true }

/-- What all steps of a store keep is kept by a command. -/
theorem issue (h : Comparison device other Compares) (names : Option Names) (command : Command) :
    Compares Unit (issue device names command) (Store.issue other names command) := by
  cases command with
  | openMethod _ | openScope _ => exact h.openElement _ _
  | closeMethod => exact h.closeElement _ _
  | closeScope stop =>
    exact h.bind (h.expectOpen _ _) fun _ => h.bind (h.put _ _) fun _ => h.closeElement _ _
  | defineSequencePoints document batch =>
    rw [Store.issue, Store.issue]
    split
    · exact h.refuse _ _
    · exact h.bind (h.openElement _ _) fun _ =>
        h.bind (h.putPoints _) fun _ => h.closeElement _ _
  | close => exact h.close
  | setUserEntryPoint _ | defineLocalVariable _ | defineConstant _ _ _
  | setSymbolAttribute _ _ _ => exact h.put _ _

theorem perform (h : Comparison device other Compares) (names : Option Names) (call : Call) :
    Compares (Option DocumentHandle) ((storeSink device names).perform call)
      ((storeSink other names).perform call) := by
  cases call with
  | define document =>
    rw [Sink.perform, Sink.perform, map_eq_pure_bind, map_eq_pure_bind]
    exact h.bind (h.defineDocument document) fun _ => h.pure _
  | issue command =>
    rw [Sink.perform, Sink.perform, map_eq_pure_bind, map_eq_pure_bind]
    exact h.bind (h.issue names command) fun _ => h.pure _

/-- What all steps of a store keep is kept by a dialogue with it. -/
theorem hold {α : Type} (h : Comparison device other Compares) (names : Option Names)
    (dialogue : Dialogue α) :
    Compares α (dialogue.hold (storeSink device names))
      (dialogue.hold (storeSink other names)) := by
  induction dialogue with
  | done result => exact h.lift result
  | define document next ih => exact h.bind (h.defineDocument document) ih
  | issue command hopen next ih => exact h.bind (h.issue names command) fun _ => ih

/-- What all steps of a store keep is kept by writing its head. -/
theorem head (h : Comparison device other Compares) :
    Compares Unit
      (Store.put device .createStore .declaration >>= fun _ =>
        Store.openElement device .createStore ⟨"symbols", []⟩)
      (Store.put other .createStore .declaration >>= fun _ =>
        Store.openElement other .createStore ⟨"symbols", []⟩) :=
  h.bind (h.put _ _) fun _ => h.openElement _ _

end Comparison

end DebugSymbols.Xml.Store
