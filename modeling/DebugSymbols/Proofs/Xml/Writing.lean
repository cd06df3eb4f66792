import Mathlib.Data.List.Basic
import DebugSymbols.Proofs.Sink.Acceptance
import DebugSymbols.Xml.Store

/-!
# What an XML store writes

On a device that never fails a call to an XML store is either taken or refused. `Store.Takes` says
which calls are taken, and `callMarkup` which markup such a call adds to the text, where every piece
stands on a line of its own; the markup also says what becomes of the open elements. A refused call
changes nothing at all.
-/

namespace DebugSymbols.Xml

variable {ω : Type} {device : Device ω} {content : ω → String}

/-! ## Devices that never fail -/

/-- A device that never fails, with the text that it has been given. -/
structure Device.Reliable (device : Device ω) (content : ω → String) : Prop where
  write_ok : ∀ text state, (device.write text state).1 = .ok ()
  content_write : ∀ text state, content (device.write text state).2 = content state ++ text
  flush_ok : ∀ state, (device.flush state).1 = .ok ()
  content_flush : ∀ state, content (device.flush state).2 = content state

namespace Device.Reliable

theorem flush (h : device.Reliable content) (state : ω) :
    ∃ next, device.flush state = (.ok (), next) ∧ content next = content state :=
  ⟨(device.flush state).2, Prod.ext (h.flush_ok state) rfl, h.content_flush state⟩

theorem writeAll (h : device.Reliable content) (pieces : List String) (state : ω) :
    ∃ next, device.writeAll pieces state = (.ok (), next) ∧
      content next = content state ++ String.join pieces := by
  induction pieces generalizing state with
  | nil => exact ⟨state, rfl, by simp⟩
  | cons piece pieces ih =>
    rw [Device.writeAll]
    split
    · rename_i hempty
      obtain ⟨next, hnext, hcontent⟩ := ih state
      refine ⟨next, hnext, ?_⟩
      rw [hcontent, String.join_cons, String.isEmpty_iff.1 hempty, String.empty_append]
    · have hwrite : device.write piece state = (.ok (), (device.write piece state).2) :=
        Prod.ext (h.write_ok piece state) rfl
      obtain ⟨next, hnext, hcontent⟩ := ih (device.write piece state).2
      rw [hwrite]
      refine ⟨next, hnext, ?_⟩
      rw [hcontent, h.content_write, String.append_assoc, String.join_cons]

end Device.Reliable

/-- A device that keeps a text. -/
def textDevice : Device String where
  write text state := (.ok (), state ++ text)
  flush state := (.ok (), state)

theorem reliable_textDevice : textDevice.Reliable id :=
  ⟨fun _ _ => rfl, fun _ _ => rfl, fun _ => rfl, fun _ => rfl⟩

/-! ## Markup in lines -/

namespace Markup

/-- A piece of markup on a line of its own, among so many elements. -/
def line (depth : Nat) (markup : Markup) : String :=
  String.join (Writer.lineBreak (Writer.depthAt depth markup) ++ markup.pieces)

/-- Pieces of markup one after the other, each on a line of its own. -/
def lines : Nat → List Markup → String
  | _, [] => ""
  | depth, markup :: rest => markup.line depth ++ lines (Writer.depthAfter depth markup) rest

/-- What becomes of the open elements behind a piece of markup. -/
def nest (elements : List String) : Markup → List String
  | opening tag => tag.name :: elements
  | closing _ => elements.tail
  | declaration | single _ => elements

theorem length_nest (elements : List String) (markup : Markup) :
    (nest elements markup).length = Writer.depthAfter elements.length markup := by
  cases markup <;> simp [nest, Writer.depthAfter]

/-- Elements without content leave the open elements. -/
theorem foldl_nest_single {α : Type} (items : List α) (tag : α → Tag) (elements : List String) :
    (items.map fun item => single (tag item)).foldl nest elements = elements := by
  rw [List.foldl_map]
  exact List.foldl_fixed' (fun _ => rfl) items

theorem lines_append (front back : List Markup) (elements : List String) :
    lines elements.length (front ++ back) =
      lines elements.length front ++ lines (front.foldl nest elements).length back := by
  induction front generalizing elements with
  | nil => simp [lines]
  | cons markup front ih =>
    rw [List.cons_append, lines, lines, List.foldl_cons, ← length_nest, ih, String.append_assoc]

end Markup

/-- A writer that has begun puts each piece of markup on a new line. -/
theorem Writer.put_of_reliable (h : device.Reliable content) (markup : Markup)
    {writer : Writer ω} (hstarted : writer.started = true) :
    ∃ state, Writer.put device markup writer =
        (.ok (), ⟨state, depthAfter writer.depth markup, true⟩) ∧
      content state = content writer.device ++ markup.line writer.depth := by
  obtain ⟨state, hstate, hcontent⟩ :=
    h.writeAll (lineBreak (depthAt writer.depth markup) ++ markup.pieces) writer.device
  refine ⟨state, ?_, hcontent⟩
  rw [put, if_pos hstarted, hstate]

/-! ## Steps of a store -/

namespace Store

/-- The text that the device of a store has been given. -/
def text (content : ω → String) (store : Store ω) : String := content store.writer.device

/-- Something has been written, and lines are indented by the open elements. -/
structure Ready (store : Store ω) : Prop where
  started_eq : store.writer.started = true
  depth_eq : store.writer.depth = store.openElements.length

/-- A store that has become another one by writing markup. -/
structure Wrote (content : ω → String) (markups : List Markup) (before after : Store ω) :
    Prop where
  ready : after.Ready
  text_eq : after.text content =
    before.text content ++ Markup.lines before.openElements.length markups
  openElements_eq : after.openElements = markups.foldl Markup.nest before.openElements
  nextHandle_eq : after.nextHandle = before.nextHandle
  finished_eq : after.finished = before.finished

variable {store middle after : Store ω} {operation : Operation}

theorem Wrote.nil (hready : store.Ready) : Wrote content [] store store :=
  ⟨hready, by simp [Markup.lines], rfl, rfl, rfl⟩

theorem Wrote.append {front back : List Markup} (hfront : Wrote content front store middle)
    (hback : Wrote content back middle after) : Wrote content (front ++ back) store after where
  ready := hback.ready
  text_eq := by
    rw [hback.text_eq, hfront.text_eq, Markup.lines_append, hfront.openElements_eq,
      String.append_assoc]
  openElements_eq := by rw [hback.openElements_eq, hfront.openElements_eq, List.foldl_append]
  nextHandle_eq := hback.nextHandle_eq.trans hfront.nextHandle_eq
  finished_eq := hback.finished_eq.trans hfront.finished_eq

/-- A store that is not finished writes what its writer takes. -/
theorem outcome_put_eq_ok {markup : Markup} {writer : Writer ω}
    (hfinished : store.finished = false)
    (hput : Writer.put device markup store.writer = (.ok (), writer)) :
    (put device operation markup).outcome store = (.ok (), { store with writer }) := by
  rw [put, Attempt.outcome_bind, Attempt.outcome_get]
  dsimp only
  rw [if_neg (by simp [hfinished]), onWriter, Attempt.outcome_ofOutcome, hput]

/-- A store that is not finished writes any markup. -/
theorem outcome_put (h : device.Reliable content) (hready : store.Ready)
    (hfinished : store.finished = false) (markup : Markup) :
    ∃ state, (put device operation markup).outcome store = (.ok (), { store with writer :=
        ⟨state, Writer.depthAfter store.writer.depth markup, true⟩ }) ∧
      content state = store.text content ++ markup.line store.openElements.length := by
  obtain ⟨state, hstate, hcontent⟩ := Writer.put_of_reliable h markup hready.started_eq
  rw [hready.depth_eq] at hcontent
  exact ⟨state, outcome_put_eq_ok hfinished hstate, hcontent⟩

/-- A finished store writes nothing. -/
theorem outcome_put_of_finished (hfinished : store.finished = true) (markup : Markup) :
    (put device operation markup).outcome store =
      (.error (.sinkFailure operation .alreadyClosed), store) := by
  rw [put, Attempt.outcome_bind, Attempt.outcome_get]
  dsimp only
  rw [if_pos hfinished]
  rfl

/-- An element without content is written. -/
theorem put_single (h : device.Reliable content) (hready : store.Ready)
    (hfinished : store.finished = false) (operation : Operation) (tag : Tag) :
    ∃ after, (put device operation (.single tag)).outcome store = (.ok (), after) ∧
      Wrote content [.single tag] store after := by
  obtain ⟨state, hput, hcontent⟩ := outcome_put h hready hfinished (.single tag)
  refine ⟨_, hput, ⟨rfl, hready.depth_eq⟩, ?_, rfl, rfl, rfl⟩
  rw [Markup.lines, Markup.lines, String.append_empty]
  exact hcontent

/-- An element is opened. -/
theorem openElement_tag (h : device.Reliable content) (hready : store.Ready)
    (hfinished : store.finished = false) (operation : Operation) (tag : Tag) :
    ∃ after, (openElement device operation tag).outcome store = (.ok (), after) ∧
      Wrote content [.opening tag] store after := by
  obtain ⟨state, hput, hcontent⟩ := outcome_put h hready hfinished (.opening tag)
  refine ⟨{ store with
    writer := ⟨state, store.writer.depth + 1, true⟩
    openElements := tag.name :: store.openElements }, ?_, ⟨rfl, ?_⟩, ?_, rfl, rfl, rfl⟩
  · rw [openElement, Attempt.outcome_bind, hput]
    rfl
  · exact congrArg (· + 1) hready.depth_eq
  · rw [Markup.lines, Markup.lines, String.append_empty]
    exact hcontent

theorem outcome_expectOpen {name : String} (hinnermost : store.openElements.head? = some name) :
    (expectOpen operation name).outcome store = (.ok (), store) := by
  obtain ⟨outer, houter⟩ := List.head?_eq_some_iff.1 hinnermost
  rw [expectOpen, Attempt.outcome_bind, Attempt.outcome_get]
  dsimp only
  rw [houter]
  dsimp only
  rw [if_pos rfl, Attempt.outcome_pure]

/-- An element that is not the innermost open one is not closed. -/
theorem outcome_expectOpen_of_ne (operation : Operation) {name : String}
    (hinnermost : store.openElements.head? ≠ some name) :
    ∃ error, (expectOpen operation name).outcome store = (.error error, store) := by
  rw [expectOpen, Attempt.outcome_bind, Attempt.outcome_get]
  dsimp only
  cases helements : store.openElements with
  | nil => exact ⟨_, rfl⟩
  | cons innermost outer =>
    have hne : innermost ≠ name := by
      rintro rfl
      exact hinnermost (by rw [helements, List.head?_cons])
    dsimp only
    rw [if_neg hne]
    exact ⟨_, rfl⟩

/-- The innermost open element is closed. -/
theorem closeElement_innermost (h : device.Reliable content) (hready : store.Ready)
    (hfinished : store.finished = false) (operation : Operation) {name : String}
    (hinnermost : store.openElements.head? = some name) :
    ∃ after, (closeElement device operation name).outcome store = (.ok (), after) ∧
      Wrote content [.closing name] store after := by
  obtain ⟨state, hput, hcontent⟩ := outcome_put h hready hfinished (.closing name)
  refine ⟨{ store with
    writer := ⟨state, store.writer.depth - 1, true⟩
    openElements := store.openElements.tail }, ?_, ⟨rfl, ?_⟩, ?_, rfl, rfl, rfl⟩
  · rw [closeElement, Attempt.outcome_bind, outcome_expectOpen hinnermost]
    dsimp only
    rw [Attempt.outcome_bind, hput]
    rfl
  · show store.writer.depth - 1 = store.openElements.tail.length
    rw [hready.depth_eq, List.length_tail]
  · rw [Markup.lines, Markup.lines, String.append_empty]
    exact hcontent

/-- Closing an element is refused by a finished store, and if it is not the innermost open one. -/
theorem closeElement_refused (device : Device ω) (operation : Operation) {name : String}
    (hrefused : store.finished = true ∨ store.openElements.head? ≠ some name) :
    ∃ error, (closeElement device operation name).outcome store = (.error error, store) := by
  rw [closeElement, Attempt.outcome_bind]
  by_cases hinnermost : store.openElements.head? = some name
  · rw [outcome_expectOpen hinnermost]
    have hfinished := hrefused.resolve_right (not_not_intro hinnermost)
    dsimp only
    rw [Attempt.outcome_bind, outcome_put_of_finished hfinished]
    exact ⟨_, rfl⟩
  · obtain ⟨error, herror⟩ := outcome_expectOpen_of_ne operation hinnermost
    rw [herror]
    exact ⟨error, rfl⟩

/-- Points are written one after the other. -/
theorem putPoints_all (h : device.Reliable content) (hready : store.Ready)
    (hfinished : store.finished = false) (points : List SequencePoint) :
    ∃ after, (putPoints device points).outcome store = (.ok (), after) ∧
      Wrote content (points.map fun point => .single (pointTag point)) store after := by
  induction points generalizing store with
  | nil => exact ⟨store, rfl, .nil hready⟩
  | cons point points ih =>
    obtain ⟨middle, hput, hfirst⟩ := put_single h hready hfinished .defineSequencePoints
      (pointTag point)
    obtain ⟨after, hrest, hall⟩ := ih hfirst.ready (hfirst.finished_eq.trans hfinished)
    refine ⟨after, ?_, hfirst.append hall⟩
    rw [putPoints, Attempt.outcome_bind, hput]
    exact hrest

/-- The head of a text: the declaration, and the tag of the outermost element. -/
def head : String :=
  String.join Markup.declaration.pieces ++ Markup.lines 0 [.opening ⟨"symbols", []⟩]

/-- A new store on a device that never fails has written its head. -/
theorem start_of_reliable (h : device.Reliable content) (state : ω) :
    ∃ store, start device state = (.ok (), store) ∧ store.Ready ∧
      store.text content = content state ++ head ∧ store.openElements = ["symbols"] ∧
      store.nextHandle = 0 ∧ store.finished = false := by
  obtain ⟨next, hnext, hcontent⟩ := h.writeAll Markup.declaration.pieces state
  have hput : Writer.put device .declaration ⟨state, 0, false⟩ = (.ok (), ⟨next, 0, true⟩) := by
    rw [Writer.put, if_neg Bool.false_ne_true, List.nil_append, hnext]
    rfl
  have hdeclaration : (put device .createStore .declaration).outcome
      ⟨⟨state, 0, false⟩, 0, [], false⟩ = (.ok (), ⟨⟨next, 0, true⟩, 0, [], false⟩) :=
    outcome_put_eq_ok rfl hput
  have hready : Ready (⟨⟨next, 0, true⟩, 0, [], false⟩ : Store ω) := ⟨rfl, rfl⟩
  obtain ⟨store, hopen, hwrote⟩ := openElement_tag h hready rfl .createStore ⟨"symbols", []⟩
  refine ⟨store, ?_, hwrote.ready, ?_, hwrote.openElements_eq, hwrote.nextHandle_eq,
    hwrote.finished_eq⟩
  · rw [start, Attempt.outcome_bind, hdeclaration]
    exact hopen
  · rw [hwrote.text_eq, head, ← String.append_assoc, ← hcontent]
    rfl

end Store

/-! ## Calls -/

/-- The markup that a call adds if it is taken, with the next handle. -/
def callMarkup (names : Option Names) (handle : Nat) : Call → List Markup
  | .define document => [.single (Store.documentTag handle document)]
  | .issue (.setUserEntryPoint method) => [.single (Store.tokenTag names "entryPoint" method)]
  | .issue (.openMethod method) => [.opening (Store.tokenTag names "method" method)]
  | .issue .closeMethod => [.closing "method"]
  | .issue (.openScope start) =>
    [.opening ⟨"scope", [.plain "startOffset" (Text.hexOffset start)]⟩]
  | .issue (.closeScope stop) =>
    [.single ⟨"end", [.plain "offset" (Text.hexOffset stop)]⟩, .closing "scope"]
  | .issue (.defineSequencePoints document batch) =>
    .opening ⟨"sequencePoints", [.plain "document" (toString document.index)]⟩ ::
      (batch.points.map (fun point => .single (Store.pointTag point)) ++
        [.closing "sequencePoints"])
  | .issue (.defineLocalVariable local_) => [.single (Store.variableTag local_)]
  | .issue (.defineConstant name value signature) =>
    [.single (Store.constantTag name value signature)]
  | .issue (.setSymbolAttribute parent name data) =>
    [.single (Store.attributeTag parent name data)]
  | .issue .close => [.closing "symbols"]

/-- The answer to a call that is taken, with the next handle. -/
def callAnswer (handle : Nat) : Call → Option DocumentHandle
  | .define _ => some ⟨handle⟩
  | .issue _ => none

namespace Store

/-- Whether a store takes a call. -/
def Takes (store : Store ω) (call : Call) : Prop :=
  store.finished = false ∧
    match call with
    | .issue .closeMethod => store.openElements.head? = some "method"
    | .issue (.closeScope _) => store.openElements.head? = some "scope"
    | .issue (.defineSequencePoints _ batch) => batch.isConsistent = true
    | .issue .close => store.openElements = ["symbols"]
    | _ => True

/-- A store that has taken a call. -/
structure Took (content : ω → String) (names : Option Names) (call : Call)
    (before after : Store ω) : Prop where
  ready : after.Ready
  text_eq : after.text content = before.text content ++
    Markup.lines before.openElements.length (callMarkup names before.nextHandle call)
  openElements_eq : after.openElements =
    (callMarkup names before.nextHandle call).foldl Markup.nest before.openElements
  nextHandle_eq : after.nextHandle =
    before.nextHandle + (callAnswer before.nextHandle call).toList.length
  finished_eq : after.finished = decide (call = .issue .close)

variable {store after : Store ω} {names : Option Names}

/-- A command other than closing the store has been taken if its markup has been written. -/
theorem Wrote.took {command : Command}
    (h : Wrote content (callMarkup names store.nextHandle (.issue command)) store after)
    (hfinished : store.finished = false) (hclose : command ≠ .close) :
    Took content names (.issue command) store after where
  ready := h.ready
  text_eq := h.text_eq
  openElements_eq := h.openElements_eq
  nextHandle_eq := h.nextHandle_eq
  finished_eq := by
    rw [h.finished_eq, hfinished]
    simp [hclose]

/-- A document is written under the next handle. -/
theorem defineDocument_taken (h : device.Reliable content) (hready : store.Ready)
    (hfinished : store.finished = false) (document : Document) :
    ∃ after, (defineDocument device document).outcome store = (.ok ⟨store.nextHandle⟩, after) ∧
      Took content names (.define document) store after := by
  obtain ⟨middle, hput, hwrote⟩ := put_single h hready hfinished .defineDocument
    (documentTag store.nextHandle document)
  have hready : middle.Ready := hwrote.ready
  refine ⟨{ middle with nextHandle := middle.nextHandle + 1 }, ?_, ⟨hready.1, hready.2⟩,
    hwrote.text_eq, hwrote.openElements_eq, ?_, ?_⟩
  · rw [defineDocument, Attempt.outcome_bind, Attempt.outcome_get]
    dsimp only
    rw [Attempt.outcome_bind, hput]
    rfl
  · show middle.nextHandle + 1 = _
    rw [hwrote.nextHandle_eq]
    rfl
  · exact hwrote.finished_eq.trans hfinished

/-- The end of a scope is written, and its element is closed. -/
theorem issue_closeScope (h : device.Reliable content) (hready : store.Ready)
    (hfinished : store.finished = false) (hinnermost : store.openElements.head? = some "scope")
    (stop : UInt32) :
    ∃ after, (issue device names (.closeScope stop)).outcome store = (.ok (), after) ∧
      Took content names (.issue (.closeScope stop)) store after := by
  obtain ⟨middle, hend, hmiddle⟩ := put_single h hready hfinished .closeScope
    ⟨"end", [.plain "offset" (Text.hexOffset stop)]⟩
  have hsame : middle.openElements = store.openElements := hmiddle.openElements_eq
  obtain ⟨after, hclose, hafter⟩ := closeElement_innermost h hmiddle.ready
    (hmiddle.finished_eq.trans hfinished) .closeScope (hsame ▸ hinnermost)
  refine ⟨after, ?_, (hmiddle.append hafter).took hfinished (by simp)⟩
  rw [issue, Attempt.outcome_bind, outcome_expectOpen hinnermost]
  dsimp only
  rw [Attempt.outcome_bind, hend]
  exact hclose

/-- Sequence points are written in an element of their own. -/
theorem issue_defineSequencePoints (h : device.Reliable content) (hready : store.Ready)
    (hfinished : store.finished = false) (document : DocumentHandle) {batch : Batch}
    (hconsistent : batch.isConsistent = true) :
    ∃ after, (issue device names (.defineSequencePoints document batch)).outcome store =
        (.ok (), after) ∧
      Took content names (.issue (.defineSequencePoints document batch)) store after := by
  obtain ⟨opened, hopen, hopened⟩ := openElement_tag h hready hfinished
    .defineSequencePoints ⟨"sequencePoints", [.plain "document" (toString document.index)]⟩
  obtain ⟨filled, hfill, hfilled⟩ := putPoints_all h hopened.ready
    (hopened.finished_eq.trans hfinished) batch.points
  have hsame : filled.openElements = "sequencePoints" :: store.openElements := by
    rw [hfilled.openElements_eq, Markup.foldl_nest_single, hopened.openElements_eq]
    rfl
  obtain ⟨after, hclose, hafter⟩ := closeElement_innermost h hfilled.ready
    ((hfilled.finished_eq.trans hopened.finished_eq).trans hfinished) .defineSequencePoints
    (by rw [hsame, List.head?_cons])
  refine ⟨after, ?_, (hopened.append (hfilled.append hafter)).took hfinished (by simp)⟩
  rw [issue, hconsistent, if_neg (by simp), Attempt.outcome_bind, hopen]
  dsimp only
  rw [Attempt.outcome_bind, hfill]
  exact hclose

/-- The outermost element is closed, and the store is finished. -/
theorem issue_close (h : device.Reliable content) (hready : store.Ready)
    (hfinished : store.finished = false) (helements : store.openElements = ["symbols"]) :
    ∃ after, (issue device names .close).outcome store = (.ok (), after) ∧
      Took content names (.issue .close) store after := by
  obtain ⟨closed, hclose, hclosed⟩ := closeElement_innermost h hready hfinished .close
    (by rw [helements, List.head?_cons])
  obtain ⟨state, hflush, hcontent⟩ := h.flush closed.writer.device
  refine ⟨{ closed with
    writer := { closed.writer with device := state }
    finished := true }, ?_, ⟨hclosed.ready.1, hclosed.ready.2⟩, ?_, hclosed.openElements_eq,
    hclosed.nextHandle_eq, rfl⟩
  · rw [issue, close, Attempt.outcome_bind, Attempt.outcome_get]
    dsimp only
    rw [helements, if_neg (by simp), Attempt.outcome_bind, hclose]
    dsimp only
    rw [Attempt.outcome_bind, onWriter, Attempt.outcome_ofOutcome, Writer.flush, hflush]
    rfl
  · exact hcontent.trans hclosed.text_eq

/-- On a device that never fails, a command that is taken succeeds, and its markup is written. -/
theorem issue_of_takes (h : device.Reliable content) (hready : store.Ready) {command : Command}
    (htakes : store.Takes (.issue command)) :
    ∃ after, (issue device names command).outcome store = (.ok (), after) ∧
      Took content names (.issue command) store after := by
  obtain ⟨hfinished, hcommand⟩ := htakes
  cases command with
  | openMethod _ | openScope _ =>
    obtain ⟨after, hopen, hafter⟩ := openElement_tag h hready hfinished _ _
    exact ⟨after, hopen, hafter.took hfinished (by simp)⟩
  | closeMethod =>
    obtain ⟨after, hclose, hafter⟩ := closeElement_innermost h hready hfinished _ hcommand
    exact ⟨after, hclose, hafter.took hfinished (by simp)⟩
  | closeScope stop => exact issue_closeScope h hready hfinished hcommand stop
  | defineSequencePoints document batch =>
    exact issue_defineSequencePoints h hready hfinished document hcommand
  | close => exact issue_close h hready hfinished hcommand
  | setUserEntryPoint _ | defineLocalVariable _ | defineConstant _ _ _
  | setSymbolAttribute _ _ _ =>
    obtain ⟨after, hput, hafter⟩ := put_single h hready hfinished _ _
    exact ⟨after, hput, hafter.took hfinished (by simp)⟩

/-- On a device that never fails, a call that is taken is answered, and its markup is written. -/
theorem perform_of_takes (h : device.Reliable content) (names : Option Names)
    (hready : store.Ready) {call : Call} (htakes : store.Takes call) :
    ∃ after, ((storeSink device names).perform call).outcome store =
        (.ok (callAnswer store.nextHandle call), after) ∧ Took content names call store after := by
  cases call with
  | define document =>
    obtain ⟨after, hdefine, htook⟩ := defineDocument_taken h hready htakes.1 document
    exact ⟨after, Sink.perform_define_eq_ok_iff.2 ⟨_, rfl, hdefine⟩, htook⟩
  | issue command =>
    obtain ⟨after, hissue, htook⟩ := issue_of_takes h hready htakes
    exact ⟨after, Sink.perform_issue_eq_ok_iff.2 ⟨rfl, hissue⟩, htook⟩

/-! ### Refused calls -/

theorem defineDocument_refused (device : Device ω) (document : Document)
    (hfinished : store.finished = true) :
    (defineDocument device document).outcome store =
      (.error (.sinkFailure .defineDocument .alreadyClosed), store) := by
  rw [defineDocument, Attempt.outcome_bind, Attempt.outcome_get]
  dsimp only
  rw [Attempt.outcome_bind, outcome_put_of_finished hfinished]

theorem openElement_refused (device : Device ω) (operation : Operation) (tag : Tag)
    (hfinished : store.finished = true) :
    ∃ error, (openElement device operation tag).outcome store = (.error error, store) := by
  rw [openElement, Attempt.outcome_bind, outcome_put_of_finished hfinished]
  exact ⟨_, rfl⟩

theorem closeScope_refused (device : Device ω) (names : Option Names) (stop : UInt32)
    (hrefused : store.finished = true ∨ store.openElements.head? ≠ some "scope") :
    ∃ error, (issue device names (.closeScope stop)).outcome store = (.error error, store) := by
  rw [issue, Attempt.outcome_bind]
  by_cases hinnermost : store.openElements.head? = some "scope"
  · have hfinished := hrefused.resolve_right (not_not_intro hinnermost)
    rw [outcome_expectOpen hinnermost]
    dsimp only
    rw [Attempt.outcome_bind, outcome_put_of_finished hfinished]
    exact ⟨_, rfl⟩
  · obtain ⟨error, herror⟩ := outcome_expectOpen_of_ne .closeScope hinnermost
    rw [herror]
    exact ⟨error, rfl⟩

theorem close_refused (device : Device ω) (names : Option Names)
    (hrefused : store.finished = true ∨ store.openElements ≠ ["symbols"]) :
    ∃ error, (issue device names .close).outcome store = (.error error, store) := by
  rw [issue, close, Attempt.outcome_bind, Attempt.outcome_get]
  dsimp only
  split
  · exact ⟨_, rfl⟩
  · rename_i hdepth
    obtain ⟨element, helement⟩ := List.length_eq_one_iff.1 (not_not.1 hdepth)
    -- only the outermost element is open, and it may have another name
    have hclose : store.finished = true ∨ store.openElements.head? ≠ some "symbols" := by
      refine hrefused.imp_right fun hne hhead => hne ?_
      rw [helement, List.head?_cons, Option.some_inj] at hhead
      rw [helement, hhead]
    obtain ⟨error, herror⟩ := closeElement_refused device .close hclose
    rw [Attempt.outcome_bind, herror]
    exact ⟨error, rfl⟩

/-- A command that is not taken fails, and nothing changes. -/
theorem issue_of_not_takes (device : Device ω) (names : Option Names) {command : Command}
    (hrefuses : ¬ store.Takes (.issue command)) :
    ∃ error, (issue device names command).outcome store = (.error error, store) := by
  have hrefused := Classical.not_and_iff_not_or_not.1 hrefuses
  rw [Bool.not_eq_false] at hrefused
  cases command with
  | openMethod _ | openScope _ =>
    exact openElement_refused device _ _ (hrefused.resolve_right (not_not_intro trivial))
  | closeMethod => exact closeElement_refused device _ hrefused
  | closeScope stop => exact closeScope_refused device names stop hrefused
  | defineSequencePoints document batch =>
    rw [issue]
    cases hconsistent : batch.isConsistent with
    | false => exact ⟨_, rfl⟩
    | true =>
      have hfinished := hrefused.resolve_right (not_not_intro hconsistent)
      obtain ⟨error, herror⟩ := openElement_refused device .defineSequencePoints
        ⟨"sequencePoints", [.plain "document" (toString document.index)]⟩ hfinished
      rw [if_neg (by simp), Attempt.outcome_bind, herror]
      exact ⟨error, rfl⟩
  | close => exact close_refused device names hrefused
  | setUserEntryPoint _ | defineLocalVariable _ | defineConstant _ _ _
  | setSymbolAttribute _ _ _ =>
    exact ⟨_, outcome_put_of_finished (hrefused.resolve_right (not_not_intro trivial)) _⟩

/-- A call that is not taken fails, and nothing changes. -/
theorem perform_of_not_takes (device : Device ω) (names : Option Names) {call : Call}
    (hrefuses : ¬ store.Takes call) :
    ∃ error, ((storeSink device names).perform call).outcome store = (.error error, store) := by
  cases call with
  | define document =>
    have hfinished : store.finished = true :=
      Bool.of_not_eq_false fun hopen => hrefuses ⟨hopen, trivial⟩
    refine ⟨.sinkFailure .defineDocument .alreadyClosed, ?_⟩
    rw [Sink.outcome_perform_define]
    show (((defineDocument device document).outcome store).1.map _,
      ((defineDocument device document).outcome store).2) = _
    rw [defineDocument_refused device document hfinished]
    rfl
  | issue command =>
    obtain ⟨error, hissue⟩ := issue_of_not_takes device names hrefuses
    refine ⟨error, ?_⟩
    rw [Sink.outcome_perform_issue]
    show (((issue device names command).outcome store).1.map _,
      ((issue device names command).outcome store).2) = _
    rw [hissue]
    rfl

/-- A call that succeeds was taken. -/
theorem takes_of_perform_ok {call : Call} {answer : Option DocumentHandle}
    (h : (((storeSink device names).perform call).outcome store).1 = .ok answer) :
    store.Takes call := by
  by_contra hrefuses
  obtain ⟨error, herror⟩ := perform_of_not_takes device names hrefuses
  rw [herror] at h
  cases h

/-- On a device that never fails, a call that fails was not taken. -/
theorem not_takes_of_perform_error (hdevice : device.Reliable content) (hready : store.Ready)
    {call : Call} {error : SymbolError}
    (h : (((storeSink device names).perform call).outcome store).1 = .error error) :
    ¬ store.Takes call := by
  intro htakes
  obtain ⟨after, hperform, -⟩ := perform_of_takes hdevice names hready htakes
  rw [hperform] at h
  cases h

end Store

end DebugSymbols.Xml
