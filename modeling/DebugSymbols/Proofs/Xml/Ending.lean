import Mathlib.Data.List.Induction
import DebugSymbols.Proofs.Xml.Nesting
import DebugSymbols.Proofs.Xml.RootEnd
import DebugSymbols.Xml.Disk

/-!
# The end of an XML store

A store is closed in two steps: the closing tag of the outermost element is written, and the device
is flushed. Only after the flush the store is finished, and from then on it asks nothing of its
device. If the flush fails the tag stands there all the same, and the store goes on to write behind
it until it is given up. This is the only way to write behind the end, whatever the device does.
-/

namespace DebugSymbols.Xml

open Attempt (Keeps)

variable {ω : Type} {device : Device ω} {names : Option Names}

/-! ## Putting markup -/

namespace Store

variable {store origin after : Store (ω × List DeviceEvent)} {operation : Operation}

/-- What a store that is not finished puts on its device is seen. -/
theorem outcome_put_watched (device : Device ω) (operation : Operation) (markup : Markup)
    (hopen : store.finished = false) :
    ∃ result events state, WriteEvents (store.writer.texts markup) result events ∧
      (put device.watched operation markup).outcome store =
        (result.mapError fun text => .sinkFailure operation (.device text), { store with
          writer := ⟨(state, store.seen ++ events),
            Writer.depthAfter store.writer.depth markup, true⟩ }) := by
  obtain ⟨events, hevents, hput⟩ := Writer.put_watched device markup store.writer
  refine ⟨_, events, (Writer.put device markup store.writer.unwatched).2.device, hevents, ?_⟩
  rw [put, Attempt.outcome_bind, Attempt.outcome_get]
  dsimp only
  rw [if_neg (by simp [hopen]), onWriter, Attempt.outcome_ofOutcome, hput]
  rcases Writer.put device markup store.writer.unwatched with ⟨_ | _, writer⟩ <;> rfl

/-! ## Calls that do not close the store -/

/-- A store that has gone on without closing the outermost element. -/
structure Continues (before after : Store (ω × List DeviceEvent)) : Prop where
  started_eq : after.writer.started = true
  finished_eq : after.finished = before.finished
  seen_extended : before.seen <+: after.seen
  rootEnd_kept : rootEnd <:+: after.seen → rootEnd <:+: before.seen
  symbols_kept : "symbols" ∈ after.openElements → "symbols" ∈ before.openElements

namespace Continues

theorem refl (hstarted : store.writer.started = true) : Continues store store :=
  ⟨hstarted, rfl, List.prefix_rfl, id, id⟩

/-- Elements other than the outermost one may have been opened and closed. -/
theorem reopen {elements : List String} (h : Continues origin store)
    (hsymbols : "symbols" ∈ elements → "symbols" ∈ store.openElements) :
    Continues origin { store with openElements := elements } :=
  ⟨h.started_eq, h.finished_eq, h.seen_extended, h.rootEnd_kept, h.symbols_kept ∘ hsymbols⟩

theorem refuse {α : Type} (operation : Operation) (refusal : Refusal) :
    Keeps (Continues origin) (refuse (α := α) operation refusal) := fun _ h => h

variable (device)

theorem put (operation : Operation) {markup : Markup} (hmarkup : markup ≠ .closing "symbols") :
    Keeps (Continues origin) (put device.watched operation markup) := by
  intro store h
  by_cases hfinished : store.finished = true
  · rw [outcome_put_of_finished hfinished]
    exact h
  obtain ⟨result, events, state, hevents, hput⟩ :=
    outcome_put_watched device operation markup (Bool.of_not_eq_true hfinished)
  rw [hput]
  refine ⟨rfl, h.finished_eq, h.seen_extended.trans (List.prefix_append _ _), fun hend => ?_,
    h.symbols_kept⟩
  refine h.rootEnd_kept ((rootEnd_of_writeEvents h.started_eq hevents hend).resolve_right ?_)
  exact fun hclosing => hmarkup hclosing.1

theorem openElement (operation : Operation) {tag : Tag} (htag : tag.name ≠ "symbols") :
    Keeps (Continues origin) (openElement device.watched operation tag) := by
  refine (put device operation (by simp)).bind fun _ store h => ?_
  exact h.reopen fun hmem => (List.mem_cons.1 hmem).resolve_left (Ne.symm htag)

omit device in
theorem expectOpen (operation : Operation) (name : String) :
    Keeps (Continues origin) (expectOpen operation name) := by
  intro store h
  by_cases hinnermost : store.openElements.head? = some name
  · rw [outcome_expectOpen hinnermost]
    exact h
  · obtain ⟨error, herror⟩ := outcome_expectOpen_of_ne operation hinnermost
    rw [herror]
    exact h

theorem closeElement (operation : Operation) {name : String} (hname : name ≠ "symbols") :
    Keeps (Continues origin) (closeElement device.watched operation name) := by
  refine (expectOpen operation name).bind fun _ => ?_
  refine (put device operation (by simpa using hname)).bind fun _ store h => ?_
  exact h.reopen List.mem_of_mem_tail

theorem putPoints (points : List SequencePoint) :
    Keeps (Continues origin) (putPoints device.watched points) := by
  induction points with
  | nil => exact .pure ()
  | cons point points ih => exact (put device _ (by simp)).bind fun _ => ih

theorem defineDocument (document : Document) :
    Keeps (Continues origin) (defineDocument device.watched document) := by
  have hread : Keeps (Continues origin) (get : Attempt (Store (ω × List DeviceEvent)) _) :=
    fun _ h => h
  refine hread.bind fun store => (put device _ (by simp)).bind fun _ => ?_
  refine Keeps.bind (fun store h => ?_) fun _ => .pure _
  exact ⟨h.started_eq, h.finished_eq, h.seen_extended, h.rootEnd_kept, h.symbols_kept⟩

theorem issue (names : Option Names) {command : Command} (hcommand : command ≠ .close) :
    Keeps (Continues origin) (issue device.watched names command) := by
  cases command with
  | openMethod _ => exact openElement device _ (by simp [tokenTag])
  | openScope _ => exact openElement device _ (by simp)
  | closeMethod => exact closeElement device _ (by decide)
  | closeScope stop =>
    exact (expectOpen _ _).bind fun _ =>
      (put device _ (by simp)).bind fun _ => closeElement device _ (by decide)
  | defineSequencePoints document batch =>
    rw [Store.issue]
    split
    · exact refuse _ _
    · exact (openElement device _ (by simp)).bind fun _ =>
        (putPoints device _).bind fun _ => closeElement device _ (by decide)
  | close => exact absurd rfl hcommand
  | setUserEntryPoint _ | defineLocalVariable _ | defineConstant _ _ _
  | setSymbolAttribute _ _ _ => exact put device _ (by simp)

/-- What a store is asked for, other than to close, does not close the outermost element. -/
theorem perform (names : Option Names) {call : Call} (hcall : call ≠ .issue .close) :
    Keeps (Continues origin) ((storeSink device.watched names).perform call) := by
  intro store h
  cases call with
  | define document =>
    rw [Sink.outcome_perform_define]
    exact defineDocument device document store h
  | issue command =>
    rw [Sink.outcome_perform_issue]
    exact issue device names (fun heq => hcall (congrArg Call.issue heq)) store h

end Continues

/-! ## The end -/

/-- What is known of the end of a store, whatever was asked of it: it is finished just if it was
given up, or closed with a flush that succeeded. Its outermost element ends only once. -/
structure EndKnown (aborted : Prop) (store : Store (ω × List DeviceEvent)) : Prop where
  started_eq : store.writer.started = true
  finished_iff : store.finished = true ↔
    aborted ∨ rootEnd <:+: store.seen ∧ ¬ unflushedEnd <:+: store.seen
  symbols_notMem : rootEnd <:+: store.seen → "symbols" ∉ store.openElements

variable {aborted : Prop}

/-- A store that is in use and has not written the end of its outermost element. -/
structure Unended (store : Store (ω × List DeviceEvent)) : Prop where
  started_eq : store.writer.started = true
  finished_eq : store.finished = false
  rootEnd_missing : ¬ rootEnd <:+: store.seen

theorem Unended.endKnown (h : store.Unended) : EndKnown False store where
  started_eq := h.started_eq
  finished_iff := by simp [h.finished_eq, h.rootEnd_missing]
  symbols_notMem := fun hend => absurd hend h.rootEnd_missing

theorem EndKnown.continues (h : EndKnown aborted store) (hopen : store.finished = false)
    (hcontinues : Continues store after) : EndKnown aborted after := by
  refine ⟨hcontinues.started_eq, ?_, fun hend hmem => ?_⟩
  · rw [hcontinues.finished_eq, hopen]
    have hknown := not_congr h.finished_iff
    rw [hopen] at hknown
    obtain ⟨haborted, hflushed⟩ := not_or.1 (hknown.1 Bool.false_ne_true)
    refine ⟨nofun, ?_⟩
    rintro (hab | ⟨hend, hunflushed⟩)
    · exact absurd hab haborted
    · have hbefore := not_and_not_right.1 hflushed (hcontinues.rootEnd_kept hend)
      exact absurd (hbefore.trans hcontinues.seen_extended.isInfix) hunflushed
  · exact h.symbols_notMem (hcontinues.rootEnd_kept hend) (hcontinues.symbols_kept hmem)

/-- The device is flushed, and the store is finished if that succeeds. -/
theorem outcome_finish_watched (device : Device ω) (store : Store (ω × List DeviceEvent))
    (hopen : store.finished = false) :
    ∃ flushed state, ((do
      onWriter .close (Writer.flush device.watched)
      modify fun store => { store with finished := true } : Attempt _ Unit).outcome store).2 =
        { store with
          writer := { store.writer with device := (state, store.seen ++ [.flush flushed]) }
          finished := flushed } := by
  obtain ⟨writer, nextHandle, openElements, _⟩ := store
  obtain rfl : _ = false := hopen
  obtain ⟨result, state, hflush⟩ := Writer.flush_watched device writer
  rw [Attempt.outcome_bind, onWriter, Attempt.outcome_ofOutcome, hflush]
  cases result with
  | error text => exact ⟨false, state, rfl⟩
  | ok _ => exact ⟨true, state, rfl⟩

/-- What a call to close a store does: the closing tag is written only in part, or it is written and
the device is flushed, and the store is finished if the flush succeeds. -/
theorem outcome_close_watched (device : Device ω) (hopen : store.finished = false)
    (helements : store.openElements = ["symbols"]) :
    let texts := store.writer.texts (.closing "symbols")
    let after := ((close device.watched).outcome store).2
    after.writer.started = true ∧
      ((∃ text events, WriteEvents texts (.error text) events ∧ after.finished = false ∧
          after.seen = store.seen ++ events) ∨
        ∃ flushed, after.finished = flushed ∧ after.openElements = [] ∧
          after.seen = store.seen ++ texts.map (.write · true) ++ [.flush flushed]) := by
  obtain ⟨result, events, state, hevents, hput⟩ :=
    outcome_put_watched device .close (.closing "symbols") hopen
  have hexpect : (expectOpen .close "symbols").outcome store = (.ok (), store) :=
    outcome_expectOpen (by rw [helements]; rfl)
  have hdepth : ¬ store.openElements.length ≠ 1 := by rw [helements]; decide
  rw [close, Attempt.outcome_bind, Attempt.outcome_get]
  dsimp only
  rw [if_neg hdepth, Attempt.outcome_bind, closeElement, Attempt.outcome_bind, hexpect]
  dsimp only
  rw [Attempt.outcome_bind, hput]
  cases result with
  | error text => exact ⟨rfl, Or.inl ⟨text, events, hevents, hopen, rfl⟩⟩
  | ok _ =>
    cases hevents
    obtain ⟨flushed, next, hfinish⟩ := outcome_finish_watched device { store with
      writer := ⟨(state, _), Writer.depthAfter store.writer.depth (.closing "symbols"), true⟩
      openElements := store.openElements.tail } hopen
    refine ⟨congrArg (·.writer.started) hfinish, Or.inr ⟨flushed, congrArg (·.finished) hfinish, ?_,
      congrArg seen hfinish⟩⟩
    refine (congrArg (·.openElements) hfinish).trans ?_
    rw [helements]
    rfl

/-- A store that closes its outermost element is finished if it is flushed, and only then. -/
theorem close_watched (device : Device ω) (h : store.Unended)
    (helements : store.openElements = ["symbols"]) :
    EndKnown False ((close device.watched).outcome store).2 := by
  obtain ⟨hafter, ⟨text, events, hevents, hfinished, hseen⟩ |
    ⟨flushed, hfinished, hclosed, hseen⟩⟩ := outcome_close_watched device h.finished_eq helements
  · have hnone : ¬ rootEnd <:+: ((close device.watched).outcome store).2.seen := by
      rw [hseen]
      intro hend
      rcases rootEnd_of_writeEvents h.started_eq hevents hend with hbefore | ⟨-, hok⟩
      · exact h.rootEnd_missing hbefore
      · cases hok
    exact Unended.endKnown ⟨hafter, hfinished, hnone⟩
  · have hsuffix := Writer.rootEnd_suffix_texts h.started_eq
    have hwritten : rootEnd <:+: ((close device.watched).outcome store).2.seen := by
      rw [hseen]
      exact (hsuffix.trans (List.suffix_append _ _)).isInfix.trans (List.prefix_append _ _).isInfix
    refine ⟨hafter, ?_, fun _ => by simp [hclosed]⟩
    rw [hfinished, false_or, and_iff_right hwritten, hseen]
    cases flushed with
    | false =>
      obtain ⟨front, hfront⟩ := hsuffix.trans (List.suffix_append store.seen _)
      rw [← hfront, List.append_assoc]
      simp only [Bool.false_eq_true, false_iff, not_not]
      exact (List.suffix_append front unflushedEnd).isInfix
    | true =>
      refine iff_of_true rfl fun hunflushed => h.rootEnd_missing ?_
      rw [List.append_assoc] at hunflushed
      have hbefore := infix_of_infix_append (by simp) hunflushed
      exact (List.prefix_append rootEnd _).isInfix.trans hbefore

/-- Giving a store up closes no element. -/
theorem giveUp_watched (device : Device ω) (h : EndKnown aborted store)
    (hopen : store.finished = false) :
    EndKnown True (giveUp device.watched store).2 := by
  have hgiveUp : ∃ flushed state, (giveUp device.watched store).2 = { store with
      writer := { store.writer with device := (state, store.seen ++ [.flush flushed]) }
      finished := true } := by
    obtain ⟨result, state, hflush⟩ := Writer.flush_watched device store.writer
    rw [giveUp, if_neg (by simp [hopen]), hflush]
    cases result with
    | error text => exact ⟨false, state, rfl⟩
    | ok _ => exact ⟨true, state, rfl⟩
  obtain ⟨flushed, state, hafter⟩ := hgiveUp
  rw [hafter]
  refine ⟨h.started_eq, by simp, fun hend => h.symbols_notMem ?_⟩
  have hitem : DeviceEvent.flush flushed ∉ rootEnd := by simp [rootEnd]
  exact ((infix_append_cons_iff hitem).1 hend).resolve_right (by simp [rootEnd, Markup.pieces])

/-- What is known of the end of a store is known after every request. -/
theorem EndKnown.serve (h : EndKnown aborted store) (request : Request) :
    EndKnown (aborted ∨ request = .abort)
      ((storeSink device.watched names).serve store request) := by
  by_cases hfinished : store.finished = true
  · rw [serve_of_finished device.watched names hfinished]
    have hknown := h.finished_iff.1 hfinished
    exact ⟨h.started_eq, iff_of_true hfinished (hknown.imp_left Or.inl), h.symbols_notMem⟩
  have hopen := Bool.of_not_eq_true hfinished
  cases request with
  | abort =>
    simp only [or_true]
    exact giveUp_watched device h hopen
  | call call =>
    simp only [reduceCtorEq, or_false]
    by_cases hclose : call = .issue .close
    · subst hclose
      by_cases htakes : store.Takes (.issue .close)
      · -- the outermost element is open, so it has not ended
        obtain ⟨-, helements⟩ := htakes
        have hend : ¬ rootEnd <:+: store.seen := fun hend =>
          h.symbols_notMem hend (by rw [helements]; exact List.mem_cons_self)
        have haborted : aborted = False := eq_false fun hab =>
          hfinished (h.finished_iff.2 (Or.inl hab))
        rw [haborted, Sink.serve, Sink.outcome_perform_issue]
        exact close_watched device ⟨h.started_eq, hopen, hend⟩ helements
      · rw [serve_of_not_takes device.watched names htakes]
        exact h
    · exact h.continues hopen (Continues.perform device names hclose store (.refl h.started_eq))

/-- An element may be opened, whatever its name. -/
theorem keeps_unended_openElement (device : Device ω) (operation : Operation) (tag : Tag) :
    Keeps Unended (openElement device.watched operation tag) := by
  refine Keeps.bind (fun store h => ?_) fun _ _ h => ⟨h.1, h.2, h.3⟩
  have hcontinues :
      Continues store ((put device.watched operation (.opening tag)).outcome store).2 :=
    Continues.put device operation (by simp) store (.refl h.started_eq)
  exact ⟨hcontinues.started_eq, hcontinues.finished_eq.trans h.finished_eq,
    fun hend => h.rootEnd_missing (hcontinues.rootEnd_kept hend)⟩

/-- A new store has not ended. -/
theorem endKnown_start (device : Device ω) (state : ω) :
    EndKnown False (start device.watched (state, [])).2 := by
  have hopen : finished ⟨⟨(state, ([] : List DeviceEvent)), 0, false⟩, 0, [], false⟩ = false := rfl
  obtain ⟨result, events, next, hevents, hput⟩ :=
    outcome_put_watched device .createStore .declaration hopen
  have hdeclared : Unended ⟨⟨(next, events), 0, true⟩, 0, [], false⟩ :=
    ⟨rfl, rfl, not_rootEnd_of_declaration rfl hevents⟩
  rw [start, Attempt.outcome_bind, hput]
  cases result with
  | error text => exact hdeclared.endKnown
  | ok _ => exact (keeps_unended_openElement device .createStore _ _ hdeclared).endKnown

/-- What is known of the end of a store, whatever was asked of it. -/
theorem endKnown_foldl_serve (device : Device ω) (names : Option Names) (state : ω)
    (requests : List Request) :
    EndKnown (.abort ∈ requests) (requests.foldl (storeSink device.watched names).serve
      (start device.watched (state, [])).2) := by
  induction requests using List.reverseRecOn with
  | nil =>
    rw [List.foldl_nil, eq_false (List.not_mem_nil (a := Request.abort))]
    exact endKnown_start device state
  | append_singleton requests request ih =>
    rw [List.foldl_concat, List.mem_append, List.mem_singleton, eq_comm (a := Request.abort)]
    exact ih.serve request

/-- A store in use writes something for a document, or at least tries to. -/
theorem serve_define_ne (device : Device ω) (names : Option Names) (document : Document)
    (hstarted : store.writer.started = true) (hopen : store.finished = false) :
    (storeSink device.watched names).serve store (.call (.define document)) ≠ store := by
  obtain ⟨result, events, state, hevents, hput⟩ := outcome_put_watched device .defineDocument
    (.single (documentTag store.nextHandle document)) hopen
  rw [Writer.texts_of_started hstarted] at hevents
  obtain ⟨done, back, hevents⟩ := hevents.head
  have hseen : ((storeSink device.watched names).serve store (.call (.define document))).seen =
      store.seen ++ events := by
    rw [Sink.serve, Sink.outcome_perform_define]
    show ((defineDocument device.watched document).outcome store).2.seen = _
    rw [defineDocument, Attempt.outcome_bind, Attempt.outcome_get]
    dsimp only
    rw [Attempt.outcome_bind, hput]
    cases result <;> rfl
  intro hsame
  rw [hsame, hevents] at hseen
  exact absurd (List.self_eq_append_right.1 hseen) (List.cons_ne_nil _ _)

end Store

/-- Nothing follows the end of an XML store that was flushed or given up, whatever the device does
and whatever is asked, also behind calls that failed. That the device is watched changes nothing. As
soon as the closing tag of the outermost element is written, the store stays as it is, with all that
was asked of its device, if and only if the store was given up or the flush behind the tag did not
fail. And then every call is refused. -/
theorem nothing_follows_root_end (device : Device ω) (names : Option Names) (state : ω)
    (requests : List Request) :
    let sink := storeSink device.watched names
    let store := requests.foldl sink.serve (Store.start device.watched (state, [])).2
    (requests.foldl (storeSink device names).serve (Store.start device state).2 = store.unwatched ∧
      ∀ call, (((storeSink device names).perform call).outcome store.unwatched).1 =
        ((sink.perform call).outcome store).1) ∧
    (rootEnd <:+: store.seen →
      ((∀ more : List Request, more.foldl sink.serve store = store) ↔
        .abort ∈ requests ∨ ¬ unflushedEnd <:+: store.seen) ∧
      (.abort ∈ requests ∨ ¬ unflushedEnd <:+: store.seen →
        ∀ call, ∃ error, ((sink.perform call).outcome store).1 = .error error)) := by
  intro sink store
  have hknown : store.EndKnown (.abort ∈ requests) :=
    Store.endKnown_foldl_serve device names state requests
  refine ⟨⟨Store.foldl_serve_unwatched device names state requests, fun call => ?_⟩, fun hend => ?_⟩
  · exact congrArg Prod.fst (Store.Watches.perform device names call store)
  have hfinished : store.finished = true ↔ .abort ∈ requests ∨ ¬ unflushedEnd <:+: store.seen := by
    rw [hknown.finished_iff, and_iff_right hend]
  rw [← hfinished]
  refine ⟨⟨fun hstays => ?_, fun hfinished => ?_⟩, fun hfinished call => ?_⟩
  · -- a store in use would ask its device to write a further document
    by_contra hopen
    exact Store.serve_define_ne device names (.csharp "") hknown.started_eq
      (Bool.of_not_eq_true hopen) (hstays [.call (.define (.csharp ""))])
  · exact List.foldl_fixed' (Store.serve_of_finished device.watched names hfinished)
  · have hrefuses : ¬ store.Takes call := fun htakes =>
      absurd (htakes.1.symm.trans hfinished) Bool.false_ne_true
    obtain ⟨error, herror⟩ := Store.perform_of_not_takes device.watched names hrefuses
    exact ⟨error, congrArg Prod.fst herror⟩

/-- On a disk that cannot be flushed, a store that failed to close is given up. -/
theorem nothing_follows_root_end_givenUp :
    let sink := storeSink diskDevice.watched none
    let requests : List Request := [.call (.issue .close), .abort]
    let store := requests.foldl sink.serve
      (Store.start diskDevice.watched (Disk.blank none true, [])).2
    rootEnd <:+: store.seen ∧ unflushedEnd <:+: store.seen ∧
      sink.serve store (.call (.define (.csharp "a.cs"))) = store ∧
        ∃ error, ((sink.perform (.define (.csharp "a.cs"))).outcome store).1 = .error error := by
  intro sink requests store
  have hunflushed : unflushedEnd <:+: store.seen := by decide +kernel
  have hend : rootEnd <:+: store.seen := (List.prefix_append rootEnd _).isInfix.trans hunflushed
  obtain ⟨-, h⟩ := nothing_follows_root_end diskDevice none (Disk.blank none true) requests
  obtain ⟨hstays, hrefused⟩ := h hend
  have haborted : Request.abort ∈ requests := by simp [requests]
  exact ⟨hend, hunflushed, hstays.2 (Or.inl haborted) [.call (.define (.csharp "a.cs"))],
    hrefused (Or.inl haborted) (.define (.csharp "a.cs"))⟩

/-- On a disk that cannot be flushed, a store that failed to close takes a document all the same,
and writes it behind the closing tag of its outermost element. -/
theorem document_behind_root_end :
    let sink := storeSink diskDevice.watched none
    let new := (Store.start diskDevice.watched (Disk.blank none true, [])).2
    let store := sink.serve new (.call (.issue .close))
    let document := Call.define (.csharp "a.cs")
    rootEnd <:+: store.seen ∧
      ((sink.perform document).outcome store).1 = .ok (some ⟨0⟩) ∧
      (∃ more, (sink.serve store (.call document)).seen = store.seen ++ .write "\n" true :: more) ∧
      ¬ ∀ (requests : List Request) call, rootEnd <:+: (requests.foldl sink.serve new).seen →
        (sink.serve (requests.foldl sink.serve new) (.call call)).seen =
          (requests.foldl sink.serve new).seen ∧
        ∃ error,
          ((sink.perform call).outcome (requests.foldl sink.serve new)).1 = .error error := by
  intro sink new store document
  have hend : rootEnd <:+: store.seen := by decide +kernel
  have hanswer : ((sink.perform document).outcome store).1 = .ok (some ⟨0⟩) := rfl
  refine ⟨hend, hanswer, ⟨_, rfl⟩, fun h => ?_⟩
  obtain ⟨-, error, herror⟩ := h [.call (.issue .close)] document hend
  cases hanswer.symm.trans herror

end DebugSymbols.Xml
