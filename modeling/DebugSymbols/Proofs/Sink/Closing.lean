import Mathlib.Data.List.Basic
import Mathlib.Data.List.Induction
import DebugSymbols.Proofs.Sink.Acceptance

/-!
# The end of a recording

A recording that was closed refuses every further call and stays as it is. It can still be given up,
which adds a second end to its log, and it does not count as closed any more. So closing is final
exactly as long as nobody gives up what was closed, and then a log has one end at most.
-/

namespace DebugSymbols

/-- Whether a call is the end of a sink: that it is closed, or given up. -/
def Entry.isEnding : Entry → Bool
  | close | aborted => true
  | _ => false

/-- A log with one end at most, which is its last call. -/
structure EndsOnce (log : List Entry) : Prop where
  length_le : (log.filter Entry.isEnding).length ≤ 1
  getLast?_eq : ∀ ending ∈ log, ending.isEnding = true → log.getLast? = some ending

theorem EndsOnce.of_notMem {log : List Entry} (h : ∀ entry ∈ log, entry.isEnding = false) :
    EndsOnce log where
  length_le := by
    rw [List.filter_eq_nil_iff.2 fun entry hmem => by simp [h entry hmem]]
    exact Nat.zero_le _
  getLast?_eq := fun ending hmem hending => by
    rw [h ending hmem] at hending
    cases hending

theorem EndsOnce.append_singleton {front : List Entry} (last : Entry)
    (h : ∀ entry ∈ front, entry.isEnding = false) : EndsOnce (front ++ [last]) where
  length_le := by
    rw [List.filter_append, List.filter_eq_nil_iff.2 fun entry hmem => by simp [h entry hmem],
      List.nil_append]
    exact List.length_filter_le _ _
  getLast?_eq := fun ending hmem hending => by
    rcases List.mem_append.1 hmem with hfront | hlast
    · rw [h ending hfront] at hending
      cases hending
    · rw [List.getLast?_concat, List.mem_singleton.1 hlast]

namespace Recording

variable {recording after : Recording}

/-! ## Requests -/

/-- A call either leaves the log and the end of a recording as they are, or it is accepted by a
recording in use, which it ends only by closing it. -/
theorem serve_call (recording : Recording) (call : Call) :
    let after := recordingSink.serve recording (.call call)
    after.aborted = recording.aborted ∧
      (after.entries = recording.entries ∧ after.finished = recording.finished ∨
        recording.finished = false ∧ ∃ entry, entry ≠ .aborted ∧
          after.entries.toList = recording.entries.toList ++ [entry] ∧
            after.finished = decide (entry = .close)) := by
  intro after
  cases call with
  | define document =>
    have hafter : after = ((recordingSink.defineDocument document).outcome recording).2 :=
      congrArg Prod.snd (Sink.outcome_perform_define _ _ _)
    rcases houtcome : (recordingSink.defineDocument document).outcome recording with
      ⟨error | handle, reached⟩
    · rw [hafter, houtcome, eq_of_attempt_error houtcome]
      exact ⟨rfl, Or.inl ⟨rfl, rfl⟩⟩
    · obtain ⟨hopen, -, -, -, hreached⟩ := defineDocument_eq_ok_iff.1 houtcome
      rw [hafter, houtcome, hreached]
      exact ⟨rfl, Or.inr ⟨hopen, _, Entry.noConfusion, toList_entries_record _ _, hopen⟩⟩
  | issue command =>
    have hafter : after = ((recordingSink.issue command).outcome recording).2 :=
      congrArg Prod.snd (Sink.outcome_perform_issue _ _ _)
    rcases houtcome : (recordingSink.issue command).outcome recording with ⟨error | _, reached⟩
    · rw [hafter, houtcome, eq_of_attempt_error houtcome]
      exact ⟨rfl, Or.inl ⟨rfl, rfl⟩⟩
    · obtain ⟨hopen, -, -, hreached⟩ := issue_eq_ok_iff.1 houtcome
      rw [hafter, houtcome, hreached]
      refine ⟨aborted_advance _ _, Or.inr ⟨hopen, command.entry, ?_, by simp, ?_⟩⟩
      · cases command <;> exact Entry.noConfusion
      · show (recording.advance command).finished = _
        rw [finished_advance hopen]
        cases command <;> rfl

/-- A recording that came to its end refuses every call. -/
theorem serve_call_of_finished (hfinished : recording.finished = true) (call : Call) :
    recordingSink.serve recording (.call call) = recording := by
  cases call <;>
    simp [Sink.serve, Sink.outcome_perform_define, Sink.outcome_perform_issue, recordingSink,
      attempt, hfinished]

/-- A recording that was given up does not change any more. -/
theorem serve_of_aborted (hfinished : recording.finished = true)
    (haborted : recording.aborted = true) (request : Request) :
    recordingSink.serve recording request = recording := by
  cases request with
  | call call => exact serve_call_of_finished hfinished call
  | abort => exact if_pos haborted

/-- A recording that came to its end stays as it is until it is given up. -/
theorem foldl_serve_of_finished (hfinished : recording.finished = true) {requests : List Request}
    (habort : .abort ∉ requests) : requests.foldl recordingSink.serve recording = recording := by
  induction requests with
  | nil => rfl
  | cons request requests ih =>
    rw [List.mem_cons, not_or] at habort
    rw [List.foldl_cons]
    cases request with
    | call call =>
      rw [serve_call_of_finished hfinished]
      exact ih habort.2
    | abort => exact absurd rfl habort.1

/-- A recording that is given up at some time after its end is given up, and that is all. -/
theorem foldl_serve_of_abort (hfinished : recording.finished = true)
    (haborted : recording.aborted = false) {requests : List Request} (habort : .abort ∈ requests) :
    requests.foldl recordingSink.serve recording =
      { recording with finished := true, aborted := true }.record .aborted := by
  obtain ⟨front, back, rfl, hfront⟩ := List.eq_append_cons_of_mem habort
  have hserve : recordingSink.serve recording .abort =
      { recording with finished := true, aborted := true }.record .aborted :=
    if_neg (by simp [haborted])
  rw [List.foldl_append, foldl_serve_of_finished hfinished hfront, List.foldl_cons, hserve]
  exact List.foldl_fixed' (serve_of_aborted rfl rfl) back

/-! ## Logs -/

/-- What the ends of a recording say about its past. -/
structure EndsKnown (recording : Recording) : Prop where
  aborted_eq : recording.finished = false → recording.aborted = false
  close_mem : recording.isClosed = true → .close ∈ recording.entries.toList

theorem EndsKnown.serve (h : recording.EndsKnown) (request : Request) :
    (recordingSink.serve recording request).EndsKnown := by
  cases request with
  | call call =>
    obtain ⟨haborted, ⟨hentries, hfinished⟩ | ⟨hopen, entry, -, hentries, hfinished⟩⟩ :=
      serve_call recording call
    · refine ⟨fun hopen => haborted.trans (h.aborted_eq (hfinished ▸ hopen)), ?_⟩
      rw [isClosed, haborted, hfinished, hentries]
      exact h.close_mem
    · refine ⟨fun _ => haborted.trans (h.aborted_eq hopen), fun hclosed => ?_⟩
      rw [isClosed, hfinished, Bool.and_eq_true, decide_eq_true_eq] at hclosed
      rw [hentries, hclosed.1]
      exact List.mem_append_right _ List.mem_cons_self
  | abort =>
    -- a recording that was given up is neither in use nor closed
    show recording.giveUp.EndsKnown
    rw [giveUp]
    split
    · exact h
    · exact ⟨fun hopen => Bool.noConfusion hopen, fun hclosed => Bool.noConfusion hclosed⟩

theorem endsKnown_foldl_serve (failOn : Option Operation) (requests : List Request) :
    (requests.foldl recordingSink.serve (start failOn)).EndsKnown :=
  List.foldlRecOn requests recordingSink.serve (motive := EndsKnown)
    ⟨fun _ => rfl, fun hclosed => Bool.noConfusion hclosed⟩ fun _ h request _ => h.serve request

/-- A recording whose log has no end while it is in use, and one end when it came to it. -/
inductive Orderly (recording : Recording) : Prop
  | running (finished_eq : recording.finished = false) (aborted_eq : recording.aborted = false)
      (no_ending : ∀ entry ∈ recording.entries.toList, entry.isEnding = false)
  | ended (front : List Entry) (ending : Entry) (finished_eq : recording.finished = true)
      (entries_eq : recording.entries.toList = front ++ [ending])
      (no_ending : ∀ entry ∈ front, entry.isEnding = false)

theorem orderly_start (failOn : Option Operation) : (start failOn).Orderly :=
  .running rfl rfl fun _ hmem => nomatch hmem

theorem Orderly.endsOnce (h : recording.Orderly) : EndsOnce recording.entries.toList := by
  rcases h with ⟨-, -, hnone⟩ | ⟨front, ending, -, hentries, hnone⟩
  · exact .of_notMem hnone
  · rw [hentries]
    exact .append_singleton ending hnone

theorem Orderly.call (h : recording.Orderly) (call : Call) :
    (recordingSink.serve recording (.call call)).Orderly := by
  rcases h with ⟨hopen, habort, hnone⟩ | ⟨front, ending, hfinished, hentries, hnone⟩
  · obtain ⟨haborted, ⟨hentries, hfinished⟩ | ⟨-, entry, hentry, hentries, hfinished⟩⟩ :=
      serve_call recording call
    · exact .running (hfinished.trans hopen) (haborted.trans habort) (hentries ▸ hnone)
    · by_cases hclose : entry = .close
      · exact .ended _ entry (hfinished.trans (decide_eq_true hclose)) hentries hnone
      · refine .running (hfinished.trans (decide_eq_false hclose)) (haborted.trans habort) ?_
        rw [hentries, List.forall_mem_append, List.forall_mem_singleton]
        refine ⟨hnone, ?_⟩
        cases entry <;> first | rfl | contradiction
  · rw [serve_call_of_finished hfinished]
    exact .ended front ending hfinished hentries hnone

/-- To give up a recording that is not closed is to end it, unless it came to its end before. -/
theorem Orderly.abort (h : recording.Orderly) (hclosed : recording.isClosed = false) :
    (recordingSink.serve recording .abort).Orderly := by
  show recording.giveUp.Orderly
  rw [giveUp]
  split
  · exact h
  · rename_i haborted
    rcases h with ⟨-, -, hnone⟩ | ⟨-, -, hfinished, -, -⟩
    · exact .ended _ .aborted rfl (toList_entries_record _ _) hnone
    · rw [isClosed, hfinished, Bool.of_not_eq_true haborted] at hclosed
      cases hclosed

/-- A recording that is not given up while it is closed has one end at most. -/
theorem orderly_foldl_serve {failOn : Option Operation} {requests : List Request}
    (h : ∀ front back, requests = front ++ .abort :: back →
      (front.foldl recordingSink.serve (start failOn)).isClosed = false) :
    (requests.foldl recordingSink.serve (start failOn)).Orderly := by
  induction requests using List.reverseRecOn with
  | nil => exact orderly_start failOn
  | append_singleton requests request ih =>
    have hrequests := ih fun front back heq => h front (back ++ [request]) (by simp [heq])
    rw [List.foldl_append, List.foldl_cons, List.foldl_nil]
    cases request with
    | call call => exact hrequests.call call
    | abort => exact hrequests.abort (h requests [] rfl)

/-- Closing is final for a recording, exactly as long as it is not given up thereafter. After a call
to close it that is accepted, the log stays as it is and the recording stays closed, whatever is
asked of it, if and only if it is not asked to give up. And the log has one end at most, which is
its last call, if and only if the recording was never given up while it was closed. -/
theorem close_final (failOn : Option Operation) (requests : List Request) :
    let recording := requests.foldl recordingSink.serve (start failOn)
    (∀ closed, (recordingSink.issue .close).outcome recording = (.ok (), closed) →
      ∀ more : List Request, .abort ∉ more ↔
        (more.foldl recordingSink.serve closed).entries = closed.entries ∧
          (more.foldl recordingSink.serve closed).isClosed = true) ∧
      ((∀ front back, requests = front ++ .abort :: back →
          (front.foldl recordingSink.serve (start failOn)).isClosed = false) ↔
        EndsOnce recording.entries.toList) := by
  intro recording
  refine ⟨fun closed hclose more => ?_, fun h => (orderly_foldl_serve h).endsOnce, ?_⟩
  · obtain ⟨hopen, -, -, hafter⟩ := issue_eq_ok_iff.1 hclose
    have hfinished : closed.finished = true := by rw [hafter]; rfl
    have haborted : closed.aborted = false := by
      rw [hafter]
      exact (endsKnown_foldl_serve failOn requests).aborted_eq hopen
    constructor
    · intro habort
      rw [foldl_serve_of_finished hfinished habort, isClosed, hfinished, haborted]
      exact ⟨rfl, rfl⟩
    · rintro ⟨-, hstays⟩ habort
      rw [foldl_serve_of_abort hfinished haborted habort] at hstays
      cases hstays
  · rintro hends front back rfl
    -- a log with both ends would have the wrong one last
    by_contra hclosed
    rw [Bool.not_eq_false] at hclosed
    have hclose := (endsKnown_foldl_serve failOn front).close_mem hclosed
    rw [isClosed, Bool.and_eq_true, Bool.not_eq_true'] at hclosed
    have hlog : recording.entries.toList =
        (front.foldl recordingSink.serve (start failOn)).entries.toList ++ [.aborted] := by
      unfold recording
      rw [List.foldl_append, foldl_serve_of_abort hclosed.1 hclosed.2 List.mem_cons_self,
        toList_entries_record]
    have hlast := hends.getLast?_eq .close (hlog ▸ List.mem_append_left _ hclose) rfl
    rw [hlog, List.getLast?_concat] at hlast
    cases hlast

/-- A recording with a document is closed; it refuses to be closed again, and further documents. -/
theorem close_final_document :
    let recording := recordingSink.serve (start none) (.call (.define (.csharp "a.cs")))
    let closed := recordingSink.serve recording (.call (.issue .close))
    let last := recordingSink.serve (recordingSink.serve closed (.call (.issue .close)))
      (.call (.define (.csharp "b.cs")))
    (recordingSink.issue .close).outcome recording = (.ok (), closed) ∧
      last.entries = closed.entries ∧ last.isClosed = true ∧ EndsOnce last.entries.toList := by
  intro recording closed last
  obtain ⟨hfinal, -⟩ := close_final none [.call (.define (.csharp "a.cs"))]
  obtain ⟨hentries, hclosed⟩ := (hfinal closed rfl
    [.call (.issue .close), .call (.define (.csharp "b.cs"))]).1 (by simp)
  obtain ⟨-, hends⟩ := close_final none [.call (.define (.csharp "a.cs")), .call (.issue .close)]
  refine ⟨rfl, hentries, hclosed, ?_⟩
  show EndsOnce last.entries.toList
  rw [show last.entries = closed.entries from hentries]
  refine hends.1 fun front back heq => ?_
  have hmem := List.mem_append_right front (List.mem_cons_self (a := Request.abort) (l := back))
  rw [← heq] at hmem
  simp at hmem

/-- A recording that is given up after it was closed has both ends in its log, and does not count as
closed any more. -/
theorem abort_after_close :
    let closed := recordingSink.serve (start none) (.call (.issue .close))
    let last := recordingSink.serve closed .abort
    (recordingSink.issue .close).outcome (start none) = (.ok (), closed) ∧
      closed.isClosed = true ∧ closed.entries.toList = [.close] ∧
      last.isClosed = false ∧ last.entries.toList = [.close, .aborted] ∧
      ¬ (last.entries = closed.entries ∧ last.isClosed = true) ∧
      ¬ EndsOnce last.entries.toList := by
  intro closed last
  have hlog : last.entries.toList = [.close, .aborted] := rfl
  refine ⟨rfl, rfl, rfl, rfl, hlog, fun h => Bool.noConfusion h.2, fun hends => ?_⟩
  have hlength := hends.length_le
  rw [hlog] at hlength
  exact absurd hlength (by decide)

end Recording

end DebugSymbols
