import DebugSymbols.Emit.Relocate
import DebugSymbols.Proofs.Emit.Log
import DebugSymbols.Proofs.Emit.Replay

/-!
# Nothing is lost in a log

Relocating with the empty path map leaves the log of the tree and the end of the sink, and replaying
this log gives back what the tree says about its methods. The class of an iterator is the exception:
a NUL character at the very end of its name is not in the log.
-/

namespace DebugSymbols

/-! ## Relocation -/

/-- A relocation that succeeds tells the whole tree and closes the sink. -/
theorem Emitter.relocate_eq_ok {σ : Type} {emitter : Emitter σ} {tree : SymbolTree} {map : PathMap}
    {state : σ} {summary : Summary} (h : (emitter.relocate tree map state).result = .ok summary) :
    ∃ emission, (emitter.emit (tree.remap map).tree).outcome (Emission.start state) =
        (.ok (), emission) ∧
      (emitter.sink.issue .close).outcome emission.sink =
        (.ok (), (emitter.relocate tree map state).sink) := by
  rw [relocate] at h ⊢
  generalize (emitter.emit (tree.remap map).tree).outcome (Emission.start state) = emitted at h ⊢
  rcases emitted with ⟨error | _, emission⟩
  · cases h
  · refine ⟨emission, rfl, ?_⟩
    dsimp only at h ⊢
    rw [Sink.finish] at h ⊢
    generalize (emitter.sink.issue .close).outcome emission.sink = ended at h ⊢
    rcases ended with ⟨error | _, closed⟩
    · cases h
    · rfl

/-- A relocation into a new recording leaves the log of the remapped tree, with the end of the sink
behind it, and the documents that this log defines. -/
theorem Emitter.recorded_relocate {options : Options} {names : Option Names}
    {failOn : Option Operation} {tree : SymbolTree} {map : PathMap} {summary : Summary}
    (h : ((Emitter.recording options names).relocate tree map (Recording.start failOn)).result =
      .ok summary) :
    let recording := ((Emitter.recording options names).relocate tree map
      (Recording.start failOn)).sink
    recording.entries.toList = (tree.remap map).tree.log options ++ [.close] ∧
      recording.documents.toList = (tree.remap map).tree.definedDocuments ∧
        ∀ method ∈ (tree.remap map).tree.methods, method.Writable := by
  obtain ⟨emission, hemit, hclose⟩ := relocate_eq_ok h
  obtain ⟨hlog, hwritable⟩ := recorded_emit hemit
  obtain ⟨hentries, hdocuments⟩ := Recording.issue_log hclose
  rw [hlog.entries_eq] at hentries
  exact ⟨hentries, by rw [hdocuments, hlog.documents_eq], hwritable⟩

/-- The outcome of relocating a tree into a new recording with the empty path map. -/
def SymbolTree.relocated (tree : SymbolTree) (options : Options) (names : Option Names)
    (failOn : Option Operation) : Outcome Recording Summary :=
  (Emitter.recording options names).relocate tree .empty (Recording.start failOn)

/-- The tree can be relocated with the empty path map, and `log` is what a new recording holds
then. -/
def SymbolTree.Leaves (tree : SymbolTree) (options : Options) (log : List Entry) : Prop :=
  ∃ names failOn summary, (tree.relocated options names failOn).result = .ok summary ∧
    (tree.relocated options names failOn).sink.entries.toList = log

namespace SymbolTree

variable {tree : SymbolTree} {options : Options} {names : Option Names}
  {failOn : Option Operation} {summary : Summary} {log : List Entry}

/-- A relocation leaves the log of the tree, with the end of the sink behind it. -/
theorem entries_relocated (h : (tree.relocated options names failOn).result = .ok summary) :
    (tree.relocated options names failOn).sink.entries.toList = tree.log options ++ [.close] ∧
      ∀ method ∈ tree.methods, method.Writable := by
  obtain ⟨hentries, -, hwritable⟩ := Emitter.recorded_relocate h
  exact ⟨hentries, hwritable⟩

theorem leaves_of_relocated (h : (tree.relocated options names failOn).result = .ok summary) :
    tree.Leaves options (tree.log options ++ [.close]) :=
  ⟨names, failOn, summary, h, (entries_relocated h).1⟩

namespace Leaves

theorem writable (h : tree.Leaves options log) : ∀ method ∈ tree.methods, method.Writable := by
  obtain ⟨names, failOn, summary, hresult, -⟩ := h
  exact (entries_relocated hresult).2

/-- Replaying a log gives the views of the methods. -/
theorem replay_eq (h : tree.Leaves options log) :
    replay log = some (tree.methods.map fun method => (method.view tree).withoutTerminator) := by
  obtain ⟨names, failOn, summary, hresult, rfl⟩ := h
  obtain ⟨hentries, hwritable⟩ := entries_relocated hresult
  rw [hentries, ← replay_log options hwritable, replay, replay, Replay.foldlM_step_append]
  congr 1
  exact Option.bind_fun_some _

end Leaves

end SymbolTree

/-- A view is recovered as a whole exactly if the class holds no NUL character. -/
theorem Method.Writable.withoutTerminator_view {tree : SymbolTree} {method : Method}
    (h : method.Writable) :
    (method.view tree).withoutTerminator = method.view tree ↔
      '\x00' ∉ method.iteratorClass.toList := by
  have hnul : '\x00' ∉ (Metadata.withoutTerminator method.iteratorClass).toList := by
    cases hempty : method.iteratorClass.isEmpty with
    | true =>
      rw [String.isEmpty_iff.1 hempty, Metadata.withoutTerminator_of_notMem (by simp)]
      simp
    | false => exact (h.class_valid hempty).sound
  rw [← Metadata.withoutTerminator_eq_self_iff hnul]
  constructor
  · exact congrArg MethodView.iteratorClass
  · intro hclass
    show { method.view tree with
      iteratorClass := Metadata.withoutTerminator method.iteratorClass } = _
    rw [hclass]
    rfl

/-! ## Replay -/

/-- The view of every method is recovered exactly if no class holds a NUL character. -/
theorem SymbolTree.Leaves.replay_eq_views_iff {tree : SymbolTree} {options : Options}
    {log : List Entry} (h : tree.Leaves options log) :
    replay log = some (tree.methods.map fun method => method.view tree) ↔
      ∀ method ∈ tree.methods, '\x00' ∉ method.iteratorClass.toList := by
  rw [h.replay_eq, Option.some_inj, List.map_inj_left]
  exact forall₂_congr fun method hmem => (h.writable method hmem).withoutTerminator_view

/-- Replay undoes relocation with the empty path map, but for the NUL character at the very end of a
class: everything else that the tree says about its methods comes back, and the classes as well
exactly if they hold no NUL character. Hence another tree with the same log says the same, up to
that character. -/
theorem replay_relocated (tree : SymbolTree) (options : Options) (log : List Entry)
    (h : tree.Leaves options log) :
    replay log = some (tree.methods.map fun method => (method.view tree).withoutTerminator) ∧
      (replay log = some (tree.methods.map fun method => method.view tree) ↔
        ∀ method ∈ tree.methods, '\x00' ∉ method.iteratorClass.toList) ∧
      ∀ (other : SymbolTree) (otherOptions : Options), other.Leaves otherOptions log →
        (tree.methods.map fun method => (method.view tree).withoutTerminator) =
            other.methods.map (fun method => (method.view other).withoutTerminator) ∧
          ((∀ method ∈ tree.methods, '\x00' ∉ method.iteratorClass.toList) →
            (∀ method ∈ other.methods, '\x00' ∉ method.iteratorClass.toList) →
              (tree.methods.map fun method => method.view tree) =
                other.methods.map fun method => method.view other) := by
  refine ⟨h.replay_eq, h.replay_eq_views_iff, ?_⟩
  intro other otherOptions hother
  refine ⟨Option.some_inj.1 (h.replay_eq.symm.trans hother.replay_eq), ?_⟩
  intro hnul hnulOther
  have hviews := h.replay_eq_views_iff.2 hnul
  have hviewsOther := hother.replay_eq_views_iff.2 hnulOther
  exact Option.some_inj.1 (hviews.symm.trans hviewsOther)

/-- A tree with interleaved documents, replayed; and the same tree with a document that nothing
refers to, which leaves the same log. -/
theorem replay_relocated_sharedDocuments :
    let log := sharedDocuments.log .strict ++ [.close]
    let larger := (sharedDocuments.addDocument (.csharp "unused.cs")).2
    sharedDocuments.Leaves .strict log ∧ larger.Leaves .strict log ∧
      replay log = some (sharedDocuments.methods.map
        fun method => method.view sharedDocuments) ∧
      (sharedDocuments.methods.map fun method => method.view sharedDocuments) =
        larger.methods.map fun method => method.view larger := by
  intro log larger
  have hresult : (sharedDocuments.relocated .strict none none).result =
      .ok ⟨2, 0, 2, 4, 3, 2⟩ := by cbv
  have hlarger : ((sharedDocuments.addDocument (.csharp "unused.cs")).2.relocated
      .strict none none).result = .ok ⟨2, 0, 2, 4, 3, 2⟩ := by cbv
  have hnul : ∀ method ∈ sharedDocuments.methods,
      '\x00' ∉ method.iteratorClass.toList := by decide
  have hleaves := SymbolTree.leaves_of_relocated hresult
  have hsame : larger.Leaves .strict log := SymbolTree.leaves_of_relocated hlarger
  obtain ⟨-, hviews, hother⟩ := replay_relocated sharedDocuments .strict log hleaves
  exact ⟨hleaves, hsame, hviews.2 hnul, (hother larger .strict hsame).2 hnul hnul⟩

/-- A program with a single iterator method of a given class. -/
def singleIterator (iteratorClass : String) : SymbolTree where
  documents := []
  entryPoint := none
  methods :=
    [{ token := ⟨0x06000001⟩
       slotToken := ⟨0⟩
       lines := []
       scope := .plain ⟨0, 16⟩
       constants := []
       iteratorClass
       iteratorScopes := [] }]

/-- No way of replaying logs gives all classes back: a class and the same class with a NUL character
behind it leave the same log. -/
theorem no_replay_with_final_nul :
    ¬ ∃ recover : List Entry → Option (List MethodView),
      ∀ (tree : SymbolTree) (options : Options) (log : List Entry), tree.Leaves options log →
        recover log = some (tree.methods.map fun method => method.view tree) := by
  rintro ⟨recover, hrecover⟩
  have hplain : ((singleIterator "X").relocated .strict none none).result =
      .ok ⟨1, 0, 0, 0, 1, 1⟩ := by cbv
  have hnul : ((singleIterator "X\x00").relocated .strict none none).result =
      .ok ⟨1, 0, 0, 0, 1, 1⟩ := by cbv
  have hlog : (singleIterator "X").log .strict = (singleIterator "X\x00").log .strict := by decide
  have hplainRecover := hrecover _ _ _ (SymbolTree.leaves_of_relocated hplain)
  have hnulRecover := hrecover _ _ _ (SymbolTree.leaves_of_relocated hnul)
  -- one log, so one answer, but the classes differ
  rw [hlog, hnulRecover, Option.some_inj] at hplainRecover
  have hclass := congrArg (List.map MethodView.iteratorClass) hplainRecover
  revert hclass
  decide

end DebugSymbols
