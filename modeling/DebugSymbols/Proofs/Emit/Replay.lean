import DebugSymbols.Metadata.Decode
import DebugSymbols.Proofs.Emit.Serialization

/-!
# Replaying a log

A log is replayed call by call: a method is open until it is closed, and so are the scopes within
it. A scope that is closed goes to the scope around it, so the nesting of the calls gives the tree
back. The log of a tree is replayed to what the tree says about its methods.
-/

namespace DebugSymbols

/-- What a log says about a method. -/
structure MethodView where
  token : Token
  scope : Scope
  /-- The points of each path. -/
  lines : List (String × List SequencePoint)
  iteratorClass : String
  iteratorScopes : List Span

/-- The scope with further constants behind its own. -/
def Scope.addConstants (extra : List Constant) (scope : Scope) : Scope :=
  { scope with constants := scope.constants ++ extra }

theorem Scope.addConstants_nil (scope : Scope) : scope.addConstants [] = scope := by
  obtain ⟨span, locals, constants, children⟩ := scope
  rw [addConstants, List.append_nil]

/-- The points of all line groups whose document has a path, in their order. -/
def SymbolTree.pointsAt (tree : SymbolTree) (lines : List LineGroup) (path : String) :
    List SequencePoint :=
  (lines.filter fun group => (tree.document? group.document).map (·.path) = some path).flatMap
    (·.points)

/-- What a tree says about a method. The constants of the method follow those of its outermost
scope. -/
def Method.view (tree : SymbolTree) (method : Method) : MethodView where
  token := method.token
  scope := method.scope.addConstants method.constants
  lines := (Stretch.paths (tree.stretches method.lines)).map fun path =>
    (path, tree.pointsAt method.lines path)
  iteratorClass := method.iteratorClass
  iteratorScopes := method.iteratorScopes

/-- The view of a method whose class has lost the NUL character at its very end. -/
def MethodView.withoutTerminator (view : MethodView) : MethodView :=
  { view with iteratorClass := Metadata.withoutTerminator view.iteratorClass }

/-- What has been told of a scope that is still open. -/
structure OpenScope where
  start : UInt32
  locals : List Variable
  constants : List Constant
  children : List Scope

/-- The scope, once its end is told. -/
def OpenScope.close (stop : UInt32) (scope : OpenScope) : Scope :=
  ⟨⟨scope.start, stop - scope.start⟩, scope.locals, scope.constants, scope.children⟩

/-- What has been told of a method that is still open. -/
structure OpenMethod where
  token : Token
  lines : List (String × List SequencePoint)
  /-- The open scopes, the innermost first. -/
  scopes : List OpenScope
  /-- The outermost scope, once it is closed. -/
  root : Option Scope
  iteratorClass : String
  iteratorScopes : List Span

namespace OpenMethod

/-- A method of which only the token has been told. -/
def start (token : Token) : OpenMethod := ⟨token, [], [], none, "", []⟩

/-- Puts a closed scope into the scope around it. -/
def place (scope : Scope) (method : OpenMethod) : OpenMethod :=
  match method.scopes with
  | parent :: outer =>
    { method with scopes := { parent with children := parent.children ++ [scope] } :: outer }
  | [] => { method with root := some scope }

/-- Changes the innermost open scope. -/
def inScope (change : OpenScope → OpenScope) (method : OpenMethod) : Option OpenMethod :=
  match method.scopes with
  | innermost :: outer => some { method with scopes := change innermost :: outer }
  | [] => none

/-- Takes over a record of metadata. -/
def attach (method : OpenMethod) : Metadata.Record → Option OpenMethod
  | .iteratorClass name => some { method with iteratorClass := name }
  | .iteratorScopes scopes => some { method with iteratorScopes := scopes }
  | .unknown _ _ => none

/-- Replays a call within a method; `paths` are the paths of the documents defined so far. -/
def step (paths : List String) (method : OpenMethod) : Entry → Option OpenMethod
  | .defineSequencePoints handle batch =>
    paths[handle.index]?.map fun path =>
      { method with lines := method.lines ++ [(path, batch.points)] }
  | .openScope start => some { method with scopes := ⟨start, [], [], []⟩ :: method.scopes }
  | .closeScope stop =>
    match method.scopes with
    | innermost :: outer => some (place (innermost.close stop) { method with scopes := outer })
    | [] => none
  | .defineLocalVariable local_ =>
    method.inScope fun scope =>
      { scope with locals := scope.locals ++ [⟨local_.name, local_.slot, local_.attributes⟩] }
  | .defineConstant name value signature =>
    method.inScope fun scope =>
      { scope with constants := scope.constants ++ [⟨name, value, signature⟩] }
  | .setSymbolAttribute _ name data =>
    if name = "MD2" then
      match Metadata.decode data with
      | .ok [record] => method.attach record
      | _ => none
    else none
  | _ => none

/-- Replays calls within a method. -/
def run (paths : List String) (method : OpenMethod) (log : List Entry) : Option OpenMethod :=
  log.foldlM (step paths) method

/-- What has been told of a method, if its tree of scopes is complete. -/
def view (method : OpenMethod) : Option MethodView :=
  method.root.map fun scope =>
    ⟨method.token, scope, method.lines, method.iteratorClass, method.iteratorScopes⟩

end OpenMethod

/-- A log in the course of being replayed. -/
structure Replay where
  /-- The paths of the documents, by handle. -/
  paths : List String
  methods : List MethodView
  openMethod : Option OpenMethod

namespace Replay

/-- Replays a call. -/
def step (replay : Replay) : Entry → Option Replay
  | .defineDocument path handle =>
    if handle.index = replay.paths.length then some { replay with paths := replay.paths ++ [path] }
    else none
  | .setUserEntryPoint _ => some replay
  | .openMethod token => some { replay with openMethod := some (.start token) }
  | .closeMethod =>
    (replay.openMethod.bind OpenMethod.view).map fun view =>
      { replay with methods := replay.methods ++ [view], openMethod := none }
  | .close => some replay
  | .aborted => none
  | entry =>
    (replay.openMethod.bind fun method => method.step replay.paths entry).map fun method =>
      { replay with openMethod := some method }

end Replay

/-- What a log says about methods, one after the other. -/
def replay (log : List Entry) : Option (List MethodView) :=
  (log.foldlM Replay.step ⟨[], [], none⟩).map (·.methods)

/-! ## Points -/

theorem SymbolTree.pointsAt_cons (tree : SymbolTree) (group : LineGroup) (lines : List LineGroup)
    (path : String) :
    tree.pointsAt (group :: lines) path =
      (if (tree.document? group.document).map (·.path) = some path then group.points else []) ++
        tree.pointsAt lines path := by
  by_cases h : (tree.document? group.document).map (·.path) = some path
  · rw [pointsAt, List.filter_cons_of_pos (by simpa using h), if_pos h]
    rfl
  · rw [pointsAt, List.filter_cons_of_neg (by simpa using h), if_neg h]
    rfl

/-- Line groups without points or without a document have no points in any path. -/
theorem SymbolTree.pointsIn_stretches (tree : SymbolTree) (lines : List LineGroup)
    (path : String) :
    Stretch.pointsIn (tree.stretches lines) path = tree.pointsAt lines path := by
  induction lines with
  | nil => rfl
  | cons group lines ih =>
    rw [stretches, pointsAt_cons]
    by_cases hempty : group.isEmpty = true
    · have hpoints : group.points = [] := List.isEmpty_iff.1 hempty
      rw [if_pos hempty, ih, hpoints, ite_self, List.nil_append]
    · rw [if_neg hempty]
      cases tree.document? group.document with
      | none =>
        rw [if_neg (by simp), List.nil_append]
        exact ih
      | some document =>
        dsimp only
        rw [Stretch.pointsIn_cons, ih]
        by_cases hpath : document.path = path <;> simp [Stretch.path, hpath]

/-! ## Calls within a method -/

namespace OpenMethod

variable {paths : List String}

@[simp] theorem run_nil (method : OpenMethod) : run paths method [] = some method := rfl

@[simp] theorem run_cons (method : OpenMethod) (entry : Entry) (log : List Entry) :
    run paths method (entry :: log) = (method.step paths entry).bind fun next =>
      next.run paths log := rfl

theorem run_append (method : OpenMethod) (front back : List Entry) :
    run paths method (front ++ back) = (run paths method front).bind fun next =>
      next.run paths back := List.foldlM_append

theorem place_cons (scope : Scope) (method : OpenMethod) (parent : OpenScope)
    (outer : List OpenScope) :
    place scope { method with scopes := parent :: outer } =
      { method with
        scopes := { parent with children := parent.children ++ [scope] } :: outer } := rfl

/-- Variables go to the innermost open scope. -/
theorem run_locals (signature : Token) (span : Span) (locals : List Variable) (method : OpenMethod)
    (scope : OpenScope) (outer : List OpenScope) :
    run paths { method with scopes := scope :: outer }
        (locals.map (Variable.entry signature span)) =
      some { method with
        scopes := { scope with locals := scope.locals ++ locals } :: outer } := by
  induction locals generalizing scope with
  | nil => rw [List.map_nil, run_nil, List.append_nil]
  | cons local_ locals ih =>
    have hstep := ih { scope with locals := scope.locals ++ [local_] }
    rw [List.append_assoc, List.singleton_append] at hstep
    exact hstep

/-- Constants go to the innermost open scope. -/
theorem run_constants (constants : List Constant) (method : OpenMethod) (scope : OpenScope)
    (outer : List OpenScope) :
    run paths { method with scopes := scope :: outer } (constants.map Constant.entry) =
      some { method with
        scopes := { scope with constants := scope.constants ++ constants } :: outer } := by
  induction constants generalizing scope with
  | nil => rw [List.map_nil, run_nil, List.append_nil]
  | cons constant constants ih =>
    have hstep := ih { scope with constants := scope.constants ++ [constant] }
    rw [List.append_assoc, List.singleton_append] at hstep
    exact hstep

mutual

/-- The calls for a scope give the scope back, which goes to the scope around it. -/
theorem run_entries (signature : Token) (extra : List Constant) :
    ∀ (scope : Scope) (method : OpenMethod),
      run paths method (scope.entries signature extra) =
        some (method.place (scope.addConstants extra))
  | ⟨span, locals, constants, children⟩, method => by
    rw [Scope.entries, run_cons, step, Option.bind_some, run_append, run_append, run_append,
      run_locals, Option.bind_some, run_constants, Option.bind_some, run_entriesList,
      Option.bind_some, run_cons, step]
    -- the length is what the end is beyond the start
    simp only [OpenScope.close, Span.offset_add_length_sub_offset, run_nil, Option.bind_some,
      List.nil_append, Scope.addConstants]

/-- The calls for scopes put them into the innermost open scope. -/
theorem run_entriesList (signature : Token) :
    ∀ (scopes : List Scope) (method : OpenMethod) (scope : OpenScope) (outer : List OpenScope),
      run paths { method with scopes := scope :: outer } (Scope.entriesList signature scopes) =
        some { method with
          scopes := { scope with children := scope.children ++ scopes } :: outer }
  | [], method, scope, outer => by
    rw [Scope.entriesList, run_nil, List.append_nil]
  | child :: scopes, method, scope, outer => by
    rw [Scope.entriesList, run_append, run_entries, Option.bind_some, Scope.addConstants_nil,
      place_cons]
    have hrest := run_entriesList signature scopes method
      { scope with children := scope.children ++ [child] } outer
    rw [List.append_assoc, List.singleton_append] at hrest
    exact hrest

end

/-- The batches of paths give their points back. -/
theorem run_lines {documents : List Document} {used : List String}
    (points : String → List SequencePoint) (hused : ∀ path ∈ used, path ∈ documents.map (·.path))
    (method : OpenMethod) :
    run (documents.map (·.path)) method (used.map fun path =>
        .defineSequencePoints (handleOf documents path) (.ofPoints (points path))) =
      some { method with lines := method.lines ++ used.map fun path => (path, points path) } := by
  induction used generalizing method with
  | nil => rw [List.map_nil, run_nil, List.map_nil, List.append_nil]
  | cons path used ih =>
    rw [List.forall_mem_cons] at hused
    rw [List.map_cons, run_cons, step, getElem?_handleOf hused.1, Option.map_some,
      Option.bind_some, Batch.points_ofPoints, ih hused.2, List.append_assoc, List.map_cons,
      List.singleton_append]

/-- The blob of a valid record gives the record back. -/
theorem run_metadata {method : Method} {record : Metadata.Record} (hvalid : record.Valid)
    (current : OpenMethod) :
    run paths current [method.metadata record] = current.attach record := by
  rw [Method.metadata, run_cons, step, if_pos rfl, Metadata.decode_layout_singleton hvalid]
  exact Option.bind_fun_some _

/-- The metadata of a method gives its class and its iterator scopes back. -/
theorem run_attributes {method : Method} (hwritable : method.Writable) (current : OpenMethod)
    (hclass : current.iteratorClass = "") (hscopes : current.iteratorScopes = []) :
    run paths current method.attributes = some { current with
      iteratorClass := Metadata.withoutTerminator method.iteratorClass
      iteratorScopes := method.iteratorScopes } := by
  have hclassRun : run paths current (if method.iteratorClass.isEmpty then [] else
      [method.metadata (.iteratorClass (Metadata.withoutTerminator method.iteratorClass))]) =
        some { current with
          iteratorClass := Metadata.withoutTerminator method.iteratorClass } := by
    cases hempty : method.iteratorClass.isEmpty with
    | true =>
      rw [String.isEmpty_iff.1 hempty, if_pos rfl, run_nil,
        Metadata.withoutTerminator_of_notMem (by simp), ← hclass]
    | false =>
      rw [if_neg (by simp), run_metadata (hwritable.class_valid hempty)]
      rfl
  rw [Method.attributes, run_append, hclassRun, Option.bind_some]
  cases hempty : method.iteratorScopes.isEmpty with
  | true =>
    rw [List.isEmpty_iff.1 hempty, if_pos rfl, run_nil, ← hscopes]
  | false =>
    rw [if_neg (by simp), run_metadata (hwritable.scopes_valid hempty)]
    rfl

end OpenMethod

/-! ## Calls of a whole log -/

namespace Replay

variable {paths : List String} {views : List MethodView}

theorem foldlM_step_append (replay : Replay) (front back : List Entry) :
    (front ++ back).foldlM step replay =
      (front.foldlM step replay).bind fun next => back.foldlM step next :=
  List.foldlM_append

/-- Calls within a method concern the open method only. -/
theorem foldlM_step_of_run {log : List Entry} {method last : OpenMethod}
    (h : method.run paths log = some last) :
    log.foldlM step ⟨paths, views, some method⟩ = some ⟨paths, views, some last⟩ := by
  induction log generalizing method with
  | nil =>
    cases h
    rfl
  | cons entry log ih =>
    rw [OpenMethod.run_cons] at h
    obtain ⟨next, hnext, h⟩ := Option.bind_eq_some_iff.1 h
    have hstep : step ⟨paths, views, some method⟩ entry =
        ((some method).bind fun method => method.step paths entry).map fun method =>
          ⟨paths, views, some method⟩ := by
      -- every other call is refused within a method
      cases entry <;> first | rfl | cases hnext
    rw [List.foldlM_cons, hstep, Option.bind_some, hnext]
    exact ih h

/-- Definitions of documents are remembered. -/
theorem foldlM_step_definitions (known documents : List Document) :
    (definitions known documents).foldlM step ⟨known.map (·.path), views, none⟩ =
      some ⟨(known ++ fresh known documents).map (·.path), views, none⟩ := by
  induction documents generalizing known with
  | nil =>
    rw [definitions, fresh, List.append_nil]
    rfl
  | cons document documents ih =>
    rw [← List.singleton_append, definitions_append, fresh_append, foldlM_step_append,
      ← List.append_assoc, ← ih]
    have hfirst : (definitions known [document]).foldlM step ⟨known.map (·.path), views, none⟩ =
        some ⟨(known ++ fresh known [document]).map (·.path), views, none⟩ := by
      by_cases hmem : document.path ∈ known.map (·.path)
      · rw [definitions, fresh_singleton_of_mem hmem, List.append_nil]
        rfl
      · rw [definitions, fresh_singleton_of_notMem hmem, List.map_singleton,
          handleOf_append_singleton hmem, List.foldlM_cons, step,
          if_pos (List.length_map _).symm, List.map_append]
        rfl
    rw [hfirst, Option.bind_some]

/-- The calls for a method give its view. -/
theorem foldlM_step_entries {tree : SymbolTree} {method : Method} {documents : List Document}
    (hwritable : method.Writable)
    (hused : ∀ path ∈ Stretch.paths (tree.stretches method.lines),
      path ∈ documents.map (·.path)) :
    (method.entries documents (tree.stretches method.lines)).foldlM step
        ⟨documents.map (·.path), views, none⟩ =
      some ⟨documents.map (·.path), views ++ [(method.view tree).withoutTerminator], none⟩ := by
  have hrun : (OpenMethod.start method.token).run (documents.map (·.path))
      ((Stretch.paths (tree.stretches method.lines)).map (fun path =>
          .defineSequencePoints (handleOf documents path)
            (.ofPoints (Stretch.pointsIn (tree.stretches method.lines) path))) ++
        method.scope.entries method.slotToken method.constants ++ method.attributes) =
      some { OpenMethod.start method.token with
        lines := (method.view tree).lines
        root := some (method.scope.addConstants method.constants)
        iteratorClass := Metadata.withoutTerminator method.iteratorClass
        iteratorScopes := method.iteratorScopes } := by
    simp only [SymbolTree.pointsIn_stretches]
    rw [OpenMethod.run_append, OpenMethod.run_append, OpenMethod.run_lines _ hused,
      Option.bind_some, OpenMethod.run_entries, Option.bind_some,
      OpenMethod.run_attributes hwritable _ rfl rfl]
    rfl
  -- the calls between the first and the last one are replayed within the method
  rw [Method.entries, List.foldlM_cons]
  show (_ ++ [Entry.closeMethod]).foldlM step
    ⟨documents.map (·.path), views, some (.start method.token)⟩ = _
  rw [foldlM_step_append, foldlM_step_of_run hrun]
  rfl

/-- The calls for methods give their views. -/
theorem foldlM_step_methodEntries {tree : SymbolTree} {methods : List Method}
    (known : List Document) (hwritable : ∀ method ∈ methods, method.Writable) :
    ((tree.methodEntries known methods).foldlM step ⟨known.map (·.path), views, none⟩).map
        (·.methods) =
      some (views ++ methods.map fun method => (method.view tree).withoutTerminator) := by
  induction methods generalizing known views with
  | nil =>
    rw [List.map_nil, List.append_nil]
    rfl
  | cons method methods ih =>
    rw [List.forall_mem_cons] at hwritable
    have hused : ∀ path ∈ Stretch.paths (tree.stretches method.lines),
        path ∈ (known ++ fresh known ((tree.stretches method.lines).map (·.document))).map
          (·.path) := by
      intro path hpath
      exact mem_map_path_append_fresh.2 (Or.inr (mem_map_path_fresh.1 hpath).1)
    rw [SymbolTree.methodEntries, foldlM_step_append, foldlM_step_append,
      foldlM_step_definitions, Option.bind_some, foldlM_step_entries hwritable.1 hused,
      Option.bind_some, ih _ hwritable.2, List.append_assoc, List.map_cons, List.singleton_append]

end Replay

/-- The log of a tree that can be written is replayed to what the tree says about its methods. -/
theorem replay_log {tree : SymbolTree} (options : Options)
    (hwritable : ∀ method ∈ tree.methods, method.Writable) :
    replay (tree.log options) =
      some (tree.methods.map fun method => (method.view tree).withoutTerminator) := by
  have hentry : (tree.entryPointEntries options).foldlM Replay.step ⟨[], [], none⟩ =
      some ⟨[], [], none⟩ := by
    rw [SymbolTree.entryPointEntries]
    split
    · split <;> rfl
    · rfl
  rw [replay, SymbolTree.log, Replay.foldlM_step_append, hentry, Option.bind_some]
  exact Replay.foldlM_step_methodEntries [] hwritable

end DebugSymbols
