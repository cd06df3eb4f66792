import DebugSymbols.Options
import DebugSymbols.Proofs.Metadata.RoundTrip
import DebugSymbols.Proofs.Sink.Batch
import DebugSymbols.Sink.Recording
import DebugSymbols.SymbolTree

/-!
# The log of a tree

The calls that tell a tree to a sink can be read off the tree: a document is defined before the
first method that has points in it, under the next handle, unless its path is known by then; the
points of a method go path by path; scopes go from the outside in. `SymbolTree.log` is this list of
calls. It is stated apart from the emitter, which carries handles, a table of registered documents
and a stack of half-told scopes instead.
-/

namespace DebugSymbols

/-! ## Documents -/

/-- The documents whose path is neither known nor the path of a document before them. -/
def fresh (known : List Document) : List Document → List Document
  | [] => []
  | document :: rest =>
    if document.path ∈ known.map (·.path) then fresh known rest
    else document :: fresh (known ++ [document]) rest

/-- The handle of a path: its place among the paths of all documents defined so far. -/
def handleOf (documents : List Document) (path : String) : DocumentHandle :=
  ⟨(documents.map (·.path)).idxOf path⟩

/-- The calls that define the fresh documents. -/
def definitions (known documents : List Document) : List Entry :=
  (fresh known documents).map fun document =>
    .defineDocument document.path (handleOf (known ++ fresh known documents) document.path)

/-- Points in one document. -/
structure Stretch where
  document : Document
  points : List SequencePoint

namespace Stretch

/-- The path of the document. -/
def path (stretch : Stretch) : String := stretch.document.path

/-- The paths of stretches, each once, in the order in which they first appear. -/
def paths (stretches : List Stretch) : List String :=
  (fresh [] (stretches.map (·.document))).map (·.path)

/-- The points that stretches have in one path, in their order. -/
def pointsIn (stretches : List Stretch) (path : String) : List SequencePoint :=
  (stretches.filter fun stretch => stretch.path = path).flatMap (·.points)

end Stretch

namespace SymbolTree

/-- The line groups that have points, with the documents they refer to. -/
def stretches (tree : SymbolTree) : List LineGroup → List Stretch
  | [] => []
  | group :: rest =>
    if group.isEmpty then tree.stretches rest
    else
      match tree.document? group.document with
      | some document => ⟨document, group.points⟩ :: tree.stretches rest
      | none => tree.stretches rest

/-- The documents in which methods have points, as often as they are used. -/
def usedDocuments (tree : SymbolTree) (methods : List Method) : List Document :=
  methods.flatMap fun method => (tree.stretches method.lines).map (·.document)

end SymbolTree

/-! ## Scopes -/

namespace Variable

/-- The call for a variable that is visible in a range. -/
def entry (signature : Token) (span : Span) (local_ : Variable) : Entry :=
  .defineLocalVariable ⟨local_.name, local_.attributes, signature, .ilOffset, local_.slot,
    span.offset, span.offset + span.length⟩

end Variable

/-- The call for a constant. -/
def Constant.entry (constant : Constant) : Entry :=
  .defineConstant constant.name constant.value constant.token

namespace Scope

mutual

/-- The calls for a scope: its start, its variables, its constants and then `extra` ones, the scopes
within, and its end. -/
def entries (signature : Token) (extra : List Constant) : Scope → List Entry
  | ⟨span, locals, constants, children⟩ =>
    .openScope span.offset ::
      (locals.map (Variable.entry signature span) ++ (constants ++ extra).map Constant.entry ++
        entriesList signature children ++ [.closeScope (span.offset + span.length)])

/-- The calls for scopes one after the other. -/
def entriesList (signature : Token) : List Scope → List Entry
  | [] => []
  | scope :: rest => scope.entries signature [] ++ entriesList signature rest

end

mutual

/-- The ranges of a scope and of all scopes within. -/
def spans : Scope → List Span
  | ⟨span, _, _, children⟩ => span :: spansList children

/-- The ranges of scopes and of all scopes within. -/
def spansList : List Scope → List Span
  | [] => []
  | scope :: rest => scope.spans ++ spansList rest

end

end Scope

/-! ## Methods and trees -/

namespace Method

/-- The call that attaches a blob of one record to a method. -/
def metadata (method : Method) (record : Metadata.Record) : Entry :=
  .setSymbolAttribute method.token "MD2" (Metadata.layout [record])

/-- The calls for the metadata of an iterator: its class if it has one, and its scopes if there are
any. A NUL character at the end of the class is taken for the terminator. -/
def attributes (method : Method) : List Entry :=
  (if method.iteratorClass.isEmpty then []
    else [method.metadata (.iteratorClass (Metadata.withoutTerminator method.iteratorClass))]) ++
  (if method.iteratorScopes.isEmpty then []
    else [method.metadata (.iteratorScopes method.iteratorScopes)])

/-- Whether the log can hold all of a method: its scopes end at 32-bit offsets, and its metadata
has blobs. -/
structure Writable (method : Method) : Prop where
  reach_lt : ∀ span ∈ method.scope.spans, span.reach < UInt32.size
  class_valid : method.iteratorClass.isEmpty = false →
    (Metadata.Record.iteratorClass (Metadata.withoutTerminator method.iteratorClass)).Valid
  scopes_valid : method.iteratorScopes.isEmpty = false →
    (Metadata.Record.iteratorScopes method.iteratorScopes).Valid

/-- The calls for a method with points in the given stretches, once its documents are defined. -/
def entries (documents : List Document) (stretches : List Stretch) (method : Method) :
    List Entry :=
  .openMethod method.token ::
    ((Stretch.paths stretches).map (fun path =>
        .defineSequencePoints (handleOf documents path)
          (.ofPoints (Stretch.pointsIn stretches path))) ++
      method.scope.entries method.slotToken method.constants ++ method.attributes ++
        [.closeMethod])

end Method

namespace SymbolTree

/-- The calls for methods one after the other, if `known` are the documents defined before: each
method comes after the documents that it uses first. -/
def methodEntries (tree : SymbolTree) (known : List Document) : List Method → List Entry
  | [] => []
  | method :: rest =>
    let stretches := tree.stretches method.lines
    let used := stretches.map (·.document)
    let documents := known ++ fresh known used
    definitions known used ++ method.entries documents stretches ++
      tree.methodEntries documents rest

/-- The calls for the entry point, if it is wanted. -/
def entryPointEntries (tree : SymbolTree) (options : Options) : List Entry :=
  match tree.entryPoint with
  | some token => if options.emitEntryPoint then [.setUserEntryPoint token] else []
  | none => []

/-- The calls for a tree. -/
def log (tree : SymbolTree) (options : Options) : List Entry :=
  tree.entryPointEntries options ++ tree.methodEntries [] tree.methods

/-- The documents that are defined for a tree: of all documents that are used, the first one for
each path. -/
def definedDocuments (tree : SymbolTree) : List Document :=
  fresh [] (tree.usedDocuments tree.methods)

end SymbolTree

/-! ## Points -/

theorem Stretch.pointsIn_cons (stretch : Stretch) (stretches : List Stretch) (path : String) :
    pointsIn (stretch :: stretches) path =
      (if stretch.path = path then stretch.points else []) ++ pointsIn stretches path := by
  by_cases h : stretch.path = path <;> simp [pointsIn, h]

/-! ## First uses of paths -/

theorem fresh_append (known front back : List Document) :
    fresh known (front ++ back) =
      fresh known front ++ fresh (known ++ fresh known front) back := by
  induction front generalizing known with
  | nil => simp [fresh]
  | cons document front ih =>
    rw [List.cons_append, fresh, fresh]
    by_cases h : document.path ∈ known.map (·.path)
    · rw [if_pos h, if_pos h, ih]
    · rw [if_neg h, if_neg h, ih, List.cons_append, List.append_assoc, List.singleton_append]

theorem fresh_singleton_of_mem {known : List Document} {document : Document}
    (h : document.path ∈ known.map (·.path)) : fresh known [document] = [] := if_pos h

theorem fresh_singleton_of_notMem {known : List Document} {document : Document}
    (h : document.path ∉ known.map (·.path)) : fresh known [document] = [document] := if_neg h

/-- A path is fresh if it occurs and is not known. -/
theorem mem_map_path_fresh {known documents : List Document} {path : String} :
    path ∈ (fresh known documents).map (·.path) ↔
      path ∈ documents.map (·.path) ∧ path ∉ known.map (·.path) := by
  induction documents generalizing known with
  | nil => simp [fresh]
  | cons document documents ih =>
    rw [fresh]
    by_cases h : document.path ∈ known.map (·.path)
    · rw [if_pos h, ih, List.map_cons, List.mem_cons]
      constructor
      · rintro ⟨hpath, hknown⟩
        exact ⟨Or.inr hpath, hknown⟩
      · rintro ⟨rfl | hpath, hknown⟩
        · exact absurd h hknown
        · exact ⟨hpath, hknown⟩
    · rw [if_neg h, List.map_cons, List.mem_cons, ih, List.map_cons, List.mem_cons,
        List.map_append, List.mem_append, List.map_singleton, List.mem_singleton]
      -- the document itself is the one path that is known from here on
      by_cases heq : path = document.path
      · subst heq
        simp [h]
      · simp [heq]

/-- With the fresh documents every used path is known. -/
theorem mem_map_path_append_fresh {known documents : List Document} {path : String} :
    path ∈ (known ++ fresh known documents).map (·.path) ↔
      path ∈ known.map (·.path) ∨ path ∈ documents.map (·.path) := by
  rw [List.map_append, List.mem_append, mem_map_path_fresh]
  by_cases h : path ∈ known.map (·.path) <;> simp [h]

/-- If every known path was known once, this stays so. -/
theorem nodup_map_path_append_fresh (known documents : List Document)
    (h : (known.map (·.path)).Nodup) :
    ((known ++ fresh known documents).map (·.path)).Nodup := by
  induction documents generalizing known with
  | nil => simpa [fresh] using h
  | cons document documents ih =>
    rw [fresh]
    by_cases hmem : document.path ∈ known.map (·.path)
    · rw [if_pos hmem]
      exact ih known h
    · rw [if_neg hmem, ← List.singleton_append, ← List.append_assoc]
      refine ih _ ?_
      rw [List.map_append, List.nodup_append]
      refine ⟨h, by simp, ?_⟩
      rintro path hpath _ hlast rfl
      rw [List.map_singleton, List.mem_singleton] at hlast
      exact hmem (hlast ▸ hpath)

/-! ## Handles -/

/-- A path that is known keeps its handle. -/
theorem handleOf_append {documents : List Document} {path : String}
    (h : path ∈ documents.map (·.path)) (more : List Document) :
    handleOf (documents ++ more) path = handleOf documents path := by
  rw [handleOf, handleOf, List.map_append, List.idxOf_append, if_pos h]

/-- A new path gets the next handle. -/
theorem handleOf_append_singleton {documents : List Document} {document : Document}
    (h : document.path ∉ documents.map (·.path)) :
    handleOf (documents ++ [document]) document.path = ⟨documents.length⟩ := by
  rw [handleOf, List.map_append, List.idxOf_append, if_neg h, List.map_singleton,
    List.idxOf_cons_self, List.length_map, Nat.zero_add]

/-- The handle of a known path is the place of a document with this path. -/
theorem getElem?_handleOf {documents : List Document} {path : String}
    (h : path ∈ documents.map (·.path)) :
    (documents.map (·.path))[(handleOf documents path).index]? = some path := by
  have hlt := List.idxOf_lt_length_of_mem h
  rw [handleOf, List.getElem?_eq_getElem hlt, List.getElem_idxOf hlt]

/-- Different known paths have different handles. -/
theorem handleOf_inj {documents : List Document} {path other : String}
    (h : path ∈ documents.map (·.path)) (hother : other ∈ documents.map (·.path))
    (heq : handleOf documents path = handleOf documents other) : path = other := by
  have hpath := getElem?_handleOf h
  rw [heq, getElem?_handleOf hother] at hpath
  exact (Option.some.inj hpath).symm

/-- To define documents is to define the first ones and then the others. -/
theorem definitions_append (known front back : List Document) :
    definitions known (front ++ back) =
      definitions known front ++ definitions (known ++ fresh known front) back := by
  rw [definitions, definitions, definitions, fresh_append, List.map_append,
    ← List.append_assoc]
  congr 1
  refine List.map_congr_left fun document hmem => ?_
  -- documents that come later do not change a handle
  rw [handleOf_append]
  exact List.mem_map_of_mem (List.mem_append_right _ hmem)

end DebugSymbols
