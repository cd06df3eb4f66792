import DebugSymbols.Proofs.Emit.Dialogue
import DebugSymbols.Proofs.Emit.Log

/-!
# What an emission has recorded where it broke off

An emission may break off anywhere: the tree is at fault, or the sink refuses a call. What it has
told by then is an initial part of what it would have told. The first documents of a method are
defined, and the others are not; if all of them are, then the first calls of the method are made,
and the others are not.
-/

namespace DebugSymbols

/-! ## Scripts -/

namespace Step

/-- The calls of the steps before the first fault. -/
def told : List Step → List Entry
  | [] => []
  | .tell _ :: rest => told rest
  | .issue command :: rest => command.entry :: told rest
  | .fail _ :: _ => []

theorem told_map_append {α : Type} (items : List α) (command : α → Command) (rest : List Step) :
    told (items.map (fun item => .issue (command item)) ++ rest) =
      items.map (fun item => (command item).entry) ++ told rest := by
  induction items with
  | nil => rfl
  | cons item items ih => exact congrArg (_ :: ·) ih

end Step

namespace Scope

mutual

/-- Before its first fault a script tells an initial part of the calls of the scope. -/
theorem told_scriptThen (context : ScopeContext) (extra : List Constant) (depth : Nat) :
    ∀ (scope : Scope) (next : List Step),
      Step.told (scope.scriptThen context extra depth next) <+:
        scope.entries context.signature extra ++ Step.told next
  | ⟨span, locals, constants, children⟩, next => by
    rw [scriptThen]
    split
    · exact List.nil_prefix
    · split
      · exact List.nil_prefix
      · rename_i stop hstop
        obtain ⟨-, rfl⟩ := Span.stop_eq_ok_iff.1 hstop
        have hlocals := Step.told_map_append locals fun local_ => .defineLocalVariable
          ⟨local_.name, local_.attributes, context.signature, .ilOffset, local_.slot,
            span.offset, span.offset + span.length⟩
        have hconstants := Step.told_map_append (constants ++ extra) fun constant =>
          .defineConstant constant.name constant.value constant.token
        have hchildren := told_scriptsThen context (depth + 1) children
          (.issue (.closeScope (span.offset + span.length)) :: next)
        rw [entries, List.cons_append, List.append_assoc, List.append_assoc, List.append_assoc]
        refine List.cons_prefix_cons.2 ⟨rfl, ?_⟩
        refine (hlocals _).symm ▸ (List.prefix_append_right_inj _).2 ?_
        exact (hconstants _).symm ▸ (List.prefix_append_right_inj _).2 hchildren

/-- Before their first fault scripts tell an initial part of the calls of the scopes. -/
theorem told_scriptsThen (context : ScopeContext) (depth : Nat) :
    ∀ (scopes : List Scope) (next : List Step),
      Step.told (scriptsThen context depth scopes next) <+:
        entriesList context.signature scopes ++ Step.told next
  | [], next => by
    rw [scriptsThen, entriesList, List.nil_append]
  | scope :: scopes, next => by
    have hscopes := told_scriptsThen context depth scopes next
    rw [scriptsThen, entriesList, List.append_assoc]
    exact (told_scriptThen context [] depth scope _).trans
      ((List.prefix_append_right_inj _).2 hscopes)

end

end Scope

/-- Before its first fault the script of a method tells an initial part of the calls of the
method. -/
theorem Method.told_script {method : Method} {limit : Nat} {documents : List Document}
    {stretches : List Stretch} {blobs : List (List UInt8)} (hblobs : method.blobs = .ok blobs) :
    Step.told (method.script limit (Stretch.batches (handleOf documents) stretches) blobs) <+:
      method.entries documents stretches := by
  obtain ⟨hmetadata, -, -⟩ := attributes_of_blobs hblobs
  have hlines := Step.told_map_append (Stretch.paths stretches) fun path =>
    .defineSequencePoints (handleOf documents path) (.ofPoints (Stretch.pointsIn stretches path))
  have hattributes := Step.told_map_append blobs fun blob =>
    .setSymbolAttribute method.token Metadata.attributeName blob
  have hscope := Scope.told_scriptThen ⟨method.token, method.slotToken, limit⟩ method.constants 1
    method.scope (blobs.map (fun blob =>
      .issue (.setSymbolAttribute method.token Metadata.attributeName blob)) ++
        [.issue .closeMethod])
  rw [hattributes] at hscope
  rw [script_batches, entries, List.append_assoc, List.append_assoc, ← hmetadata]
  refine List.cons_prefix_cons.2 ⟨rfl, ?_⟩
  exact (hlines _).symm ▸ (List.prefix_append_right_inj _).2 hscope

theorem Emitter.told_entryScript (options : Options) (names : Option Names) (tree : SymbolTree) :
    Step.told ((Emitter.recording options names).entryScript tree) =
      tree.entryPointEntries options := by
  rw [entryScript, SymbolTree.entryPointEntries]
  cases tree.entryPoint with
  | none => rfl
  | some token =>
    show Step.told (if options.emitEntryPoint then _ else _) = _
    split <;> rfl

/-- A method of a tree that has been told in part, with the documents `known` before it: the
documents `used`, and the calls `told` behind the definitions of these. -/
structure Method.PartlyTold (tree : SymbolTree) (method : Method) (known used : List Document)
    (told : List Entry) : Prop where
  used_initial : used <+: (tree.stretches method.lines).map (·.document)
  told_initial : told <+:
    method.entries (known ++ fresh known used) (tree.stretches method.lines)
  /-- There are calls only behind the definitions of all documents. -/
  used_eq : told ≠ [] → used = (tree.stretches method.lines).map (·.document)

theorem Method.PartlyTold.of_definitions {tree : SymbolTree} {method : Method}
    {known used : List Document} (h : used <+: (tree.stretches method.lines).map (·.document)) :
    method.PartlyTold tree known used [] :=
  ⟨h, List.nil_prefix, fun hne => absurd rfl hne⟩

/-! ## Emissions -/

namespace Emission.Recorded

variable {emission : Emission Recording} {log : List Entry} {known : List Document}

/-- An emission that did nothing has told an initial part of anything. -/
theorem exists_told (h : emission.Recorded log known) (calls : List Entry) :
    ∃ told, told <+: calls ∧ emission.Recorded (log ++ told) known := by
  refine ⟨[], List.nil_prefix, ?_⟩
  rwa [List.append_nil]

/-- An emission that did nothing has defined the first ones of any documents. -/
theorem exists_definitions (h : emission.Recorded log known) (documents : List Document) :
    ∃ used, used <+: documents ∧
      emission.Recorded (log ++ definitions known used) (known ++ fresh known used) := by
  refine ⟨[], List.nil_prefix, ?_⟩
  rw [definitions, fresh, List.map_nil, List.append_nil, List.append_nil]
  exact h

end Emission.Recorded

namespace Emitter

variable {options : Options} {names : Option Names} {tree : SymbolTree}
  {emission last : Emission Recording} {log : List Entry} {known : List Document}
  {error : SymbolError}

/-- A call that fails leaves what was recorded. -/
theorem recorded_attempt_error {α : Type} {operation : Operation} {entry : α → Entry}
    {step : Recording → Except Refusal (α × Recording)}
    (h : (onSink (Recording.attempt operation entry step)).outcome emission = (.error error, last))
    (hrecorded : emission.Recorded log known) : last.Recorded log known := by
  obtain ⟨sink, hsink, rfl⟩ := onSink_eq_iff.1 h
  obtain ⟨-, hentries, hdocuments⟩ := Recording.attempt_error_log hsink
  refine ⟨?_, ?_, hrecorded.handle?_eq⟩
  · rw [hentries, hrecorded.entries_eq]
  · rw [hdocuments, hrecorded.documents_eq]

/-- A document that cannot be registered leaves what was recorded. -/
theorem recorded_register_error {document : Document}
    (h : ((Emitter.recording options names).register document).outcome emission =
      (.error error, last))
    (hrecorded : emission.Recorded log known) : last.Recorded log known := by
  cases hregistered : emission.registered.get? document.path with
  | some registration =>
    -- a path that is known asks nothing of the sink
    rw [outcome_register_of_known _ hregistered] at h
    split at h <;> cases h
  | none =>
    rw [outcome_register_of_new _ hregistered, define] at h
    rcases Attempt.outcome_bind_eq_error_iff.1 h with hsink | ⟨_, _, -, hrest⟩
    · exact recorded_attempt_error hsink hrecorded
    · cases hrest

/-- Line groups that cannot all be gathered have defined the documents of the first ones. -/
theorem recorded_gatherLines_error {method : Token} {lines : List LineGroup}
    {batches : List (DocumentHandle × Batch)}
    (h : ((Emitter.recording options names).gatherLines tree method lines batches).outcome
      emission = (.error error, last))
    (hrecorded : emission.Recorded log known) :
    ∃ used, used <+: (tree.stretches lines).map (·.document) ∧
      last.Recorded (log ++ definitions known used) (known ++ fresh known used) := by
  induction lines generalizing batches emission log known with
  | nil => cases h
  | cons group lines ih =>
    rw [gatherLines] at h
    rw [SymbolTree.stretches]
    by_cases hempty : group.isEmpty = true
    · rw [if_pos hempty] at h ⊢
      exact ih h hrecorded
    · rw [if_neg hempty] at h ⊢
      rcases Attempt.outcome_lift_bind_eq_error_iff.1 h with ⟨-, rfl⟩ | ⟨document, hdocument, h⟩
      · exact hrecorded.exists_definitions _
      · rw [document?_of_documentOf hdocument]
        rcases Attempt.outcome_bind_eq_error_iff.1 h with hregister | ⟨handle, middle, hregister, h⟩
        · exact (recorded_register_error hregister hrecorded).exists_definitions _
        · obtain ⟨-, hmiddle⟩ := recorded_register hregister hrecorded
          obtain ⟨used, hused, hlast⟩ := ih h hmiddle
          rw [List.append_assoc, List.append_assoc, ← definitions_append, ← fresh_append] at hlast
          exact ⟨document :: used, List.cons_prefix_cons.2 ⟨rfl, hused⟩, hlast⟩

/-- A command that fails leaves what was recorded. -/
theorem recorded_issue_error {command : Command}
    (h : ((Emitter.recording options names).issue command).outcome emission = (.error error, last))
    (hrecorded : emission.Recorded log known) : last.Recorded log known := by
  rcases Attempt.outcome_bind_eq_error_iff.1 h with hsink | ⟨_, _, -, hcount⟩
  · exact recorded_attempt_error hsink hrecorded
  · cases hcount

/-- A script that is carried out as far as it goes tells an initial part of what it tells before its
first fault. -/
theorem recorded_perform_told {steps : List Step} {result : Except SymbolError Unit}
    (h : ((Emitter.recording options names).perform steps).outcome emission = (result, last))
    (hrecorded : emission.Recorded log known) :
    ∃ told, told <+: Step.told steps ∧ last.Recorded (log ++ told) known := by
  induction steps generalizing emission log with
  | nil =>
    cases h
    exact hrecorded.exists_told _
  | cons step steps ih =>
    cases step with
    | tell notice =>
      have htell : (tell notice : Attempt (Emission Recording) Unit).outcome emission =
        (.ok (), { emission with notices := emission.notices.push notice }) := rfl
      rw [perform, Attempt.outcome_bind, htell] at h
      exact ih h (recorded_tell htell hrecorded)
    | issue command =>
      rw [perform, Attempt.outcome_bind] at h
      rcases hissue : ((Emitter.recording options names).issue command).outcome emission with
        ⟨error | _, middle⟩
      · rw [hissue] at h
        cases h
        exact (recorded_issue_error hissue hrecorded).exists_told _
      · rw [hissue] at h
        obtain ⟨told, htold, hlast⟩ := ih h (recorded_issue hissue hrecorded)
        rw [List.append_assoc] at hlast
        exact ⟨command.entry :: told, List.cons_prefix_cons.2 ⟨rfl, htold⟩, hlast⟩
    | fail error =>
      cases h
      exact hrecorded.exists_told _

/-- Whatever becomes of a method, it is told in part. -/
theorem recorded_emitMethod_partly {method : Method} {result : Except SymbolError Unit}
    (h : ((Emitter.recording options names).emitMethod tree method).outcome emission =
      (result, last))
    (hrecorded : emission.Recorded log known) :
    ∃ used told, method.PartlyTold tree known used told ∧
      last.Recorded (log ++ definitions known used ++ told) (known ++ fresh known used) := by
  have hbefore : ∀ {used : List Document},
      used <+: (tree.stretches method.lines).map (·.document) →
        last.Recorded (log ++ definitions known used) (known ++ fresh known used) →
          ∃ used told, method.PartlyTold tree known used told ∧
            last.Recorded (log ++ definitions known used ++ told) (known ++ fresh known used) := by
    intro used hused hlast
    exact ⟨used, [], .of_definitions hused, by rwa [List.append_nil]⟩
  cases result with
  | ok _ =>
    obtain ⟨hlast, -⟩ := recorded_emitMethod h hrecorded
    exact ⟨_, _, ⟨List.prefix_rfl, List.prefix_rfl, fun _ => rfl⟩, hlast⟩
  | error error =>
    rcases Attempt.outcome_lift_bind_eq_error_iff.1 h with ⟨-, rfl⟩ | ⟨_, -, h⟩
    · obtain ⟨used, hused, hlast⟩ := hrecorded.exists_definitions _
      exact hbefore hused hlast
    rcases Attempt.outcome_bind_eq_error_iff.1 h with hgather | ⟨batches, gathered, hgather, h⟩
    · obtain ⟨used, hused, hlast⟩ := recorded_gatherLines_error hgather hrecorded
      exact hbefore hused hlast
    obtain ⟨rfl, hgathered⟩ := recorded_gatherLines_batches hgather hrecorded
    rcases Attempt.outcome_lift_bind_eq_error_iff.1 h with ⟨-, rfl⟩ | ⟨blobs, hblobs, h⟩
    · exact hbefore List.prefix_rfl hgathered
    rcases Attempt.outcome_bind_eq_error_iff.1 h with htell | ⟨_, _, htell, h⟩
    · cases htell
    obtain ⟨told, htold, hlast⟩ := recorded_perform_told h (recorded_tell htell hgathered)
    exact ⟨_, told, ⟨List.prefix_rfl, htold.trans (Method.told_script hblobs), fun _ => rfl⟩, hlast⟩

end Emitter

end DebugSymbols
