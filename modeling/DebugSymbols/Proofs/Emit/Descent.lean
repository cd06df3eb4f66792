import DebugSymbols.Proofs.Emit.Totals
import DebugSymbols.Proofs.Emit.Validity

/-!
# Descent into scopes

The script of a method lays its scopes out as one list of steps. Here a method is told by nested
calls instead, one for each scope, and the depth of every call is recorded. Nested calls do what the
script does, whatever the sink answers, and the depths that they reach are those of the tree in its
order, up to where the calls break off. So what the depth check finds out with its list of scopes
still to be visited is exactly whether some call would be made beyond the limit.
-/

namespace DebugSymbols

/-! ## Depths -/

namespace Scope

/-- A tree exceeds a depth exactly if it is higher. -/
theorem exceedsDepth_eq_true_iff {scope : Scope} {limit : Nat} :
    scope.exceedsDepth limit = true ↔ limit < scope.height := by
  rw [← Bool.not_eq_false, exceedsDepth_eq_false_iff, Nat.not_le]

mutual

/-- The depths of a scope and of all scopes within it, from the outside in. -/
def depths (depth : Nat) : Scope → List Nat
  | ⟨_, _, _, children⟩ => depth :: depthsList (depth + 1) children

/-- The depths of scopes and of all scopes within them. -/
def depthsList (depth : Nat) : List Scope → List Nat
  | [] => []
  | scope :: rest => scope.depths depth ++ depthsList depth rest

end

mutual

/-- The depths in a tree stay within a limit exactly if the tree is not too high for it. -/
theorem forall_mem_depths_le_iff {limit : Nat} (depth : Nat) : ∀ scope : Scope,
    (∀ deep ∈ scope.depths depth, deep ≤ limit) ↔ depth + scope.height ≤ limit + 1
  | ⟨span, locals, constants, children⟩ => by
    rw [depths, List.forall_mem_cons, forall_mem_depthsList_le_iff (depth + 1) children,
      add_height_le_iff]

theorem forall_mem_depthsList_le_iff {limit : Nat} (depth : Nat) : ∀ scopes : List Scope,
    (∀ deep ∈ depthsList depth scopes, deep ≤ limit) ↔
      ∀ scope ∈ scopes, depth + scope.height ≤ limit + 1
  | [] => by simp [depthsList]
  | scope :: rest => by
    rw [depthsList, List.forall_mem_append, List.forall_mem_cons,
      forall_mem_depths_le_iff depth scope, forall_mem_depthsList_le_iff depth rest]

end

end Scope

/-! ## Nested calls -/

/-- An emission that tells scopes by nested calls, with the depths of the calls so far. -/
structure Descent (σ : Type) where
  emission : Emission σ
  entered : List Nat

namespace Descent

variable {σ α : Type}

/-- Makes an attempt on the emission. -/
def within (attempt : Attempt (Emission σ) α) : Attempt (Descent σ) α :=
  .ofOutcome fun ⟨emission, entered⟩ =>
    let (result, reached) := attempt.outcome emission
    (result, ⟨reached, entered⟩)

/-- Records that a call for a scope is made at a depth. -/
def enter (depth : Nat) : Attempt (Descent σ) Unit :=
  modify fun descent => { descent with entered := descent.entered ++ [depth] }

end Descent

/-- What the calls for scopes know of their method. -/
def Method.scopeContext (limit : Nat) (method : Method) : ScopeContext :=
  ⟨method.token, method.slotToken, limit⟩

namespace Emitter

open Descent (within enter)

variable {σ : Type}

mutual

/-- Tells a scope at a depth, by a call of its own for every scope within. -/
def tellScope (emitter : Emitter σ) (context : ScopeContext) (extra : List Constant)
    (depth : Nat) : Scope → Attempt (Descent σ) Unit
  | ⟨span, locals, constants, children⟩ => do
    enter depth
    if context.limit < depth then throw (.recursionLimit context.limit)
    else
      match span.stop with
      | .error error => throw error
      | .ok stop =>
        within (tell (.scope span.offset stop context.method locals.length constants.length))
        within (emitter.issue (.openScope span.offset))
        within (emitter.perform (locals.map (Variable.step context.signature span.offset stop)))
        within (emitter.perform ((constants ++ extra).map Constant.step))
        tellScopes emitter context (depth + 1) children
        within (emitter.issue (.closeScope stop))

/-- Tells scopes at a depth one after the other. -/
def tellScopes (emitter : Emitter σ) (context : ScopeContext) (depth : Nat) :
    List Scope → Attempt (Descent σ) Unit
  | [] => pure ()
  | scope :: rest => do
    tellScope emitter context [] depth scope
    tellScopes emitter context depth rest

end

/-- Tells one method of a tree to the sink, with nested calls for its scopes. -/
def tellMethod (emitter : Emitter σ) (tree : SymbolTree) (method : Method) :
    Attempt (Descent σ) Unit := do
  Attempt.lift (method.validate emitter.options)
  let batches ← within (emitter.gatherLines tree method.token method.lines [])
  let blobs ← Attempt.lift method.blobs
  within (tell (.emitting (emitter.label method.token) method.pointCount batches.length))
  within (emitter.issue (.openMethod method.token))
  within (emitter.perform
    (batches.map fun (handle, batch) => .issue (.defineSequencePoints handle batch)))
  emitter.tellScope (method.scopeContext emitter.options.maxScopeDepth) method.constants 1
    method.scope
  within (emitter.perform
    (blobs.map fun blob => .issue (.setSymbolAttribute method.token Metadata.attributeName blob)))
  within (emitter.issue .closeMethod)

end Emitter

/-! ## Nested calls do what the script does -/

/-- A computation with nested calls does what an attempt on the emission does. It makes its calls at
the given depths, one after the other, and all of them unless it fails. -/
def Follows {σ α : Type} (depths : List Nat) (attempt : Attempt (Emission σ) α)
    (nested : Attempt (Descent σ) α) : Prop :=
  ∀ emission entered, ∃ made, made <+: depths ∧
    (∀ value, (attempt.outcome emission).1 = .ok value → made = depths) ∧
      nested.outcome ⟨emission, entered⟩ =
        ((attempt.outcome emission).1, ⟨(attempt.outcome emission).2, entered ++ made⟩)

namespace Follows

variable {σ α β : Type} {front back : List Nat}

theorem within (attempt : Attempt (Emission σ) α) : Follows [] attempt (Descent.within attempt) :=
  fun _ _ => ⟨[], List.prefix_refl [], fun _ _ => rfl, by rw [List.append_nil]; rfl⟩

theorem pure (value : α) : Follows (σ := σ) [] (Pure.pure value) (Pure.pure value) :=
  within (Pure.pure value)

theorem lift (result : Except SymbolError α) :
    Follows (σ := σ) [] (Attempt.lift result) (Attempt.lift result) := by
  intro emission entered
  refine ⟨[], List.prefix_refl [], fun _ _ => rfl, ?_⟩
  rw [Attempt.outcome_lift, Attempt.outcome_lift, List.append_nil]

/-- After a failure no call is made any more. -/
theorem throw (depths : List Nat) (error : SymbolError) :
    Follows (σ := σ) (α := α) depths (throw error) (MonadExcept.throw error) :=
  fun _ _ => ⟨[], List.nil_prefix, fun _ h => (nomatch h), by rw [List.append_nil]; rfl⟩

theorem bind {attempt : Attempt (Emission σ) α} {nested : Attempt (Descent σ) α}
    {next : α → Attempt (Emission σ) β} {nestedNext : α → Attempt (Descent σ) β}
    (h : Follows front attempt nested)
    (hnext : ∀ value, Follows back (next value) (nestedNext value)) :
    Follows (front ++ back) (attempt >>= next) (nested >>= nestedNext) := by
  intro emission entered
  obtain ⟨made, hinitial, hall, houtcome⟩ := h emission entered
  rw [Attempt.outcome_bind, Attempt.outcome_bind, houtcome]
  generalize attempt.outcome emission = outcome at hall
  rcases outcome with ⟨error | value, reached⟩
  · -- a failure leaves the calls at `back` out
    exact ⟨made, hinitial.trans (List.prefix_append _ _), fun _ h => (nomatch h), rfl⟩
  · obtain rfl := hall value rfl
    obtain ⟨more, hmore, hrest, hlast⟩ := hnext value reached (entered ++ made)
    refine ⟨made ++ more, (List.prefix_append_right_inj made).2 hmore,
      fun value hvalue => congrArg _ (hrest value hvalue), ?_⟩
    rw [← List.append_assoc]
    exact hlast

/-- Apart from the calls for scopes nothing is recorded. -/
theorem within_bind (attempt : Attempt (Emission σ) α) {next : α → Attempt (Emission σ) β}
    {nestedNext : α → Attempt (Descent σ) β}
    (hnext : ∀ value, Follows back (next value) (nestedNext value)) :
    Follows back (attempt >>= next) (Descent.within attempt >>= nestedNext) :=
  bind (within attempt) hnext

/-- A call for a scope is recorded before anything else. -/
theorem enter {depth : Nat} {attempt : Attempt (Emission σ) α} {nested : Attempt (Descent σ) α}
    (h : Follows back attempt nested) :
    Follows (depth :: back) attempt (Descent.enter depth >>= fun _ => nested) := by
  intro emission entered
  obtain ⟨made, hinitial, hall, houtcome⟩ := h emission (entered ++ [depth])
  refine ⟨depth :: made, (List.prefix_cons_inj depth).2 hinitial,
    fun value hvalue => congrArg _ (hall value hvalue), ?_⟩
  rw [List.append_assoc, List.singleton_append] at houtcome
  rw [Attempt.outcome_bind]
  exact houtcome

end Follows

namespace Emitter

variable {σ : Type}

/-- To carry out a script is to carry out the parts of it one after the other. -/
theorem perform_append (emitter : Emitter σ) (front back : List Step) :
    emitter.perform (front ++ back) = (do emitter.perform front; emitter.perform back) := by
  induction front with
  | nil => exact (pure_bind () fun _ => emitter.perform back).symm
  | cons step front ih =>
    cases step with
    | tell notice => simp only [List.cons_append, perform, ih, bind_assoc]
    | issue command => simp only [List.cons_append, perform, ih, bind_assoc]
    | fail error => rfl

theorem perform_singleton (emitter : Emitter σ) (command : Command) :
    emitter.perform [.issue command] = emitter.issue command := bind_pure_unit

mutual

/-- Nested calls for a scope do what its script does. -/
theorem follows_tellScope (emitter : Emitter σ) (context : ScopeContext) (extra : List Constant)
    (depth : Nat) : ∀ scope : Scope,
      Follows (scope.depths depth) (emitter.perform (scope.script context extra depth))
        (emitter.tellScope context extra depth scope)
  | ⟨span, locals, constants, children⟩ => by
    rw [Scope.script, Scope.scriptThen, Scope.depths, tellScope]
    apply Follows.enter
    split
    · exact Follows.throw _ _
    · cases span.stop with
      | error error => exact Follows.throw _ _
      | ok stop =>
        have hchildren := Scope.scriptsThen_append context (depth + 1) children []
          [.issue (.closeScope stop)]
        rw [List.nil_append] at hchildren
        dsimp only
        rw [hchildren, perform, perform, perform_append, perform_append, perform_append,
          perform_singleton]
        refine Follows.within_bind _ fun _ => Follows.within_bind _ fun _ =>
          Follows.within_bind _ fun _ => Follows.within_bind _ fun _ => ?_
        -- behind the scopes within, the end of this scope makes no call of its own
        rw [← List.append_nil (Scope.depthsList _ _)]
        exact Follows.bind (follows_tellScopes emitter context (depth + 1) children) fun _ =>
          Follows.within _

/-- Nested calls for scopes do what their scripts do. -/
theorem follows_tellScopes (emitter : Emitter σ) (context : ScopeContext) (depth : Nat) :
    ∀ scopes : List Scope,
      Follows (Scope.depthsList depth scopes)
        (emitter.perform (Scope.scriptsThen context depth scopes []))
        (emitter.tellScopes context depth scopes)
  | [] => Follows.pure ()
  | scope :: rest => by
    rw [Scope.scriptsThen, Scope.scriptThen_eq, perform_append, Scope.depthsList, tellScopes]
    exact Follows.bind (follows_tellScope emitter context [] depth scope) fun _ =>
      follows_tellScopes emitter context depth rest

end

/-- With nested calls for its scopes a method is told as it is with its script. -/
theorem follows_tellMethod (emitter : Emitter σ) (tree : SymbolTree) (method : Method) :
    Follows (method.scope.depths 1) (emitter.emitMethod tree method)
      (emitter.tellMethod tree method) := by
  rw [emitMethod, tellMethod]
  refine Follows.bind (.lift _) fun _ => Follows.within_bind _ fun batches =>
    Follows.bind (.lift _) fun blobs => Follows.within_bind _ fun _ => ?_
  rw [Method.script, perform, perform_append, Scope.scriptThen_eq, perform_append, perform_append,
    perform_singleton]
  refine Follows.within_bind _ fun _ => Follows.within_bind _ fun _ => ?_
  rw [← List.append_nil (Scope.depths _ _)]
  exact Follows.bind (follows_tellScope emitter _ method.constants 1 method.scope) fun _ =>
    Follows.within_bind _ fun _ => Follows.within _

/-! ## The limit -/

/-- What goes wrong in a script is a fault that stands in it or an answer of the sink, which is left
as this answer leaves it. -/
theorem fail_mem_or_exists_of_perform {emitter : Emitter σ} {steps : List Step}
    {emission last : Emission σ} {error : SymbolError}
    (h : (emitter.perform steps).outcome emission = (.error error, last)) :
    .fail error ∈ steps ∨
      ∃ command state, (emitter.sink.issue command).outcome state = (.error error, last.sink) := by
  induction steps generalizing emission with
  | nil => cases h
  | cons step steps ih =>
    cases step with
    | tell notice =>
      rcases Attempt.outcome_bind_eq_error_iff.1 h with htell | ⟨_, _, -, hrest⟩
      · cases htell
      · exact (ih hrest).imp_left (List.mem_cons_of_mem _)
    | issue command =>
      rcases Attempt.outcome_bind_eq_error_iff.1 h with hissue | ⟨_, _, -, hrest⟩
      · rcases Attempt.outcome_bind_eq_error_iff.1 hissue with hsink | ⟨_, _, -, hcount⟩
        · obtain ⟨_, hanswer, rfl⟩ := onSink_eq_iff.1 hsink
          exact Or.inr ⟨command, emission.sink, hanswer⟩
        · cases hcount
      · exact (ih hrest).imp_left (List.mem_cons_of_mem _)
    | fail fault =>
      cases h
      exact Or.inl List.mem_cons_self

end Emitter

namespace Scope

mutual

/-- The script of a scope that is not too high for the limit does not break off at the limit. -/
theorem recursionLimit_mem_scriptThen {context : ScopeContext} {limit : Nat}
    (extra : List Constant) (depth : Nat) : ∀ (scope : Scope) (next : List Step),
      depth + scope.height ≤ context.limit + 1 →
        .fail (.recursionLimit limit) ∈ scope.scriptThen context extra depth next →
          .fail (.recursionLimit limit) ∈ next
  | ⟨span, locals, constants, children⟩, next, hheight, h => by
    obtain ⟨hdepth, hchildren⟩ := add_height_le_iff.1 hheight
    rw [scriptThen, if_neg (Nat.not_lt.2 hdepth)] at h
    cases hstop : span.stop with
    | error error =>
      have hinvalid := FailsOnly.stop span error hstop
      rw [hstop] at h
      rcases List.mem_cons.1 h with heq | hnext
      · cases heq
        cases hinvalid
      · exact hnext
    | ok stop =>
      rw [hstop] at h
      simp only [List.mem_cons, List.mem_append, List.mem_map, Variable.step, Constant.step,
        reduceCtorEq, and_false, exists_false, false_or] at h
      rcases List.mem_cons.1 (recursionLimit_mem_scriptsThen (depth + 1) children _ hchildren h)
        with hclose | hnext
      · cases hclose
      · exact hnext

theorem recursionLimit_mem_scriptsThen {context : ScopeContext} {limit : Nat} (depth : Nat) :
    ∀ (scopes : List Scope) (next : List Step),
      (∀ scope ∈ scopes, depth + scope.height ≤ context.limit + 1) →
        .fail (.recursionLimit limit) ∈ scriptsThen context depth scopes next →
          .fail (.recursionLimit limit) ∈ next
  | [], _, _, h => h
  | scope :: rest, next, hheight, h => by
    obtain ⟨hscope, hrest⟩ := List.forall_mem_cons.1 hheight
    rw [scriptsThen] at h
    exact recursionLimit_mem_scriptsThen depth rest next hrest
      (recursionLimit_mem_scriptThen [] depth scope _ hscope h)

end

end Scope

namespace Emitter

variable {σ : Type}

/-- Once the checks of a method have passed, the nested calls for its scopes fail with the limit
only if this is what the sink answered to one of the commands. -/
theorem exists_answer_of_recursionLimit {emitter : Emitter σ} {method : Method}
    (hvalidate : method.validate emitter.options = .ok ()) {descent last : Descent σ} {limit : Nat}
    (h : (emitter.tellScope (method.scopeContext emitter.options.maxScopeDepth) method.constants 1
      method.scope).outcome descent = (.error (.recursionLimit limit), last)) :
    ∃ command state, (emitter.sink.issue command).outcome state =
      (.error (.recursionLimit limit), last.emission.sink) := by
  obtain ⟨emission, entered⟩ := descent
  obtain ⟨made, -, -, houtcome⟩ := follows_tellScope emitter
    (method.scopeContext emitter.options.maxScopeDepth) method.constants 1 method.scope
    emission entered
  rw [h] at houtcome
  obtain ⟨herror, rfl⟩ := Prod.mk.inj houtcome
  rcases fail_mem_or_exists_of_perform (Prod.ext herror.symm rfl) with hfail | hanswer
  · have hheight := (Method.validate_eq_ok_iff.1 hvalidate).1
    have hfits : 1 + method.scope.height ≤ emitter.options.maxScopeDepth + 1 := by omega
    cases Scope.recursionLimit_mem_scriptThen _ _ _ _ hfits hfail
  · exact hanswer

/-- The depth check agrees with the nested calls that it protects. A tree exceeds a limit exactly if
its height does, and its count is the number of its scopes. When a method is told whose checks have
passed, nested calls for its scopes do just what the emission does, from any state and whatever the
sink answers; the calls are made at the depths of the tree in its order, none of them beyond the
limit, and they never fail with the limit unless this is an answer of the sink itself. -/
theorem depth_check_protects_descent (emitter : Emitter σ) (tree : SymbolTree) :
    (∀ scope : Scope, scope.count = scope.all.length ∧
      ∀ limit, scope.exceedsDepth limit = true ↔ limit < scope.height) ∧
    ∀ method : Method, method.validate emitter.options = .ok () → ∀ emission : Emission σ,
      let limit := emitter.options.maxScopeDepth
      let told := (emitter.tellMethod tree method).outcome ⟨emission, []⟩
      (told.1, told.2.emission) = (emitter.emitMethod tree method).outcome emission ∧
        told.2.entered <+: method.scope.depths 1 ∧
        (told.1 = .ok () → told.2.entered = method.scope.depths 1) ∧
        (∀ depth ∈ told.2.entered, depth ≤ limit) ∧
        ∀ descent last bound,
          (emitter.tellScope (method.scopeContext limit) method.constants 1 method.scope).outcome
              descent = (.error (.recursionLimit bound), last) →
            ∃ command state, (emitter.sink.issue command).outcome state =
              (.error (.recursionLimit bound), last.emission.sink) := by
  refine ⟨fun scope => ⟨scope.count_eq, fun _ => Scope.exceedsDepth_eq_true_iff⟩, ?_⟩
  intro method hvalidate emission limit told
  obtain ⟨made, hinitial, hall, houtcome⟩ := follows_tellMethod emitter tree method emission []
  have htold : told = _ := houtcome
  have hentered : told.2.entered = made := by rw [htold, List.nil_append]
  have hheight := (Method.validate_eq_ok_iff.1 hvalidate).1
  have hdepths : ∀ depth ∈ method.scope.depths 1, depth ≤ limit :=
    (Scope.forall_mem_depths_le_iff 1 method.scope).2 (by omega)
  refine ⟨by rw [htold], ?_, ?_, ?_, ?_⟩
  · rw [hentered]
    exact hinitial
  · intro hok
    rw [htold] at hok
    rw [hentered, hall () hok]
  · rw [hentered]
    exact fun depth hmem => hdepths depth (hinitial.mem hmem)
  · exact fun _ _ _ h => exists_answer_of_recursionLimit hvalidate h

/-- The first method of a tree with shared documents has a scope within another one: two calls are
made, the second one deeper. -/
theorem depth_check_protects_descent_sharedDocuments :
    let emitter := Emitter.recording .strict none
    let method := sharedDocuments.methods.head (List.cons_ne_nil _ _)
    let told := (emitter.tellMethod sharedDocuments method).outcome
      ⟨Emission.start (Recording.start none), []⟩
    method.validate emitter.options = .ok () ∧ told.1 = .ok () ∧ told.2.entered = [1, 2] ∧
      ∀ depth ∈ told.2.entered, depth ≤ 256 := by
  have hvalidate : (sharedDocuments.methods.head (List.cons_ne_nil _ _)).validate .strict =
      .ok () := by cbv
  have hok : (((Emitter.recording .strict none).tellMethod sharedDocuments
      (sharedDocuments.methods.head (List.cons_ne_nil _ _))).outcome
        ⟨Emission.start (Recording.start none), []⟩).1 = .ok () := by cbv
  obtain ⟨-, hprotects⟩ :=
    depth_check_protects_descent (Emitter.recording .strict none) sharedDocuments
  obtain ⟨-, -, hall, hlimit, -⟩ := hprotects _ hvalidate (Emission.start (Recording.start none))
  exact ⟨hvalidate, hok, hall hok, hlimit⟩

end Emitter

end DebugSymbols
