import DebugSymbols.Proofs.Containment
import DebugSymbols.Proofs.Emit.Rejection
import DebugSymbols.Proofs.Sink.Brackets

/-!
# Validated scopes are recorded as nested intervals

What a recording shows of a method that was told after its ranges were checked are nested intervals:
every scope that is opened lies within all scopes around it, at whatever depth, and each variable
has the range of the innermost scope that is open where it is defined. This is read off the calls of
the recording, and holds in any state of the emitter and of the sink.
-/

namespace DebugSymbols

/-- The end of a range that lies within another one is not behind the end of that. -/
theorem Span.Covers.stop_le {outer inner : Span} (h : outer.Covers inner)
    (houter : outer.reach < UInt32.size) (hinner : inner.reach < UInt32.size) :
    inner.offset + inner.length ≤ outer.offset + outer.length := by
  rw [UInt32.le_iff_toNat_le, toNat_offset_add_length houter, toNat_offset_add_length hinner]
  exact h.2

theorem Span.offset_le_stop {span : Span} (h : span.reach < UInt32.size) :
    span.offset ≤ span.offset + span.length := by
  rw [UInt32.le_iff_toNat_le, toNat_offset_add_length h]
  exact Nat.le_add_right _ _

/-- Whether the scopes that a log shows are nested intervals. -/
structure NestedIntervals (log : List Entry) : Prop where
  /-- Every scope that is opened is closed. -/
  balanced : Balanced log
  /-- There is one outermost scope, and it holds all variables. -/
  outermost : ∃ root, Shows log root ∧
    (∀ scope, Shows log scope → scope = root ∨ Shows root.content scope) ∧
      ∀ local_, .defineLocalVariable local_ ∈ log → .defineLocalVariable local_ ∈ root.content
  start_le_stop : ∀ scope, Shows log scope → scope.start ≤ scope.stop
  /-- A scope lies within every scope around it. -/
  within : ∀ outer inner, Shows log outer → Shows outer.content inner →
    outer.start ≤ inner.start ∧ inner.stop ≤ outer.stop
  /-- A variable has the range of the innermost scope that is open where it is defined. -/
  local_eq : ∀ before local_ after, log = before ++ .defineLocalVariable local_ :: after →
    ∀ start stop, Innermost before after start stop ↔
      local_.start = start ∧ local_.stop = stop
  /-- So its range lies within that of every scope around it. -/
  local_within : ∀ scope local_, Shows log scope → .defineLocalVariable local_ ∈ scope.content →
    scope.start ≤ local_.start ∧ local_.stop ≤ scope.stop

namespace Scope

/-! ## What the calls of a scope show -/

/-- The calls for the variables and the constants of a scope. -/
def ownEntries (signature : Token) (extra : List Constant) (scope : Scope) : List Entry :=
  scope.locals.map (Variable.entry signature scope.span) ++
    (scope.constants ++ extra).map Constant.entry

/-- A scope as a log of its calls shows it. -/
def shown (signature : Token) (extra : List Constant) (scope : Scope) : ShownScope where
  start := scope.span.offset
  stop := scope.span.offset + scope.span.length
  content := scope.ownEntries signature extra ++ entriesList signature scope.children

theorem entries_eq_calls (signature : Token) (extra : List Constant) (scope : Scope) :
    scope.entries signature extra = (scope.shown signature extra).calls := by
  obtain ⟨span, locals, constants, children⟩ := scope
  rw [entries]
  rfl

variable {signature : Token} {extra : List Constant} {scope : Scope} {shown : ShownScope}

theorem weight_ownEntries : ∀ entry ∈ scope.ownEntries signature extra, entry.weight = 0 := by
  simp only [ownEntries, List.forall_mem_append, List.forall_mem_map]
  exact ⟨fun _ _ => rfl, fun _ _ => rfl, fun _ _ => rfl⟩

/-- The variables of a scope have its range. -/
theorem range_of_mem_ownEntries {local_ : LocalVariable}
    (h : .defineLocalVariable local_ ∈ scope.ownEntries signature extra) :
    local_.start = scope.span.offset ∧ local_.stop = scope.span.offset + scope.span.length := by
  rcases List.mem_append.1 h with hlocal | hconstant
  · obtain ⟨_, -, heq⟩ := List.mem_map.1 hlocal
    cases heq
    exact ⟨rfl, rfl⟩
  · obtain ⟨_, -, heq⟩ := List.mem_map.1 hconstant
    cases heq

mutual

theorem balanced_entries (signature : Token) (extra : List Constant) :
    ∀ scope : Scope, Balanced (scope.entries signature extra)
  | ⟨span, locals, constants, children⟩ => by
    rw [entries_eq_calls]
    exact .scope ((Balanced.of_plain weight_ownEntries).append
      (balanced_entriesList signature children)) .nil

theorem balanced_entriesList (signature : Token) :
    ∀ scopes : List Scope, Balanced (entriesList signature scopes)
  | [] => .nil
  | scope :: scopes =>
    (balanced_entries signature [] scope).append (balanced_entriesList signature scopes)

end

theorem balanced_content : Balanced (scope.shown signature extra).content :=
  (Balanced.of_plain weight_ownEntries).append (balanced_entriesList signature scope.children)

mutual

/-- The calls of a scope show this scope and the scopes within it. -/
theorem shows_entries_append_iff (signature : Token) (extra : List Constant) :
    ∀ (scope : Scope) (rest : List Entry), Shows (scope.entries signature extra ++ rest) shown ↔
      shown = scope.shown signature extra ∨
        (∃ inner ∈ allList scope.children, shown = inner.shown signature []) ∨ Shows rest shown
  | ⟨span, locals, constants, children⟩, rest => by
    rw [entries_eq_calls, ShownScope.calls, List.cons_append, List.append_assoc,
      List.singleton_append, shows_open_iff balanced_content]
    refine or_congr Iff.rfl ?_
    rw [Scope.shown, List.append_assoc, shows_append_iff weight_ownEntries,
      shows_entriesList_append_iff signature children, shows_cons_iff (by simp [Entry.weight])]

/-- The calls of scopes show these scopes and the scopes within them. -/
theorem shows_entriesList_append_iff (signature : Token) :
    ∀ (scopes : List Scope) (rest : List Entry), Shows (entriesList signature scopes ++ rest) shown ↔
      (∃ inner ∈ allList scopes, shown = inner.shown signature []) ∨ Shows rest shown
  | [], rest => by simp [entriesList, allList]
  | scope :: scopes, rest => by
    rw [entriesList, List.append_assoc, shows_entries_append_iff signature [] scope,
      shows_entriesList_append_iff signature scopes, allList, all_eq]
    simp only [List.cons_append, List.exists_mem_cons_iff, List.mem_append, or_and_right, exists_or,
      or_assoc]

end

/-- Between the start and the end of a scope the scopes within it are shown. -/
theorem shows_content_iff :
    Shows (scope.shown signature extra).content shown ↔
      ∃ inner ∈ allList scope.children, shown = inner.shown signature [] := by
  have hlist : Shows (entriesList signature scope.children ++ []) shown ↔ _ :=
    shows_entriesList_append_iff signature scope.children []
  rw [List.append_nil, or_iff_left not_shows_nil] at hlist
  rw [Scope.shown, shows_append_iff weight_ownEntries, hlist]

mutual

theorem localsFit_entries (signature : Token) (extra : List Constant) :
    ∀ scope : Scope, LocalsFit (scope.entries signature extra)
  | ⟨span, locals, constants, children⟩ => by
    rw [entries_eq_calls]
    exact LocalsFit.calls weight_ownEntries (fun _ => range_of_mem_ownEntries)
      (balanced_entriesList signature children) (localsFit_entriesList signature children)

theorem localsFit_entriesList (signature : Token) :
    ∀ scopes : List Scope, LocalsFit (entriesList signature scopes)
  | [] => .of_notMem fun _ => List.not_mem_nil
  | scope :: scopes =>
    (localsFit_entries signature [] scope).append (localsFit_entriesList signature scopes)

end

mutual

/-- The variables in the calls of a scope have the ranges of the scope and the scopes within it. -/
theorem exists_range_of_mem_entries (signature : Token) (extra : List Constant)
    {local_ : LocalVariable} : ∀ scope : Scope,
      .defineLocalVariable local_ ∈ scope.entries signature extra → ∃ inner ∈ scope.all,
        local_.start = inner.span.offset ∧ local_.stop = inner.span.offset + inner.span.length
  | ⟨span, locals, constants, children⟩, h => by
    rw [entries_eq_calls, ShownScope.calls, List.mem_cons, List.mem_append, Scope.shown,
      List.mem_append] at h
    rcases h with h | (hown | hchildren) | h
    · cases h
    · exact ⟨_, mem_all_self _, range_of_mem_ownEntries hown⟩
    · obtain ⟨inner, hinner, hrange⟩ := exists_range_of_mem_entriesList signature children hchildren
      exact ⟨inner, mem_all_of_mem_allList hinner, hrange⟩
    · cases List.mem_singleton.1 h

theorem exists_range_of_mem_entriesList (signature : Token) {local_ : LocalVariable} :
    ∀ scopes : List Scope,
      .defineLocalVariable local_ ∈ entriesList signature scopes → ∃ inner ∈ allList scopes,
        local_.start = inner.span.offset ∧ local_.stop = inner.span.offset + inner.span.length
  | [], h => nomatch h
  | scope :: scopes, h => by
    rcases List.mem_append.1 h with hscope | hscopes
    · obtain ⟨inner, hinner, hrange⟩ := exists_range_of_mem_entries signature [] scope hscope
      exact ⟨inner, List.mem_append_left _ hinner, hrange⟩
    · obtain ⟨inner, hinner, hrange⟩ := exists_range_of_mem_entriesList signature scopes hscopes
      exact ⟨inner, List.mem_append_right _ hinner, hrange⟩

end

/-! ## Nested intervals -/

variable {front back : List Entry}

theorem weight_of_isOfScope {log : List Entry} (h : ∀ entry ∈ log, entry.isOfScope = false) :
    ∀ entry ∈ log, entry.weight = 0 := by
  intro entry hentry
  have hkind := h entry hentry
  cases entry <;> first | rfl | cases hkind

theorem notMem_of_isOfScope {log : List Entry} (h : ∀ entry ∈ log, entry.isOfScope = false)
    (local_ : LocalVariable) : .defineLocalVariable local_ ∉ log :=
  fun hlocal => nomatch h _ hlocal

/-- Among calls that tell no scope, the calls of a scope show this scope and what it shows. -/
theorem shows_among_iff (hfront : ∀ entry ∈ front, entry.isOfScope = false)
    (hback : ∀ entry ∈ back, entry.isOfScope = false) :
    Shows (front ++ (scope.entries signature extra ++ back)) shown ↔
      shown = scope.shown signature extra ∨ Shows (scope.shown signature extra).content shown := by
  have hnone : ¬ Shows back shown := by
    rw [← List.append_nil back, shows_append_iff (weight_of_isOfScope hback)]
    exact not_shows_nil
  rw [shows_append_iff (weight_of_isOfScope hfront), shows_entries_append_iff,
    or_iff_left hnone, shows_content_iff]

/-- All of them are scopes of the tree. -/
theorem exists_of_shows (hfront : ∀ entry ∈ front, entry.isOfScope = false)
    (hback : ∀ entry ∈ back, entry.isOfScope = false)
    (h : Shows (front ++ (scope.entries signature extra ++ back)) shown) :
    ∃ inner ∈ scope.all, ∃ extra, shown = inner.shown signature extra := by
  rcases (shows_among_iff hfront hback).1 h with hroot | hshown
  · exact ⟨scope, scope.mem_all_self, extra, hroot⟩
  · obtain ⟨inner, hinner, heq⟩ := shows_content_iff.1 hshown
    exact ⟨inner, mem_all_of_mem_allList hinner, [], heq⟩

/-- The variables of a scope are told between its start and its end. -/
theorem defineLocalVariable_mem_entries_iff {local_ : LocalVariable} :
    .defineLocalVariable local_ ∈ scope.entries signature extra ↔
      .defineLocalVariable local_ ∈ (scope.shown signature extra).content := by
  rw [entries_eq_calls, ShownScope.calls]
  simp

/-- Among calls that tell no scope, the calls of a nested tree whose ranges have ends are nested
intervals. -/
theorem nestedIntervals_entries (hnested : scope.Nested)
    (hreach : ∀ span ∈ scope.spans, span.reach < UInt32.size)
    (hfront : ∀ entry ∈ front, entry.isOfScope = false)
    (hback : ∀ entry ∈ back, entry.isOfScope = false) :
    NestedIntervals (front ++ (scope.entries signature extra ++ back)) := by
  rw [spans_eq_map, List.forall_mem_map] at hreach
  have hcovers : ∀ outer ∈ scope.all, ∀ inner ∈ outer.all,
      outer.span.offset ≤ inner.span.offset ∧
        inner.span.offset + inner.span.length ≤ outer.span.offset + outer.span.length := by
    intro outer houter inner hinner
    have hspans := (hnested.of_mem_all outer houter).covers inner hinner
    exact ⟨hspans.1, hspans.stop_le (hreach outer houter)
      (hreach inner (mem_all_of_mem_all houter hinner))⟩
  have hfit : LocalsFit (front ++ (scope.entries signature extra ++ back)) :=
    (LocalsFit.of_notMem (notMem_of_isOfScope hfront)).append
      ((localsFit_entries signature extra scope).append
        (.of_notMem (notMem_of_isOfScope hback)))
  constructor
  case balanced =>
    exact (Balanced.of_plain (weight_of_isOfScope hfront)).append
      ((balanced_entries signature extra scope).append (.of_plain (weight_of_isOfScope hback)))
  case outermost =>
    refine ⟨scope.shown signature extra, (shows_among_iff hfront hback).2 (Or.inl rfl),
      fun _ => (shows_among_iff hfront hback).1,
      fun local_ hlocal => defineLocalVariable_mem_entries_iff.1 ?_⟩
    simpa only [List.mem_append, notMem_of_isOfScope hfront, notMem_of_isOfScope hback, false_or,
      or_false] using hlocal
  case start_le_stop =>
    intro shown hshown
    obtain ⟨inner, hinner, _, rfl⟩ := exists_of_shows hfront hback hshown
    exact Span.offset_le_stop (hreach inner hinner)
  case within =>
    intro _ _ houter hinner
    obtain ⟨outer, hmem, _, rfl⟩ := exists_of_shows hfront hback houter
    obtain ⟨inner, hwithin, rfl⟩ := shows_content_iff.1 hinner
    exact hcovers outer hmem inner (mem_all_of_mem_allList hwithin)
  case local_eq =>
    intro before local_ after heq start stop
    have hinnermost := hfit before local_ after heq
    constructor
    · exact hinnermost.unique
    · rintro ⟨rfl, rfl⟩
      exact hinnermost
  case local_within =>
    intro _ local_ houter hlocal
    obtain ⟨outer, hmem, more, rfl⟩ := exists_of_shows hfront hback houter
    obtain ⟨inner, hinner, hstart, hstop⟩ :=
      exists_range_of_mem_entries _ _ _ (defineLocalVariable_mem_entries_iff.2 hlocal)
    rw [hstart, hstop]
    exact hcovers outer hmem inner hinner

end Scope

/-! ## Methods that were told -/

/-- A script without a fault tells the scopes of the method among calls that tell no scope. -/
theorem Method.exists_entries_of_script {method : Method} {limit : Nat}
    {batches : List (DocumentHandle × Batch)} {blobs : List (List UInt8)}
    (hfault : ∀ step ∈ method.script limit batches blobs, step.isFault = false) :
    ∃ front back, (∀ entry ∈ front, entry.isOfScope = false) ∧
      (∀ entry ∈ back, entry.isOfScope = false) ∧
        (method.script limit batches blobs).filterMap Step.entry? =
          front ++ (method.scope.entries method.slotToken method.constants ++ back) := by
  have hissued : ∀ {α : Type} (items : List α) (command : α → Command),
      (∀ item ∈ items, (command item).entry.isOfScope = false) →
        ∀ entry ∈ (items.map fun item => Step.issue (command item)).filterMap Step.entry?,
          entry.isOfScope = false := by
    intro α items command hitems
    rw [Step.filterMap_entry?_map, List.forall_mem_map]
    exact hitems
  rw [script, List.forall_mem_cons, List.forall_mem_append] at hfault
  obtain ⟨hscope, -, -⟩ := Scope.entries_of_scriptThen _ _ _ _ _ hfault.2.2
  rw [script, List.filterMap_cons, List.filterMap_append, hscope, List.filterMap_append]
  refine ⟨.openMethod method.token :: _, _, ?_, ?_, rfl⟩
  · exact List.forall_mem_cons.2 ⟨rfl, hissued batches _ fun _ _ => rfl⟩
  · exact List.forall_mem_append.2 ⟨hissued blobs _ fun _ _ => rfl, by decide⟩

namespace Emitter

variable {options : Options} {names : Option Names} {tree : SymbolTree}
  {emission last : Emission Recording}

/-- In any state a method that is told leaves the calls of its scopes among calls that tell no
scope, and it has passed its checks. -/
theorem entries_of_emitMethod {method : Method}
    (h : ((Emitter.recording options names).emitMethod tree method).outcome emission =
      (.ok (), last)) :
    method.validate options = .ok () ∧
      ∃ front back, (∀ entry ∈ front, entry.isOfScope = false) ∧
        (∀ entry ∈ back, entry.isOfScope = false) ∧
          last.sink.entries.toList = emission.sink.entries.toList ++
            (front ++ (method.scope.entries method.slotToken method.constants ++ back)) := by
  obtain ⟨_, hvalidate, h⟩ := Attempt.outcome_lift_bind_eq_ok_iff.1 h
  obtain ⟨batches, gathered, hgather, h⟩ := Attempt.outcome_bind_eq_ok_iff.1 h
  obtain ⟨blobs, -, h⟩ := Attempt.outcome_lift_bind_eq_ok_iff.1 h
  obtain ⟨_, told, htell, h⟩ := Attempt.outcome_bind_eq_ok_iff.1 h
  cases htell
  obtain ⟨defined, hdefined⟩ := registers_gatherLines hgather
  obtain ⟨hfault, hentries, -, -⟩ := told_of_perform h
  obtain ⟨front, back, hfront, hback, hscript⟩ := Method.exists_entries_of_script hfault
  refine ⟨hvalidate, defined.map registrationEntry ++ front, back, ?_, hback, ?_⟩
  · exact List.forall_mem_append.2 ⟨List.forall_mem_map.2 fun _ _ => rfl, hfront⟩
  · rw [hentries, hscript, List.append_assoc, ← List.append_assoc emission.sink.entries.toList,
      ← hdefined.entries_eq]

/-- The check of ranges, and what a recording shows of it. A tree of scopes passes the check exactly
if no range in it overflows and every scope is contained in all scopes around it. A method that is
told with the check, in any state of the emitter and of the recording, leaves nested intervals
behind what was recorded: every scope lies within all scopes around it, and every variable has the
range of the innermost scope that is open where it is defined. -/
theorem validated_scopes_nest (options : Options) (names : Option Names) (tree : SymbolTree)
    (method : Method) (emission : Emission Recording) :
    (method.scope.validate method.token = .ok () ↔
        (∀ inner ∈ method.scope.all, inner.span.reach < UInt32.size) ∧
          ∀ outer ∈ method.scope.all, ∀ inner ∈ Scope.allList outer.children,
            outer.contains inner = true) ∧
      ∀ last, options.validateScopes = true →
        ((Emitter.recording options names).emitMethod tree method).outcome emission =
            (.ok (), last) →
          ∃ told, last.sink.entries.toList = emission.sink.entries.toList ++ told ∧
            NestedIntervals told := by
  refine ⟨Scope.validate_eq_ok_iff_contains method.token method.scope, ?_⟩
  intro last hvalidate h
  obtain ⟨hchecked, front, back, hfront, hback, hentries⟩ := entries_of_emitMethod h
  obtain ⟨hreach, hnested⟩ := ((Method.validate_eq_ok_iff.1 hchecked).2 hvalidate).1
  exact ⟨_, hentries, Scope.nestedIntervals_entries hnested hreach hfront hback⟩

/-- The first method of a tree with shared documents, told after the check: of its two scopes one
lies within the other. -/
theorem validated_scopes_nest_sharedDocuments :
    let outcome := ((Emitter.recording .strict none).emitMethod sharedDocuments
      (sharedDocuments.methods.head (List.cons_ne_nil _ _))).outcome
        (Emission.start (Recording.start none))
    outcome.1 = .ok () ∧
      outcome.2.sink.entries.toList.filter (fun entry => entry.weight ≠ 0) =
        [.openScope 0, .openScope 2, .closeScope 6, .closeScope 8] ∧
      NestedIntervals outcome.2.sink.entries.toList := by
  have hok : (((Emitter.recording .strict none).emitMethod sharedDocuments
      (sharedDocuments.methods.head (List.cons_ne_nil _ _))).outcome
        (Emission.start (Recording.start none))).1 = .ok () := by cbv
  have hbrackets : (((Emitter.recording .strict none).emitMethod sharedDocuments
      (sharedDocuments.methods.head (List.cons_ne_nil _ _))).outcome
        (Emission.start (Recording.start none))).2.sink.entries.toList.filter
          (fun entry => entry.weight ≠ 0) =
            [.openScope 0, .openScope 2, .closeScope 6, .closeScope 8] := by cbv
  obtain ⟨-, hnest⟩ := validated_scopes_nest .strict none sharedDocuments
    (sharedDocuments.methods.head (List.cons_ne_nil _ _)) (Emission.start (Recording.start none))
  obtain ⟨told, hentries, hnested⟩ := hnest _ rfl (Prod.ext hok rfl)
  refine ⟨hok, hbrackets, ?_⟩
  rw [hentries]
  exact hnested

end Emitter

end DebugSymbols
