import Mathlib.Data.List.Basic
import DebugSymbols.Proofs.Xml.Watching

/-!
# The closing tag of the outermost element

Whether a store has ended is seen in what its device was asked for: the pieces of the closing tag of
the outermost element were written one behind the other. No other markup has these pieces, wherever
its texts come from, and the tag is not complete before its last piece is written.
-/

namespace DebugSymbols.Xml

variable {ω : Type}

/-! ## Patterns of events -/

/-- The closing tag of the outermost element is written. -/
def rootEnd : List DeviceEvent := (Markup.closing "symbols").pieces.map (.write · true)

/-- The closing tag of the outermost element is written, and the flush behind it fails. -/
def unflushedEnd : List DeviceEvent := rootEnd ++ [.flush false]

/-- An item that does not belong to a pattern is not where the pattern begins. -/
theorem infix_of_infix_cons {α : Type} {pattern back : List α} {item : α} (hitem : item ∉ pattern)
    (h : pattern <:+: item :: back) : pattern <:+: back := by
  rcases List.infix_cons_iff.1 h with hprefix | hback
  · cases pattern with
    | nil => exact List.nil_infix
    | cons first rest =>
      obtain ⟨rfl, -⟩ := List.cons_prefix_cons.1 hprefix
      exact absurd List.mem_cons_self hitem
  · exact hback

/-- An item that does not belong to a pattern separates its occurrences. -/
theorem infix_append_cons_iff {α : Type} {pattern front back : List α} {item : α}
    (hitem : item ∉ pattern) :
    pattern <:+: front ++ item :: back ↔ pattern <:+: front ∨ pattern <:+: back := by
  constructor
  · intro h
    rcases List.infix_append_iff.1 h with hfront | hback | ⟨left, right, rfl, hleft, hright⟩
    · exact Or.inl hfront
    · exact Or.inr (infix_of_infix_cons hitem hback)
    · cases right with
      | nil =>
        rw [List.append_nil]
        exact Or.inl hleft.isInfix
      | cons first rest =>
        obtain ⟨rfl, -⟩ := List.cons_prefix_cons.1 hright
        exact absurd (List.mem_append_right _ List.mem_cons_self) hitem
  · rintro (hfront | hback)
    · exact hfront.trans (List.prefix_append _ _).isInfix
    · exact hback.trans ((List.suffix_cons _ _).trans (List.suffix_append _ _)).isInfix

/-- A pattern ends where its last item stands. -/
theorem infix_of_infix_append {α : Type} {pattern front back : List α} {last : α}
    (hlast : last ∉ back) (h : pattern ++ [last] <:+: front ++ back) :
    pattern ++ [last] <:+: front := by
  rcases List.infix_append_iff.1 h with hfront | hback | ⟨left, right, heq, hleft, hright⟩
  · exact hfront
  · exact absurd (hback.subset List.mem_concat_self) hlast
  · rcases List.eq_nil_or_concat right with rfl | ⟨right, item, rfl⟩
    · rw [heq, List.append_nil]
      exact hleft.isInfix
    · rw [List.concat_eq_append, ← List.append_assoc] at heq
      have hitem : last = item := List.singleton_inj.1 (List.append_inj_right' heq rfl)
      rw [hitem] at hlast
      exact absurd (hright.subset (by simp)) hlast

/-- Texts that were written without a failure are among those that were to be written, and not at
their very end if there was a failure. -/
theorem WriteEvents.infix_texts {texts pattern : List String} {result : Except String Unit}
    {events : List DeviceEvent} (h : WriteEvents texts result events)
    (hpattern : pattern.map (.write · true) <:+: events) :
    pattern <:+: texts ∧ (result ≠ .ok () → pattern <:+: texts.dropLast) := by
  have hwritten : ∀ {written : List String},
      pattern.map (DeviceEvent.write · true) <:+: written.map (.write · true) →
        pattern <:+: written := by
    intro written hmap
    obtain ⟨part, hpart, heq⟩ := List.infix_map_iff.1 hmap
    have hinj : Function.Injective fun text => DeviceEvent.write text true :=
      fun _ _ hevent => (DeviceEvent.write.inj hevent).1
    rwa [List.map_injective_iff.2 hinj heq]
  cases h with
  | complete => exact ⟨hwritten hpattern, fun hne => absurd rfl hne⟩
  | cut front text back error heq =>
    have hfailed : DeviceEvent.write text false ∉ pattern.map (.write · true) := by simp
    rcases (infix_append_cons_iff hfailed).1 hpattern with hfront | hnil
    · have hpart := hwritten hfront
      rw [heq, List.dropLast_append_cons]
      exact ⟨hpart.trans (List.prefix_append _ _).isInfix,
        fun _ => hpart.trans (List.prefix_append _ _).isInfix⟩
    · rw [List.infix_nil, List.map_eq_nil_iff] at hnil
      rw [hnil]
      exact ⟨List.nil_infix, fun _ => List.nil_infix⟩

/-- The first text is written, or its write fails. -/
theorem WriteEvents.head {text : String} {texts : List String} {result : Except String Unit}
    {events : List DeviceEvent} (h : WriteEvents (text :: texts) result events) :
    ∃ done back, events = .write text done :: back := by
  cases h with
  | complete => exact ⟨true, _, rfl⟩
  | cut front last back error heq =>
    cases front with
    | nil =>
      obtain ⟨rfl, -⟩ := List.cons_eq_cons.1 heq
      exact ⟨false, [], rfl⟩
    | cons first front =>
      obtain ⟨rfl, -⟩ := List.cons_eq_cons.1 heq
      exact ⟨true, _, rfl⟩

/-! ## Texts of markup -/

namespace Writer

/-- The indentation at a depth. -/
def indentation (depth : Nat) : String := String.ofList (List.replicate (2 * depth) ' ')

/-- A writer that has begun writes a line break, the indentation and the markup. -/
theorem texts_of_started {writer : Writer ω} (hstarted : writer.started = true) (markup : Markup) :
    writer.texts markup =
      "\n" :: ([indentation (depthAt writer.depth markup)].filter (!·.isEmpty) ++
        markup.pieces.filter (!·.isEmpty)) := by
  rw [texts, if_pos hstarted, ← List.filter_append]
  rfl

theorem indentation_notMem (depth : Nat) :
    indentation depth ∉ (Markup.closing "symbols").pieces := by
  have hspace : ∀ char ∈ (indentation depth).toList, char = ' ' := by
    intro char hmem
    rw [indentation, String.toList_ofList] at hmem
    exact List.eq_of_mem_replicate hmem
  intro hmem
  simp only [Markup.pieces, List.mem_cons, List.not_mem_nil, or_false] at hmem
  rcases hmem with h | h | h <;> rw [h] at hspace
  · exact absurd (hspace '<' (by decide)) (by decide)
  · exact absurd (hspace 's' (by decide)) (by decide)
  · exact absurd (hspace '>' (by decide)) (by decide)

/-- Neither the line break nor the indentation is part of the closing tag. -/
theorem infix_of_infix_texts {depth : Nat} {texts : List String}
    (h : (Markup.closing "symbols").pieces <:+:
      "\n" :: ([indentation depth].filter (!·.isEmpty) ++ texts)) :
    (Markup.closing "symbols").pieces <:+: texts := by
  have hrest := infix_of_infix_cons (by decide) h
  rw [List.filter_singleton] at hrest
  cases hempty : (indentation depth).isEmpty with
  | true =>
    rw [hempty] at hrest
    exact hrest
  | false =>
    rw [hempty] at hrest
    exact infix_of_infix_cons (indentation_notMem depth) hrest

/-- The closing tag of the outermost element stands in the texts of no other markup. -/
theorem eq_closing_of_infix_texts {writer : Writer ω} (hstarted : writer.started = true)
    {markup : Markup} (h : (Markup.closing "symbols").pieces <:+: writer.texts markup) :
    markup = .closing "symbols" := by
  rw [texts_of_started hstarted] at h
  have hsublist := (infix_of_infix_texts h).sublist.trans List.filter_sublist
  have hpieces := hsublist.eq_of_length (by cases markup <;> rfl)
  cases markup <;> simp [Markup.pieces] at hpieces
  rw [hpieces]

/-- The closing tag of the outermost element is complete only with its very last text. -/
theorem not_infix_dropLast_texts {writer : Writer ω} (hstarted : writer.started = true) :
    ¬ (Markup.closing "symbols").pieces <:+: (writer.texts (.closing "symbols")).dropLast := by
  intro h
  have hpieces : (Markup.closing "symbols").pieces.filter (!·.isEmpty) =
      ["</", "symbols"] ++ [">"] := by decide
  rw [texts_of_started hstarted, hpieces, ← List.append_assoc, ← List.cons_append,
    List.dropLast_concat] at h
  have hlength := (infix_of_infix_texts h).length_le
  exact absurd hlength (by decide)

/-- The closing tag of the outermost element ends with its pieces. -/
theorem rootEnd_suffix_texts {writer : Writer ω} (hstarted : writer.started = true) :
    rootEnd <:+ (writer.texts (.closing "symbols")).map (.write · true) := by
  have hpieces : (Markup.closing "symbols").pieces.filter (!·.isEmpty) =
      (Markup.closing "symbols").pieces := by decide
  rw [texts_of_started hstarted, hpieces, ← List.cons_append, List.map_append]
  exact List.suffix_append _ _

end Writer

/-! ## Events of markup -/

namespace Store

variable {store : Store (ω × List DeviceEvent)}

/-- The closing tag of the outermost element was seen before some markup was written, unless it was
written then. -/
theorem rootEnd_of_writeEvents {markup : Markup} {result : Except String Unit}
    {events : List DeviceEvent} (hstarted : store.writer.started = true)
    (hevents : WriteEvents (store.writer.texts markup) result events)
    (h : rootEnd <:+: store.seen ++ events) :
    rootEnd <:+: store.seen ∨ markup = .closing "symbols" ∧ result = .ok () := by
  have htexts := Writer.texts_of_started hstarted markup
  -- the line break that comes first is not part of the tag
  obtain ⟨done, back, hbreak⟩ : ∃ done back, events = .write "\n" done :: back := by
    rw [htexts] at hevents
    exact hevents.head
  have hitem : DeviceEvent.write "\n" done ∉ rootEnd := by simp [rootEnd, Markup.pieces]
  rw [hbreak] at h
  refine ((infix_append_cons_iff hitem).1 h).imp_right fun hback => ?_
  have hinfix : rootEnd <:+: events := by
    rw [hbreak]
    exact hback.trans (List.suffix_cons _ _).isInfix
  obtain ⟨hall, hcut⟩ := hevents.infix_texts hinfix
  obtain rfl := Writer.eq_closing_of_infix_texts hstarted hall
  refine ⟨rfl, by_contra fun hne => ?_⟩
  exact Writer.not_infix_dropLast_texts hstarted (hcut hne)

/-- A store on which nothing was written does not end with its declaration. -/
theorem not_rootEnd_of_declaration {result : Except String Unit} {events : List DeviceEvent}
    (hstarted : store.writer.started = false)
    (hevents : WriteEvents (store.writer.texts .declaration) result events) :
    ¬ rootEnd <:+: events := by
  intro h
  have hinfix := (hevents.infix_texts h).1
  rw [Writer.texts, if_neg (by simp [hstarted])] at hinfix
  exact absurd hinfix (by decide)

end Store

end DebugSymbols.Xml
