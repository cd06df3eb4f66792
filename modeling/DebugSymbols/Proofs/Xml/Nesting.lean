import DebugSymbols.Proofs.Xml.Values
import DebugSymbols.Proofs.Xml.Writing

/-!
# The tags of an XML store are nested

A store does not enforce the protocol: a method may be opened within a scope, and a variable may
stand anywhere. What it writes is nested all the same, whatever is asked of it and in whatever
order, because a closing tag is written only for the innermost open element, and the elements it
counts as open are those of its text. The outermost element is closed once at most, and nothing
follows it.
-/

namespace DebugSymbols.Xml

variable {ω : Type} {device : Device ω} {content : ω → String} {names : Option Names}

/-! ## Markup that fits -/

/-- An attribute that can stand in a tag. -/
structure Attribute.Fits (item : Attribute) : Prop where
  is_name : IsName item.key
  value_fits : AttributeValue item.value.toList

theorem Attribute.fits_plain {key value : String} (hvalue : HasNoMarkup value)
    (hkey : IsName key := by decide) : (plain key value).Fits :=
  ⟨hkey, .of_plain hvalue⟩

theorem Attribute.fits_free {key : String} (value : String) (hkey : IsName key := by decide) :
    (free key value).Fits :=
  ⟨hkey, attributeValue_of_free value⟩

/-- The attributes of a tag follow one another. -/
theorem attributesText_join {attributes : List Attribute}
    (h : ∀ item ∈ attributes, item.Fits) :
    AttributesText (String.join (attributes.map Attribute.text)) := by
  induction attributes with
  | nil => exact .nil
  | cons item attributes ih =>
    obtain ⟨⟨hkey, hvalue⟩, hrest⟩ := List.forall_mem_cons.1 h
    rw [List.map_cons, String.join_cons]
    exact .cons hkey hvalue (ih hrest)

/-- A tag that can be written. -/
structure Tag.Fits (tag : Tag) : Prop where
  is_name : IsName tag.name
  attributes_fit : ∀ item ∈ tag.attributes, item.Fits

namespace Markup

/-- Whether a piece of markup may stand within open elements. -/
def FitsIn (elements : List String) : Markup → Prop
  | declaration => False
  | opening tag | single tag => tag.Fits
  | closing name => elements.head? = some name

/-- Pieces of markup each of which may stand behind the ones before it. -/
def Nested : List String → List Markup → Prop
  | _, [] => True
  | elements, markup :: rest => markup.FitsIn elements ∧ Nested (nest elements markup) rest

/-- Elements without content may stand anywhere. -/
theorem nested_singles {α : Type} {items : List α} {tag : α → Tag} {elements : List String}
    {back : List Markup} (hfits : ∀ item, (tag item).Fits) (hback : Nested elements back) :
    Nested elements (items.map (fun item => single (tag item)) ++ back) := by
  induction items with
  | nil => exact hback
  | cons item items ih => exact ⟨hfits item, ih⟩

/-- Nested markup leaves the elements around it alone. -/
theorem Nested.foldl_nest_append {inner : List String} {markups : List Markup}
    (h : Nested inner markups) (outer : List String) :
    markups.foldl nest (inner ++ outer) = markups.foldl nest inner ++ outer := by
  induction markups generalizing inner with
  | nil => rfl
  | cons markup markups ih =>
    obtain ⟨hfits, hrest⟩ := h
    have hnest : nest (inner ++ outer) markup = nest inner markup ++ outer := by
      cases markup with
      | closing name =>
        obtain ⟨_, rfl⟩ := List.head?_eq_some_iff.1 hfits
        rfl
      | _ => rfl
    rw [List.foldl_cons, List.foldl_cons, hnest, ih hrest]

end Markup

namespace TagText

open Markup

/-- A line of markup goes on with a text of nested tags. -/
theorem line {text : String} {elements : List String} {markup : Markup}
    (h : TagText text elements) (hfits : FitsIn elements markup) (depth : Nat) :
    TagText (text ++ markup.line depth) (nest elements markup) := by
  have hbreak := h.lineBreak (2 * Writer.depthAt depth markup)
  cases markup with
  | declaration => exact hfits.elim
  | opening tag =>
    have htag := hbreak.opening hfits.is_name (attributesText_join hfits.attributes_fit)
    show TagText _ (tag.name :: elements)
    simpa [Markup.line, Writer.lineBreak, pieces, Tag.text, String.append_assoc] using htag
  | single tag =>
    have htag := hbreak.single hfits.is_name (attributesText_join hfits.attributes_fit)
    show TagText _ elements
    simpa [Markup.line, Writer.lineBreak, pieces, Tag.text, String.append_assoc] using htag
  | closing name =>
    obtain ⟨outer, rfl⟩ := List.head?_eq_some_iff.1 hfits
    show TagText _ outer
    simpa [Markup.line, Writer.lineBreak, pieces, String.append_assoc] using hbreak.closing

/-- Lines of nested markup go on with a text of nested tags. -/
theorem lines {text : String} {elements : List String} {markups : List Markup}
    (h : TagText text elements) (hnested : Nested elements markups) (depth : Nat) :
    TagText (text ++ Markup.lines depth markups) (markups.foldl nest elements) := by
  induction markups generalizing text elements depth with
  | nil =>
    rw [Markup.lines, String.append_empty]
    exact h
  | cons markup markups ih =>
    rw [Markup.lines, ← String.append_assoc]
    exact ih (h.line hnested.1 depth) hnested.2 _

end TagText

/-! ## The markup of calls -/

namespace Store

open Attribute (fits_plain fits_free)

theorem tokenTag_fits (names : Option Names) {name : String} (token : Token)
    (hname : IsName name := by decide) : (tokenTag names name token).Fits := by
  refine ⟨hname, List.forall_mem_cons.2 ⟨fits_plain (.token token), ?_⟩⟩
  intro item hmem
  split at hmem
  · rw [List.mem_singleton.1 hmem]
    exact fits_free _
  · cases hmem

theorem documentTag_fits (handle : Nat) (document : Document) :
    (documentTag handle document).Fits := by
  refine ⟨(by decide : IsName "document"), ?_⟩
  simp only [documentTag, List.forall_mem_cons]
  exact ⟨fits_plain (.decimal handle), fits_free _, fits_plain (.guid _), fits_plain (.guid _),
    fits_plain (.guid _), List.forall_mem_nil _⟩

theorem pointTag_fits (point : SequencePoint) : (pointTag point).Fits := by
  refine ⟨(by decide : IsName "entry"), List.forall_mem_cons.2 ⟨fits_plain (.hexOffset _), ?_⟩⟩
  split
  · exact List.forall_mem_singleton.2 (fits_plain (by decide))
  · simp only [List.forall_mem_cons]
    exact ⟨fits_plain (.decimal _), fits_plain (.decimal _), fits_plain (.decimal _),
      fits_plain (.decimal _), List.forall_mem_nil _⟩

theorem variableTag_fits (local_ : LocalVariable) : (variableTag local_).Fits := by
  refine ⟨(by decide : IsName "local"), ?_⟩
  simp only [variableTag, List.forall_mem_cons]
  exact ⟨fits_free _, fits_plain (.decimal _), fits_plain (.token _),
    fits_plain (.addressKind _), fits_plain (.hexOffset _), fits_plain (.hexOffset _),
    fits_plain (.decimal _), List.forall_mem_nil _⟩

theorem constantTag_fits (name : String) (value : ConstantValue) (signature : Token) :
    (constantTag name value signature).Fits := by
  refine ⟨(by decide : IsName "constant"), ?_⟩
  simp only [constantTag, List.forall_mem_cons]
  exact ⟨fits_free _, fits_plain (.kind _), fits_free _, fits_plain (.token _),
    List.forall_mem_nil _⟩

theorem attributeTag_fits (parent : Token) (name : String) (data : List UInt8) :
    (attributeTag parent name data).Fits := by
  refine ⟨(by decide : IsName "attribute"), ?_⟩
  simp only [attributeTag, List.forall_mem_cons]
  exact ⟨fits_plain (.token _), fits_free _, fits_plain (.upperHexBytes _),
    List.forall_mem_nil _⟩

/-- A tag with a single attribute that has nothing to escape. -/
theorem fits_single {name key value : String} (hvalue : HasNoMarkup value)
    (hname : IsName name := by decide) (hkey : IsName key := by decide) :
    Tag.Fits ⟨name, [.plain key value]⟩ :=
  ⟨hname, List.forall_mem_singleton.2 (fits_plain hvalue hkey)⟩

/-- What is written for a call that is taken, other than closing the store, is nested within the
outermost element. -/
theorem nested_callMarkup {store : Store ω} {inner : List String} {call : Call}
    (names : Option Names) (handle : Nat) (helements : store.openElements = inner ++ ["symbols"])
    (htakes : store.Takes call) (hclose : call ≠ .issue .close) :
    Markup.Nested inner (callMarkup names handle call) := by
  -- an element that is closed is not the outermost one
  have hinner : ∀ name, name ≠ "symbols" → store.openElements.head? = some name →
      inner.head? = some name := by
    intro name hne hhead
    rw [helements] at hhead
    cases inner with
    | nil => exact absurd (Option.some.inj hhead).symm hne
    | cons _ _ => exact hhead
  rcases call with document | command
  · exact ⟨documentTag_fits handle document, trivial⟩
  cases command with
  | setUserEntryPoint method => exact ⟨tokenTag_fits names method, trivial⟩
  | openMethod method => exact ⟨tokenTag_fits names method, trivial⟩
  | closeMethod => exact ⟨hinner "method" (by decide) htakes.2, trivial⟩
  | openScope start => exact ⟨fits_single (.hexOffset start), trivial⟩
  | closeScope stop =>
    exact ⟨fits_single (.hexOffset stop), hinner "scope" (by decide) htakes.2, trivial⟩
  | defineSequencePoints document batch =>
    exact ⟨fits_single (.decimal document.index),
      Markup.nested_singles pointTag_fits ⟨rfl, trivial⟩⟩
  | defineLocalVariable local_ => exact ⟨variableTag_fits local_, trivial⟩
  | defineConstant name value signature =>
    exact ⟨constantTag_fits name value signature, trivial⟩
  | setSymbolAttribute parent name data => exact ⟨attributeTag_fits parent name data, trivial⟩
  | close => exact absurd rfl hclose

/-! ## Any sequence of requests -/

/-- What a store has written: the outermost element behind a front, with nested tags within. Either
it is open, and so are the elements within it that the tags leave open, or it is closed and the
store is finished. -/
inductive Written (content : ω → String) (front : String) (store : Store ω) : Prop
  | within (inner : List String) (body : String) (nested : TagText body inner)
      (openElements_eq : store.openElements = inner ++ ["symbols"])
      (text_eq : store.text content = front ++ "\n<symbols>" ++ body)
  | complete (body : String) (nested : TagText body [])
      (openElements_eq : store.openElements = []) (finished_eq : store.finished = true)
      (text_eq : store.text content = front ++ "\n<symbols>" ++ body ++ "\n</symbols>")

variable {front : String} {store after : Store ω}

/-- A new store has opened the outermost element. -/
theorem written_start (h : device.Reliable content) (state : ω) :
    (start device state).1 = .ok () ∧ (start device state).2.Ready ∧
      Written content (content state ++ "<?xml version=\"1.0\" encoding=\"utf-8\"?>")
        (start device state).2 := by
  obtain ⟨store, hstart, hready, htext, helements, -, -⟩ := start_of_reliable h state
  have hhead : head = "<?xml version=\"1.0\" encoding=\"utf-8\"?>" ++ "\n<symbols>" := by
    decide +kernel
  rw [hstart]
  refine ⟨rfl, hready, .within [] "" .nil helements ?_⟩
  rw [htext, hhead, String.append_empty, String.append_assoc]

/-- A store that takes the call to close it is complete thereafter. -/
theorem Written.closed (h : Written content front store) (htakes : store.Takes (.issue .close))
    (htook : Took content names (.issue .close) store after) :
    ∃ body, TagText body [] ∧ after.openElements = [] ∧ after.finished = true ∧
      after.text content = front ++ "\n<symbols>" ++ body ++ "\n</symbols>" := by
  obtain ⟨hopen, hsymbols⟩ := htakes
  rcases h with ⟨inner, body, hnested, helements, htext⟩ | ⟨-, -, -, hfinished, -⟩
  · -- nothing is open within the outermost element
    have hinner : inner ++ ["symbols"] = [] ++ ["symbols"] := helements.symm.trans hsymbols
    obtain rfl := List.append_cancel_right hinner
    refine ⟨body, hnested, ?_, htook.finished_eq, ?_⟩
    · rw [htook.openElements_eq, hsymbols]
      rfl
    · rw [htook.text_eq, htext, hsymbols]
      rfl
  · exact absurd (hopen.symm.trans hfinished) Bool.false_ne_true

/-- A call that is taken keeps the tags nested. -/
theorem Written.took (h : Written content front store) {call : Call} (htakes : store.Takes call)
    (htook : Took content names call store after) : Written content front after := by
  by_cases hclose : call = .issue .close
  · subst hclose
    obtain ⟨body, hnested, helements, hfinished, htext⟩ := h.closed htakes htook
    exact .complete body hnested helements hfinished htext
  rcases h with ⟨inner, body, hnested, helements, htext⟩ | ⟨-, -, -, hfinished, -⟩
  · have hmarkup := nested_callMarkup names store.nextHandle helements htakes hclose
    refine .within _ _ (hnested.lines hmarkup store.openElements.length) ?_ ?_
    · rw [htook.openElements_eq, helements, hmarkup.foldl_nest_append]
    · rw [htook.text_eq, htext, String.append_assoc]
  · exact absurd (htakes.1.symm.trans hfinished) Bool.false_ne_true

/-- A call that is refused leaves the store as it is. -/
theorem serve_of_not_takes (device : Device ω) (names : Option Names) {call : Call}
    (hrefuses : ¬ store.Takes call) :
    (storeSink device names).serve store (.call call) = store := by
  obtain ⟨error, herror⟩ := perform_of_not_takes device names hrefuses
  rw [Sink.serve, herror]

/-- A finished store does not change any more. -/
theorem serve_of_finished (device : Device ω) (names : Option Names)
    (hfinished : store.finished = true) (request : Request) :
    (storeSink device names).serve store request = store := by
  cases request with
  | call call =>
    refine serve_of_not_takes device names fun htakes => ?_
    exact absurd (htakes.1.symm.trans hfinished) Bool.false_ne_true
  | abort =>
    show (giveUp device store).2 = store
    rw [giveUp, if_pos hfinished]

/-- Giving a store up flushes the device, and finishes the store. -/
theorem serve_abort (h : device.Reliable content) (names : Option Names)
    (hfinished : store.finished = false) :
    ∃ state, content state = store.text content ∧
      (storeSink device names).serve store .abort =
        { store with writer := { store.writer with device := state }, finished := true } := by
  obtain ⟨state, hflush, hcontent⟩ := h.flush store.writer.device
  refine ⟨state, hcontent, ?_⟩
  show (giveUp device store).2 = _
  rw [giveUp, if_neg (by simp [hfinished]), Writer.flush, hflush]

/-- Whatever is asked of a store, its tags stay nested. -/
theorem Written.serve (hdevice : device.Reliable content) (hready : store.Ready)
    (h : Written content front store) (request : Request) :
    ((storeSink device names).serve store request).Ready ∧
      Written content front ((storeSink device names).serve store request) := by
  by_cases hfinished : store.finished = true
  · rw [serve_of_finished device names hfinished]
    exact ⟨hready, h⟩
  rcases request with call | _
  · by_cases htakes : store.Takes call
    · obtain ⟨after, hperform, htook⟩ := perform_of_takes hdevice names hready htakes
      rw [Sink.serve, hperform]
      exact ⟨htook.ready, h.took htakes htook⟩
    · rw [serve_of_not_takes device names htakes]
      exact ⟨hready, h⟩
  · obtain ⟨state, hcontent, hserve⟩ := serve_abort hdevice names (Bool.of_not_eq_true hfinished)
    rw [hserve]
    refine ⟨⟨hready.1, hready.2⟩, ?_⟩
    rcases h with ⟨inner, body, hnested, helements, htext⟩ | ⟨-, -, -, hended, -⟩
    · exact .within inner body hnested helements (hcontent.trans htext)
    · exact absurd hended hfinished

/-- Whatever is asked of a store in whatever order, its tags stay nested. -/
theorem Written.run (hdevice : device.Reliable content) (names : Option Names)
    (hready : store.Ready) (h : Written content front store) (requests : List Request) :
    (requests.foldl (storeSink device names).serve store).Ready ∧
      Written content front (requests.foldl (storeSink device names).serve store) := by
  induction requests generalizing store with
  | nil => exact ⟨hready, h⟩
  | cons request requests ih =>
    obtain ⟨hready', hwritten⟩ := h.serve hdevice hready request
    exact ih hready' hwritten

/-- The text of a store is nested, and leaves open what the store counts as open. -/
theorem Written.tagText (h : Written content front store) :
    ∃ tags, store.text content = front ++ tags ∧ TagText tags store.openElements := by
  have hsymbols : TagText "\n<symbols>" ["symbols"] :=
    (TagText.lineBreak 0 .nil).opening (by decide : IsName "symbols") .nil
  rcases h with ⟨inner, body, hnested, helements, htext⟩ | ⟨body, hnested, helements, -, htext⟩
  · refine ⟨"\n<symbols>" ++ body, ?_, ?_⟩
    · rw [htext, String.append_assoc]
    · rw [helements]
      exact hsymbols.append hnested
  · refine ⟨"\n<symbols>" ++ body ++ "\n</symbols>", ?_, ?_⟩
    · rw [htext, String.append_assoc, String.append_assoc, String.append_assoc]
    · have hend : "\n</symbols>" =
          "\n" ++ String.ofList (List.replicate 0 ' ') ++ "</" ++ "symbols" ++ ">" := by decide
      rw [helements, hend]
      simp only [← String.append_assoc]
      exact ((hsymbols.append hnested).lineBreak 0).closing

end Store

/-! ## Any names -/

theorem exists_names_on (resolve : Token → Option Member) (tokens : List Token) :
    ∃ names : Names, ∀ token,
      names.get? token = if token ∈ tokens then resolve token else none := by
  induction tokens with
  | nil => exact ⟨.empty, fun _ => rfl⟩
  | cons first tokens ih =>
    obtain ⟨names, hnames⟩ := ih
    cases hfirst : resolve first with
    | none =>
      refine ⟨names, fun token => ?_⟩
      rw [hnames]
      grind
    | some member =>
      refine ⟨names.insert first member, fun token => ?_⟩
      rw [Dictionary.get?_insert, hnames]
      grind

/-- Any way to name tokens is a dictionary, because there are finitely many tokens. -/
theorem exists_names (resolve : Token → Option Member) :
    ∃ names : Names, ∀ token, names.get? token = resolve token := by
  obtain ⟨names, hnames⟩ :=
    exists_names_on resolve ((List.range UInt32.size).map fun n => ⟨UInt32.ofNat n⟩)
  refine ⟨names, fun token => (hnames token).trans (if_pos ?_)⟩
  exact List.mem_map.2 ⟨token.value.toNat, List.mem_range.2 token.value.toNat_lt,
    congrArg Token.mk UInt32.ofNat_toNat⟩

/-! ## The text -/

/-- What an XML store writes is nested, whatever is asked of it and in whatever order, on a device
that never fails. The store starts. Its text is the declaration, and behind it a text of nested tags
that leaves open just the elements that the store counts as open. A call that is refused leaves the
store as it was, with its text, its open elements and its next handle. Once the store was closed,
its text is one element `symbols` with nothing open within, and stays this whatever is asked. The
names may be those of any resolver, as each of them is given by a dictionary. -/
theorem store_text_nested (hdevice : device.Reliable content) (names : Option Names) (state : ω)
    (requests : List Request) :
    let sink := storeSink device names
    let store := requests.foldl sink.serve (Store.start device state).2
    let front := content state ++ "<?xml version=\"1.0\" encoding=\"utf-8\"?>"
    (Store.start device state).1 = .ok () ∧
    (∃ tags, store.text content = front ++ tags ∧
      ∀ elements, TagText tags elements ↔ elements = store.openElements) ∧
    (∀ call error, ((sink.perform call).outcome store).1 = .error error →
      sink.serve store (.call call) = store) ∧
    (∀ answer, ((sink.perform (.issue .close)).outcome store).1 = .ok answer →
      ∃ body, TagText body [] ∧
        ∀ more : List Request,
          let last := more.foldl sink.serve (sink.serve store (.call (.issue .close)))
          last.openElements = [] ∧
            last.text content = front ++ "\n<symbols>" ++ body ++ "\n</symbols>") ∧
    ∀ resolve : Token → Option Member,
      ∃ known : Names, ∀ token, known.get? token = resolve token := by
  intro sink store front
  obtain ⟨hstart, hfresh, hwritten⟩ := Store.written_start hdevice state
  obtain ⟨hready, hstore⟩ := hwritten.run hdevice names hfresh requests
  obtain ⟨tags, htext, htags⟩ := hstore.tagText
  refine ⟨hstart, ⟨tags, htext, fun elements => ?_⟩, ?_, ?_, exists_names⟩
  · exact ⟨fun hother => hother.elements_unique htags, fun heq => heq ▸ htags⟩
  · intro call error herror
    have hrefuses := Store.not_takes_of_perform_error hdevice hready herror
    exact Store.serve_of_not_takes device names hrefuses
  · intro answer hanswer
    have htakes : store.Takes (.issue .close) := Store.takes_of_perform_ok hanswer
    obtain ⟨closed, hperform, htook⟩ := Store.perform_of_takes hdevice names hready htakes
    have hserve : sink.serve store (.call (.issue .close)) = closed := congrArg Prod.snd hperform
    obtain ⟨body, hnested, helements, hfinished, htext⟩ := hstore.closed htakes htook
    refine ⟨body, hnested, fun more => ?_⟩
    have hlast : more.foldl sink.serve (sink.serve store (.call (.issue .close))) = closed := by
      rw [hserve]
      exact List.foldl_fixed' (Store.serve_of_finished device names hfinished) more
    rw [hlast]
    exact ⟨helements, htext⟩

/-- A method within a scope, which no protocol allows, and a constant with markup in its name; the
scope cannot be closed. A new store can be closed, and is not given up thereafter. -/
theorem store_text_nested_textDevice :
    let sink := storeSink textDevice none
    let new := (Store.start textDevice "").2
    let front := "<?xml version=\"1.0\" encoding=\"utf-8\"?>"
    let requests : List Request := [.call (.issue (.openScope 0)),
      .call (.issue (.openMethod ⟨0x06000001⟩)), .call (.issue .close),
      .call (.issue (.defineConstant "<c>" .null ⟨0⟩))]
    let store := requests.foldl sink.serve new
    (∃ tags, store.text id = front ++ tags ∧
      ∀ elements, TagText tags elements ↔ elements = ["method", "scope", "symbols"]) ∧
      sink.serve store (.call (.issue (.closeScope 4))) = store ∧
        ∃ body, TagText body [] ∧
          (sink.serve (sink.serve new (.call (.issue .close))) .abort).text id =
            front ++ "\n<symbols>" ++ body ++ "\n</symbols>" := by
  intro sink new front requests store
  obtain ⟨-, htags, hrefused, -⟩ := store_text_nested reliable_textDevice none "" requests
  obtain ⟨-, -, -, hclosed, -⟩ := store_text_nested reliable_textDevice none "" []
  refine ⟨htags, hrefused (.issue (.closeScope 4)) _ rfl, ?_⟩
  obtain ⟨body, hnested, hlast⟩ := hclosed none rfl
  exact ⟨body, hnested, (hlast [.abort]).2⟩

end DebugSymbols.Xml
