import Mathlib.Data.List.Basic

/-!
# Texts of nested tags

`TagText text elements` says that a text is a sequence of tags and white space in which every
closing tag closes the innermost open element, and that `elements` are the elements still open at
its end. Values of attributes hold no `<`, no `"`, and `&` only at the start of a reference.

A `Reader` goes through a text character by character. It finds the elements that a text of nested
tags leaves open, so they are determined by the text.
-/

namespace DebugSymbols.Xml

/-! ## The grammar -/

/-- A digit of a hexadecimal number. -/
def IsHexDigit (c : Char) : Prop := c.isDigit ∨ ('a' ≤ c ∧ c ≤ 'f') ∨ ('A' ≤ c ∧ c ≤ 'F')

instance (c : Char) : Decidable (IsHexDigit c) := inferInstanceAs (Decidable (_ ∨ _ ∨ _))

/-- What stands between `&` and `;` in a reference to a character: the name of a predefined entity,
or the number of the character. -/
inductive ReferenceBody : List Char → Prop
  | entity {name : List Char}
      (predefined : name ∈ ["amp", "lt", "gt", "quot", "apos"].map String.toList) :
      ReferenceBody name
  | decimal {digits : List Char} (ne_nil : digits ≠ []) (digit : ∀ c ∈ digits, c.isDigit) :
      ReferenceBody ('#' :: digits)
  | hexadecimal {digits : List Char} (ne_nil : digits ≠ []) (digit : ∀ c ∈ digits, IsHexDigit c) :
      ReferenceBody ('#' :: 'x' :: digits)

/-- A character that markup does not use in the value of an attribute. -/
def IsPlain (c : Char) : Prop := c ≠ '<' ∧ c ≠ '&' ∧ c ≠ '"'

instance (c : Char) : Decidable (IsPlain c) := inferInstanceAs (Decidable (_ ∧ _ ∧ _))

/-- The value of an attribute in double quotes. -/
inductive AttributeValue : List Char → Prop
  | nil : AttributeValue []
  | plain {c : Char} {rest : List Char} (plain : IsPlain c) (tail : AttributeValue rest) :
      AttributeValue (c :: rest)
  | reference {body rest : List Char} (reference : ReferenceBody body)
      (tail : AttributeValue rest) : AttributeValue ('&' :: (body ++ ';' :: rest))

/-- A name of letters. -/
def IsName (name : String) : Prop := name.toList ≠ [] ∧ ∀ c ∈ name.toList, c.isAlpha

instance (name : String) : Decidable (IsName name) :=
  decidable_of_iff (name.toList ≠ [] ∧ name.toList.all Char.isAlpha) (by rw [List.all_eq_true]; rfl)

/-- Attributes, each of them behind a space. -/
inductive AttributesText : String → Prop
  | nil : AttributesText ""
  | cons {key value rest : String} (key_name : IsName key)
      (value_fits : AttributeValue value.toList) (tail : AttributesText rest) :
      AttributesText (" " ++ key ++ "=\"" ++ value ++ "\"" ++ rest)

/-- A text of nested tags, with the elements that are still open, the innermost first. -/
inductive TagText : String → List String → Prop
  | nil : TagText "" []
  | lineBreak {text : String} {elements : List String} (count : Nat)
      (before : TagText text elements) :
      TagText (text ++ "\n" ++ String.ofList (List.replicate count ' ')) elements
  | opening {text name attributes : String} {elements : List String}
      (before : TagText text elements) (is_name : IsName name)
      (fit : AttributesText attributes) :
      TagText (text ++ "<" ++ name ++ attributes ++ ">") (name :: elements)
  | single {text name attributes : String} {elements : List String}
      (before : TagText text elements) (is_name : IsName name)
      (fit : AttributesText attributes) :
      TagText (text ++ "<" ++ name ++ attributes ++ "/>") elements
  | closing {text name : String} {elements : List String}
      (before : TagText text (name :: elements)) :
      TagText (text ++ "</" ++ name ++ ">") elements

/-- A text of nested tags within open elements. -/
theorem TagText.append {front back : String} {outer inner : List String}
    (hfront : TagText front outer) (hback : TagText back inner) :
    TagText (front ++ back) (inner ++ outer) := by
  induction hback with
  | nil =>
    rw [String.append_empty]
    exact hfront
  | lineBreak count before ih =>
    rw [← String.append_assoc, ← String.append_assoc]
    exact .lineBreak count ih
  | opening before is_name fit ih =>
    simp only [← String.append_assoc]
    exact .opening ih is_name fit
  | single before is_name fit ih =>
    simp only [← String.append_assoc]
    exact .single ih is_name fit
  | closing before ih =>
    simp only [← String.append_assoc]
    exact .closing ih

/-! ## Reading -/

theorem ReferenceBody.quote_notMem {body : List Char} (h : ReferenceBody body) : '"' ∉ body := by
  cases h with
  | entity predefined =>
    obtain ⟨name, hname, rfl⟩ := List.mem_map.1 predefined
    simp only [List.mem_cons, List.not_mem_nil, or_false] at hname
    rcases hname with rfl | rfl | rfl | rfl | rfl <;> decide
  | decimal _ digit =>
    rw [List.mem_cons, not_or]
    exact ⟨by decide, fun hmem => absurd (digit _ hmem) (by decide)⟩
  | hexadecimal _ digit =>
    rw [List.mem_cons, List.mem_cons, not_or, not_or]
    exact ⟨by decide, by decide, fun hmem => absurd (digit _ hmem) (by decide)⟩

/-- A value ends at the first quote. -/
theorem AttributeValue.quote_notMem {value : List Char} (h : AttributeValue value) :
    '"' ∉ value := by
  induction h with
  | nil => exact List.not_mem_nil
  | plain hplain _ ih => exact List.not_mem_cons_of_ne_of_not_mem hplain.2.2.symm ih
  | reference hreference _ ih =>
    simp [hreference.quote_notMem, ih]

/-- The elements that are open have names. -/
theorem TagText.isName {text : String} {elements : List String} (h : TagText text elements) :
    ∀ name ∈ elements, IsName name := by
  induction h with
  | nil => exact List.forall_mem_nil _
  | lineBreak _ _ ih => exact ih
  | opening _ is_name _ ih => exact List.forall_mem_cons.2 ⟨is_name, ih⟩
  | single _ _ _ ih => exact ih
  | closing _ ih => exact (List.forall_mem_cons.1 ih).2

/-- How far a text of tags has been read: outside of tags; within a tag, with what was seen of it
apart from values; or within a value. -/
inductive Reader
  | outside (elements : List String)
  | inside (seen : List Char) (elements : List String)
  | quoted (seen : List Char) (elements : List String)

namespace Reader

/-- The open elements behind a tag. -/
def leave (seen : List Char) (elements : List String) : List String :=
  if seen.head? = some '/' then elements.tail
  else if seen.getLast? = some '/' then elements
  else String.ofList (seen.takeWhile Char.isAlpha) :: elements

/-- Reads a character. -/
def read : Reader → Char → Reader
  | outside elements, c => if c = '<' then inside [] elements else outside elements
  | inside seen elements, c =>
    if c = '"' then quoted seen elements
    else if c = '>' then outside (leave seen elements)
    else inside (seen ++ [c]) elements
  | quoted seen elements, c => if c = '"' then inside seen elements else quoted seen elements

variable {seen : List Char} {elements : List String}

theorem foldl_read_stays {reader : Reader} {chars : List Char}
    (h : ∀ c ∈ chars, reader.read c = reader) : chars.foldl read reader = reader := by
  induction chars with
  | nil => rfl
  | cons c chars ih =>
    obtain ⟨hc, hchars⟩ := List.forall_mem_cons.1 h
    rw [List.foldl_cons, hc, ih hchars]

theorem foldl_read_quoted {value : List Char} (h : AttributeValue value) :
    value.foldl read (quoted seen elements) = quoted seen elements :=
  foldl_read_stays fun _ hmem => if_neg (ne_of_mem_of_not_mem hmem h.quote_notMem)

theorem foldl_read_inside {name : List Char} (h : ∀ c ∈ name, c.isAlpha) :
    name.foldl read (inside seen elements) = inside (seen ++ name) elements := by
  induction name generalizing seen with
  | nil => simp
  | cons c name ih =>
    obtain ⟨hc, hname⟩ := List.forall_mem_cons.1 h
    have hquote : c ≠ '"' := by rintro rfl; exact absurd hc (by decide)
    have hend : c ≠ '>' := by rintro rfl; exact absurd hc (by decide)
    rw [List.foldl_cons, read, if_neg hquote, if_neg hend, ih hname, List.append_assoc]
    rfl

/-- What is seen of attributes apart from their values: it begins with a space and ends with an
equals sign. -/
def KeysSeen (keys : List Char) : Prop := keys = [] ∨ ∃ middle, keys = ' ' :: (middle ++ ['='])

theorem foldl_read_attributes {attributes : String} (h : AttributesText attributes)
    (seen : List Char) (elements : List String) :
    ∃ keys, KeysSeen keys ∧
      attributes.toList.foldl read (inside seen elements) = inside (seen ++ keys) elements := by
  induction h generalizing seen with
  | nil => exact ⟨[], .inl rfl, by simp⟩
  | @cons key value rest key_name value_fits _ ih =>
    obtain ⟨keys, hkeys, hrest⟩ := ih (seen ++ ' ' :: (key.toList ++ ['=']))
    refine ⟨' ' :: (key.toList ++ ['=']) ++ keys, .inr ?_, ?_⟩
    · rcases hkeys with rfl | ⟨middle, rfl⟩
      · exact ⟨key.toList, by simp⟩
      · exact ⟨key.toList ++ '=' :: ' ' :: middle, by simp⟩
    · have hspace : " ".toList.foldl read (inside seen elements) =
          inside (seen ++ [' ']) elements := rfl
      have hequals : ∀ seen, "=\"".toList.foldl read (inside seen elements) =
          quoted (seen ++ ['=']) elements := fun _ => rfl
      have hend : ∀ seen, "\"".toList.foldl read (quoted seen elements) =
          inside seen elements := fun _ => rfl
      simp only [String.toList_append, List.foldl_append, hspace, foldl_read_inside key_name.2,
        hequals, foldl_read_quoted value_fits, hend]
      simpa using hrest

/-- A tag that begins with a name opens its element, unless it ends with a slash. -/
theorem leave_name (elements : List String) {name keys : List Char} (hne : name ≠ [])
    (halpha : ∀ c ∈ name, c.isAlpha) (hkeys : KeysSeen keys) :
    leave (name ++ keys) elements = String.ofList name :: elements ∧
      leave (name ++ keys ++ ['/']) elements = elements := by
  have hslash : '/' ∉ name := fun hmem => absurd (halpha _ hmem) (by decide)
  have hhead : ∀ back, (name ++ back).head? ≠ some '/' := by
    intro back hhead
    rw [List.head?_append_of_ne_nil _ hne] at hhead
    exact hslash (List.mem_of_mem_head? hhead)
  have hlast : (name ++ keys).getLast? ≠ some '/' := by
    rcases hkeys with rfl | ⟨middle, rfl⟩
    · rw [List.append_nil]
      exact fun hlast => hslash (List.mem_of_mem_getLast? hlast)
    · simp [List.getLast?_cons]
  have hname : (name ++ keys).takeWhile Char.isAlpha = name := by
    rw [List.takeWhile_append_of_pos halpha]
    rcases hkeys with rfl | ⟨middle, rfl⟩ <;> exact List.append_nil name
  constructor
  · rw [leave, if_neg (hhead keys), if_neg hlast, hname]
  · rw [leave, List.append_assoc, if_neg (hhead _), ← List.append_assoc, List.getLast?_concat,
      if_pos rfl]

/-- A reader finds the elements that a text of nested tags leaves open. -/
theorem foldl_read_of_tagText {text : String} (h : TagText text elements) :
    text.toList.foldl read (outside []) = outside elements := by
  have hopen : ∀ elements, "<".toList.foldl read (outside elements) = inside [] elements :=
    fun _ => rfl
  have hclose : ∀ seen elements,
      ">".toList.foldl read (inside seen elements) = outside (leave seen elements) :=
    fun _ _ => rfl
  induction h with
  | nil => simp
  | lineBreak count _ ih =>
    simp only [String.toList_append, String.toList_ofList, List.foldl_append, ih]
    refine foldl_read_stays fun c hmem => if_neg ?_
    rintro rfl
    simp at hmem
  | @opening _ name _ outer _ is_name fit ih =>
    obtain ⟨keys, hkeys, hread⟩ := foldl_read_attributes fit name.toList outer
    obtain ⟨hleave, -⟩ := leave_name outer is_name.1 is_name.2 hkeys
    simp only [String.toList_append, List.foldl_append, ih, hopen, foldl_read_inside is_name.2,
      List.nil_append, hread, hclose, hleave, String.ofList_toList]
  | @single _ name _ outer _ is_name fit ih =>
    obtain ⟨keys, hkeys, hread⟩ := foldl_read_attributes fit name.toList outer
    obtain ⟨-, hleave⟩ := leave_name outer is_name.1 is_name.2 hkeys
    have hslash : ∀ seen elements, "/>".toList.foldl read (inside seen elements) =
      outside (leave (seen ++ ['/']) elements) := fun _ _ => rfl
    simp only [String.toList_append, List.foldl_append, ih, hopen, foldl_read_inside is_name.2,
      List.nil_append, hread, hslash, hleave]
  | closing before ih =>
    have is_name := before.isName _ List.mem_cons_self
    have hslash : ∀ elements, "</".toList.foldl read (outside elements) = inside ['/'] elements :=
      fun _ => rfl
    simp only [String.toList_append, List.foldl_append, ih, hslash, foldl_read_inside is_name.2,
      hclose]
    rfl

end Reader

/-- A text of nested tags leaves open the same elements however it is read. -/
theorem TagText.elements_unique {text : String} {elements others : List String}
    (h : TagText text elements) (hothers : TagText text others) : elements = others :=
  Reader.outside.inj
    ((Reader.foldl_read_of_tagText h).symm.trans (Reader.foldl_read_of_tagText hothers))

end DebugSymbols.Xml
