import DebugSymbols.Proofs.Xml.Characters

/-!
# Values as they are read

`readValue` reads the value of an attribute in double quotes: it resolves the references to
characters and takes white space and line ends for spaces. Free text that was escaped is read as
the text itself, with the text that stands for a control character in place of each of them. So two
texts are escaped alike exactly if they are the same without their control characters.
-/

namespace DebugSymbols.Xml

/-! ## The reader -/

/-- The predefined entities, with what each of them stands for. -/
def entities : List (String × Char) :=
  [("amp", '&'), ("lt", '<'), ("gt", '>'), ("quot", '"'), ("apos", '\'')]

/-- The character with the number that some digits spell. There has to be a digit, and the
character has to be one that a document may hold. -/
def numbered? (base : Nat) (digits : List Char) : Option Char :=
  if digits = [] then none
  else ((Text.ofDigits? base digits).map Char.ofNat).filter documentChars.holds

/-- The character that a reference stands for, from what is between `&` and `;`. -/
def referenced? : List Char → Option Char
  | '#' :: 'x' :: digits => numbered? 16 digits
  | '#' :: digits => numbered? 10 digits
  | name => (entities.find? fun entity => entity.1.toList = name).map Prod.snd

/-- What is read of one character that markup does not use. -/
def normalized (c : Char) : Char := if c ∈ ['\t', '\n', '\r'] then ' ' else c

/-- What is read of a value, with some characters in front of it. -/
def prepend (front : List Char) (reading : List Char × List Char) : List Char × List Char :=
  (front ++ reading.1, reading.2)

/-- The value up to the quote that ends it, and what is left behind that quote. While a reference
is read, `reference` holds what was seen of it. Whether a document may hold the other characters of
the value is asked of `documentChars`, not of the reader. -/
def readValue (reference : Option (List Char)) : List Char → Option (List Char × List Char)
  | [] => none
  | c :: rest =>
    match reference with
    | some body =>
      if c = ';' then
        (referenced? body).bind fun named => (readValue none rest).map (prepend [named])
      else readValue (some (body ++ [c])) rest
    | none =>
      if c = '"' then some ([], rest)
      else if c = '<' then none
      else if c = '&' then readValue (some []) rest
      -- a carriage return with a line feed is one line end
      else if c = '\r' ∧ rest.head? = some '\n' then readValue none rest
      else (readValue none rest).map (prepend [normalized c])

example : readValue none "a\t\r\nb&#x9;&#65;&lt;\">".toList = some ("a  b\tA<".toList, ['>']) := by
  decide

/-! ## Reading what was escaped -/

/-- A reference is resolved once its end is seen. -/
theorem readValue_reference {body : List Char} (hbody : ';' ∉ body) (seen rest : List Char) :
    readValue (some seen) (body ++ ';' :: rest) =
      (referenced? (seen ++ body)).bind fun named =>
        (readValue none rest).map (prepend [named]) := by
  induction body generalizing seen with
  | nil => rw [List.nil_append, List.append_nil, readValue, if_pos rfl]
  | cons c body ih =>
    obtain ⟨hc, hbody⟩ := List.ne_and_not_mem_of_not_mem_cons hbody
    rw [List.cons_append, readValue, if_neg hc.symm, ih hbody, List.append_assoc]
    rfl

/-- A character that needs no reference is read as it is. -/
theorem readValue_plain {c : Char} (h : c ∉ markedChars) (rest : List Char) :
    readValue none (c :: rest) = (readValue none rest).map (prepend [c]) := by
  simp only [markedChars, List.mem_cons, List.not_mem_nil, or_false, not_or] at h
  obtain ⟨hamp, hlt, _, hquot, _, htab, hbreak, hreturn⟩ := h
  have hnormal : normalized c = c := by simp [normalized, htab, hbreak, hreturn]
  rw [readValue, if_neg hquot, if_neg hlt, if_neg hamp, if_neg fun hend => hreturn hend.1, hnormal]

theorem readValue_plains {text : List Char} (h : ∀ c ∈ text, c ∉ markedChars) (rest : List Char) :
    readValue none (text ++ rest) = (readValue none rest).map (prepend text) := by
  induction text with
  | nil => exact Option.map_id'.symm
  | cons c text ih =>
    obtain ⟨hc, htext⟩ := List.forall_mem_cons.1 h
    rw [List.cons_append, readValue_plain hc, ih htext, Option.map_map]
    rfl

/-- One escaped character is read as the character, or as the text that stands for it, whatever
follows. -/
theorem readValue_attributeChar (c : Char) (rest : List Char) :
    readValue none (Text.attributeChar c ++ rest) =
      (readValue none rest).map (prepend (shownChar c)) := by
  by_cases hmem : c ∈ markedChars
  · have hbody : ∀ c ∈ markedChars, ∃ body ∈ ["amp", "lt", "gt", "quot", "apos", "#x9", "#xA",
        "#xD"].map String.toList, Text.attributeChar c = '&' :: (body ++ [';']) ∧
          ';' ∉ body ∧ referenced? body = some c ∧ ¬ IsControl c :=
      List.all_iff_forall_prop.1 (by decide)
    -- the body has no `;` in it, so the reference ends where it was written to end
    obtain ⟨body, -, hchar, hends, hnamed, hcontrol⟩ := hbody c hmem
    rw [hchar, List.cons_append, List.append_assoc, List.singleton_append, readValue,
      if_neg (by decide), if_neg (by decide), if_pos rfl, readValue_reference hends,
      List.nil_append, hnamed, shownChar, if_neg hcontrol]
    rfl
  · -- the text of a control character is read like any text
    rw [attributeChar_of_notMem hmem]
    exact readValue_plains (fun d => notMem_markedChars_of_mem_shownChar hmem) rest

/-- Escaped text is read as the text without its control characters. -/
theorem readValue_attributeValue (text : String) (rest : List Char) :
    readValue none ((Text.attributeValue text).toList ++ '"' :: rest) =
      some (withoutControls text.toList, rest) := by
  rw [Text.attributeValue, String.toList_ofList]
  induction text.toList with
  | nil => rfl
  | cons c tail ih =>
    rw [List.flatMap_cons, List.append_assoc, readValue_attributeChar, ih]
    rfl

/-- Escaped text has none of the characters that end a value, or that a reader takes for white
space or for markup. -/
theorem notMem_attributeValue (text : String) {c : Char} (hc : c ∈ markedChars.erase '&') :
    c ∉ (Text.attributeValue text).toList := by
  intro hmem
  have hmarked : ∀ d ∈ markedChars,
      (Text.attributeChar d).all (fun c => c ∉ markedChars.erase '&') = true :=
    List.all_iff_forall_prop.1 (by decide)
  rw [Text.attributeValue, String.toList_ofList] at hmem
  obtain ⟨d, -, hd⟩ := List.mem_flatMap.1 hmem
  by_cases hmem : d ∈ markedChars
  · exact List.all_iff_forall_prop.1 (hmarked d hmem) c hd hc
  · rw [attributeChar_of_notMem hmem] at hd
    exact notMem_markedChars_of_mem_shownChar hmem hd (List.mem_of_mem_erase hc)

/-- A text without control characters stays as it is. -/
theorem withoutControls_eq_self {text : List Char} (h : ∀ c ∈ text, ¬ IsControl c) :
    withoutControls text = text := by
  calc withoutControls text
      = text.flatMap fun c => [c] := List.flatMap_congr fun c hc => if_neg (h c hc)
    _ = text := List.flatMap_singleton' text

/-- Escaped text is read as the text with every control character replaced by the text that stands
for it, so as the text itself if it has none; and it has no character in it that a reader would
take for a space, for markup or for the end of the value. The reader takes every other character as
it stands. Whether a document may hold it is not a matter of this theorem, but of the one on the
characters of escaped text in `DebugSymbols.Proofs.Xml.Characters`. -/
theorem escaped_text_read_back (text : String) (rest : List Char) :
    readValue none ((Text.attributeValue text).toList ++ '"' :: rest) =
        some (withoutControls text.toList, rest) ∧
      ((∀ c ∈ text.toList, ¬ IsControl c) →
        readValue none ((Text.attributeValue text).toList ++ '"' :: rest) =
          some (text.toList, rest)) ∧
      ∀ c ∈ ['<', '>', '"', '\'', '\t', '\n', '\r'], c ∉ (Text.attributeValue text).toList := by
  refine ⟨readValue_attributeValue text rest, fun hnone => ?_, fun c hc => ?_⟩
  · rw [readValue_attributeValue, withoutControls_eq_self hnone]
  · exact notMem_attributeValue text hc

theorem escaped_text_read_back_lookalikes :
    readValue none ((Text.attributeValue "a&#x9;\t\r\n&lt;<\"é").toList ++ '"' :: ">".toList) =
        some ("a&#x9;\t\r\n&lt;<\"é".toList, ">".toList) ∧
      '\n' ∉ (Text.attributeValue "a&#x9;\t\r\n&lt;<\"é").toList :=
  ⟨(escaped_text_read_back "a&#x9;\t\r\n&lt;<\"é" ">".toList).2.1
      (List.all_iff_forall_prop.1 (by decide)),
    (escaped_text_read_back "a&#x9;\t\r\n&lt;<\"é" ">".toList).2.2 '\n' (by decide)⟩

/-! ## Texts that are escaped alike -/

/-- The text that stands for a control character has none in it. -/
theorem not_isControl_of_mem_controlText {c d : Char} (hmem : d ∈ controlText c) :
    ¬ IsControl d := fun hcontrol => by
  have hlow := (isVisible_of_mem_controlText hmem).2.1
  have hhigh := hcontrol.1
  omega

theorem withoutControls_append (front back : List Char) :
    withoutControls (front ++ back) = withoutControls front ++ withoutControls back :=
  List.flatMap_append

theorem withoutControls_cons_of_isControl {c : Char} (h : IsControl c) (back : List Char) :
    withoutControls (c :: back) = controlText c ++ withoutControls back := by
  rw [withoutControls, List.flatMap_cons, shownChar, if_pos h, withoutControls]

/-- A control character is escaped as the text that stands for it is. -/
theorem flatMap_attributeChar_shownChar (c : Char) :
    (shownChar c).flatMap Text.attributeChar = Text.attributeChar c := by
  by_cases hcontrol : IsControl c
  · have hplain : ∀ d ∈ controlText c, Text.attributeChar d = [d] := fun d hd => by
      rw [attributeChar_of_notMem (isVisible_of_mem_controlText hd).1, shownChar,
        if_neg (not_isControl_of_mem_controlText hd)]
    rw [attributeChar_of_notMem hcontrol.notMem_markedChars, shownChar, if_pos hcontrol,
      List.flatMap_congr hplain, List.flatMap_singleton']
  · rw [shownChar, if_neg hcontrol, List.flatMap_singleton]

/-- Texts are escaped alike exactly if they are the same without their control characters. -/
theorem attributeValue_eq_iff {text other : String} :
    Text.attributeValue text = Text.attributeValue other ↔
      withoutControls text.toList = withoutControls other.toList := by
  constructor
  · intro halike
    have hread := readValue_attributeValue text []
    rw [halike, readValue_attributeValue, Option.some.injEq, Prod.mk.injEq] at hread
    exact hread.1.symm
  · -- a text is escaped like the text in which its control characters are replaced
    have hfactor : ∀ text : String, Text.attributeValue text =
        String.ofList ((withoutControls text.toList).flatMap Text.attributeChar) := fun text => by
      rw [withoutControls, List.flatMap_assoc, Text.attributeValue]
      exact congrArg String.ofList
        (List.flatMap_congr fun c _ => (flatMap_attributeChar_shownChar c).symm)
    intro hsame
    rw [hfactor text, hfactor other, hsame]

/-- A control character may be exchanged for the text that stands for it. -/
theorem attributeValue_exchange {c : Char} (h : IsControl c) (front back : List Char) :
    String.ofList (front ++ c :: back) ≠ String.ofList (front ++ controlText c ++ back) ∧
      Text.attributeValue (String.ofList (front ++ c :: back)) =
        Text.attributeValue (String.ofList (front ++ controlText c ++ back)) := by
  constructor
  · intro heq
    rw [String.ofList_inj, List.append_assoc, List.append_cancel_left_eq,
      ← List.singleton_append, List.append_cancel_right_eq] at heq
    exact not_isControl_of_mem_controlText (heq ▸ List.mem_singleton_self c) h
  · have htext : withoutControls (controlText c) = controlText c :=
      withoutControls_eq_self fun _ => not_isControl_of_mem_controlText
    rw [attributeValue_eq_iff, String.toList_ofList, String.toList_ofList,
      withoutControls_append, withoutControls_append, withoutControls_append, htext,
      withoutControls_cons_of_isControl h, List.append_assoc]

/-- Two texts are escaped alike exactly if they are the same once control characters are replaced.
So another text is escaped like a text exactly if the text has a control character in it or the
text that stands for one. -/
theorem escaped_alike_iff (text : String) :
    (∀ other, Text.attributeValue other = Text.attributeValue text ↔
        withoutControls other.toList = withoutControls text.toList) ∧
      ((∃ other, other ≠ text ∧ Text.attributeValue other = Text.attributeValue text) ↔
        ∃ c, IsControl c ∧ (c ∈ text.toList ∨ controlText c <:+: text.toList)) := by
  refine ⟨fun other => attributeValue_eq_iff, ?_, ?_⟩
  · rintro ⟨other, hne, halike⟩
    by_contra hplain
    push Not at hplain
    have hsame : withoutControls other.toList = text.toList := by
      rw [attributeValue_eq_iff.1 halike]
      exact withoutControls_eq_self fun c hc hcontrol => (hplain c hcontrol).1 hc
    by_cases hother : ∃ c ∈ other.toList, IsControl c
    · -- the text that stands for the control character is left in `text`
      obtain ⟨c, hmem, hcontrol⟩ := hother
      obtain ⟨front, back, hsplit⟩ := List.append_of_mem hmem
      rw [hsplit, withoutControls_append, withoutControls_cons_of_isControl hcontrol,
        ← List.append_assoc] at hsame
      exact (hplain c hcontrol).2 ⟨_, _, hsame⟩
    · push Not at hother
      rw [withoutControls_eq_self hother] at hsame
      exact hne (String.toList_inj.1 hsame)
  · rintro ⟨c, hcontrol, hmem | ⟨front, back, hsplit⟩⟩
    · obtain ⟨front, back, hsplit⟩ := List.append_of_mem hmem
      obtain ⟨hne, halike⟩ := attributeValue_exchange hcontrol front back
      rw [← hsplit, String.ofList_toList] at hne halike
      exact ⟨_, hne.symm, halike.symm⟩
    · obtain ⟨hne, halike⟩ := attributeValue_exchange hcontrol front back
      rw [hsplit, String.ofList_toList] at hne halike
      exact ⟨_, hne, halike⟩

/-- A control character is escaped like the text that stands for it. -/
theorem control_escaped_like_its_text :
    "\x01" ≠ "\\u\x7b1\x7d" ∧
      Text.attributeValue "\x01" = Text.attributeValue "\\u\x7b1\x7d" := by
  decide

end DebugSymbols.Xml
