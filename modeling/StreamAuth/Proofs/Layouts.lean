import StreamAuth.Proofs.Challenges

/-!
# Layouts of a challenge

A server has a choice in how it lays a payload out. It folds the encoding with blanks, cuts it into parts, writes some of them
as character data and puts comments between them; it qualifies the name and adds attributes. The reader cuts blanks at the two
ends of each run of plain text, so the text of the element depends on the layout, but only in its blanks
(`exists_parseFrom_fragments`). So each layout is decoded to its payload, and whatever else is decoded is an element whose text
is a folded encoding too (`decode_of_layout`).
-/

namespace StreamAuth

namespace Xml

/-! ## Texts in fragments -/

/-- A part of what is written inside an element that has no children. -/
inductive Fragment where
  /-- Characters as they are. -/
  | plain (text : List Char)
  /-- A section of character data. -/
  | characterData (text : List Char)
  /-- A comment. -/
  | comment (text : List Char)
  deriving DecidableEq, Repr

namespace Fragment

/-- What is written for a fragment. -/
def written : Fragment → List Char
  | plain text => text
  | characterData text => '<' :: ("![CDATA[".toList ++ text ++ "]]>".toList)
  | comment text => '<' :: ("!--".toList ++ text ++ "-->".toList)

/-- What a fragment has of the text of the element. -/
def content : Fragment → List Char
  | plain text => text
  | characterData text => text
  | comment _ => []

/-- A fragment that is read as it was written: no markup and no reference begins in it, and nothing closes it too early. -/
def Fits : Fragment → Prop
  | plain text => '<' ∉ text ∧ '&' ∉ text
  | characterData text => ¬"]]>".toList <:+: text
  | comment text => ¬"-->".toList <:+: text

end Fragment

/-- Plain text in front of markup is added to the innermost element, with all of its characters that are no blanks. -/
theorem exists_parseFrom_plain {raw : List Char} (hlt : '<' ∉ raw) (hand : '&' ∉ raw) :
    ∃ text, inked text = inked raw ∧ ∀ names e opened rest,
      parseFrom names (e :: opened) (raw ++ '<' :: rest) = parseFrom names (e.appendText text :: opened) ('<' :: rest) := by
  have htrimmed : '&' ∉ Text.trim Text.isXmlBlank raw := fun hm => hand (mem_of_mem_trim hm)
  refine ⟨Text.trim Text.isXmlBlank raw, inked_trim raw, ?_⟩
  intro names e opened rest
  exact parseFrom_rawText hlt (resolve_of_not_mem htrimmed) e rest

/-- A fragment is plain, or markup. -/
theorem Fragment.plain_or_markup (f : Fragment) : (∃ text, f = plain text) ∨ ∃ markup, f.written = '<' :: markup := by
  cases f with
  | plain text => exact Or.inl ⟨text, rfl⟩
  | characterData text => exact Or.inr ⟨_, rfl⟩
  | comment text => exact Or.inr ⟨_, rfl⟩

theorem OpenElement.appendText_nil (e : OpenElement) : e.appendText [] = e := by
  rw [appendText, String.ofList_nil, String.append_empty]

theorem OpenElement.appendText_appendText (e : OpenElement) (text more : List Char) :
    (e.appendText text).appendText more = e.appendText (text ++ more) := by
  simp only [appendText, String.append_assoc, String.ofList_append]

/-- A fragment that is markup adds to the innermost element what it has of its text. -/
theorem Fragment.parseFrom_markup {f : Fragment} (h : f.Fits) {markup : List Char} (hmarkup : f.written = '<' :: markup)
    (names : List (List Char)) (e : OpenElement) (opened : List OpenElement) (rest : List Char) :
    parseFrom names (e :: opened) (f.written ++ rest) = parseFrom names (e.appendText f.content :: opened) rest := by
  cases f with
  | plain text =>
    have htext : text = '<' :: markup := hmarkup
    rw [htext] at h
    exact absurd List.mem_cons_self h.1
  | characterData text => exact parseFrom_characterData h e rest
  | comment text =>
    rw [content, OpenElement.appendText_nil]
    exact parseFrom_comment h rest

/-- Fragments in front of markup are added to the innermost element, with all of their characters that are no blanks. Plain
text that stands in front of them is taken together with what is plain at their front. -/
theorem exists_parseFrom_fragments {fragments : List Fragment} (h : ∀ f ∈ fragments, f.Fits) {raw : List Char} (hlt : '<' ∉ raw)
    (hand : '&' ∉ raw) :
    ∃ text, inked text = inked (raw ++ fragments.flatMap Fragment.content) ∧ ∀ names e opened rest,
      parseFrom names (e :: opened) (raw ++ (fragments.flatMap Fragment.written ++ '<' :: rest)) =
        parseFrom names (e.appendText text :: opened) ('<' :: rest) := by
  -- A run of plain text goes on until markup ends it, so the induction carries what there is of the run so far.
  induction fragments generalizing raw with
  | nil => simpa using exists_parseFrom_plain hlt hand
  | cons f fragments ih =>
    obtain ⟨hf, hfragments⟩ := List.forall_mem_cons.mp h
    rcases f.plain_or_markup with ⟨more, rfl⟩ | ⟨markup, hmarkup⟩
    · have hlt' : '<' ∉ raw ++ more := by simp [hlt, hf.1]
      have hand' : '&' ∉ raw ++ more := by simp [hand, hf.2]
      obtain ⟨text, htext, hread⟩ := ih hfragments hlt' hand'
      refine ⟨text, ?_, ?_⟩
      · rw [htext, List.flatMap_cons, List.append_assoc]
        rfl
      · intro names e opened rest
        rw [← hread, List.flatMap_cons, List.append_assoc, List.append_assoc]
        rfl
    · obtain ⟨before, hbefore, hplain⟩ := exists_parseFrom_plain hlt hand
      obtain ⟨after, hafter, hread⟩ := ih hfragments List.not_mem_nil List.not_mem_nil
      refine ⟨before ++ f.content ++ after, ?_, ?_⟩
      · rw [inked_append, inked_append, hbefore, hafter, List.nil_append, List.flatMap_cons, inked_append, inked_append,
          List.append_assoc]
      · intro names e opened rest
        calc _ = parseFrom names (e :: opened) (raw ++ (f.written ++ (fragments.flatMap Fragment.written ++ '<' :: rest))) := by
              rw [List.flatMap_cons, List.append_assoc]
          _ = parseFrom names (e.appendText before :: opened)
                (f.written ++ (fragments.flatMap Fragment.written ++ '<' :: rest)) := by
              rw [hmarkup, List.cons_append, hplain]
          _ = parseFrom names ((e.appendText before).appendText f.content :: opened)
                (fragments.flatMap Fragment.written ++ '<' :: rest) := Fragment.parseFrom_markup hf hmarkup _ _ _ _
          _ = parseFrom names (e.appendText (before ++ f.content ++ after) :: opened) ('<' :: rest) := by
              rw [← List.nil_append (fragments.flatMap Fragment.written ++ '<' :: rest), hread]
              simp only [OpenElement.appendText_appendText]

/-- A document that is an element with fragments in it is read as an element whose text has all of their characters that are no
blanks. -/
theorem exists_parse_fragments {name tag : List Char} {attributes : List (String × String)} (hname : IsName name)
    (htag : SpelledAttributes attributes tag) {fragments : List Fragment} (h : ∀ f ∈ fragments, f.Fits) :
    ∃ text, inked text = inked (fragments.flatMap Fragment.content) ∧ ∀ rest,
      parse (String.ofList ('<' :: (name ++ tag) ++ '>' :: (fragments.flatMap Fragment.written ++
        '<' :: ('/' :: name ++ '>' :: rest)))) = .ok ⟨String.ofList name, attributes, String.ofList text, []⟩ := by
  obtain ⟨text, htext, hread⟩ := exists_parseFrom_fragments h List.not_mem_nil List.not_mem_nil
  refine ⟨text, htext, ?_⟩
  intro rest
  refine (parse_of_lt _).trans ((parseFrom_startTag hname htag _).trans ?_)
  rw [← List.nil_append (fragments.flatMap Fragment.written ++ _), hread, parseFrom_endTag hname]
  simp [close, resume, OpenElement.toElement, OpenElement.appendText]

end Xml

namespace Challenge

/-! ## Layouts -/

/-- A way to lay out a payload in a challenge. -/
structure Layout where
  /-- What stands in front of the colon of the name; `none` if the name has no colon. -/
  qualifier? : Option (List Char)
  /-- The attributes. -/
  attributes : List (String × String)
  /-- What is spelled for the attributes. -/
  spelling : List Char
  /-- What stands between the tags. -/
  fragments : List Xml.Fragment
  /-- The payload. -/
  payload : Bytes
  qualified : ∀ qualifier ∈ qualifier?, Xml.IsName qualifier
  spelled : Xml.SpelledAttributes attributes spelling
  remarks : ∀ text, .comment text ∈ fragments → ¬"-->".toList <:+: text
  folds : ((Utf8.encode (fragments.flatMap Xml.Fragment.content)).filter fun b => !Text.isFold b) = Base64.encode payload

namespace Layout

/-- The name of the challenge. -/
def name (l : Layout) : List Char :=
  match l.qualifier? with
  | none => "challenge".toList
  | some qualifier => qualifier ++ ':' :: "challenge".toList

/-- What is written for the challenge. -/
def written (l : Layout) : List Char :=
  '<' :: (l.name ++ l.spelling) ++ '>' :: (l.fragments.flatMap Xml.Fragment.written ++ '<' :: ('/' :: l.name ++ ['>']))

/-- The bytes of the challenge. -/
def bytes (l : Layout) : Bytes :=
  Utf8.encode l.written

theorem isName_name (l : Layout) : Xml.IsName l.name := by
  have hlocal : Xml.IsName "challenge".toList := by decide
  have hcolon : Xml.isNameChar ':' := by decide
  unfold name
  split
  · exact hlocal
  · rename_i qualifier hq
    refine ⟨by simp, ?_⟩
    intro c hc
    rw [List.mem_append, List.mem_cons] at hc
    rcases hc with hc | rfl | hc
    · exact (l.qualified qualifier hq).chars c hc
    · exact hcolon
    · exact hlocal.chars c hc

theorem localPart_name (l : Layout) : Xml.Element.localPart (String.ofList l.name) = "challenge" := by
  have hcolon : ':' ∉ "challenge".toList.reverse := by simp
  have htake : l.name.reverse.takeWhile (· != ':') = "challenge".toList.reverse := by
    unfold name
    split
    · decide
    · rename_i qualifier _
      have hform : (qualifier ++ ':' :: "challenge".toList).reverse =
          "challenge".toList.reverse ++ ':' :: qualifier.reverse := by simp
      rw [hform, Text.takeWhile_upTo hcolon]
  rw [Xml.Element.localPart, String.toList_ofList, htake, List.reverse_reverse, String.ofList_toList]

/-- No markup is mistaken in what stands between the tags. -/
theorem fits (l : Layout) : ∀ f ∈ l.fragments, f.Fits := by
  obtain ⟨hlt, hand, hgt⟩ := Base64.not_mem_of_decode (Base64.decode_eq_ok_iff.mpr l.folds)
  intro f hf
  have hcontent : ∀ c ∈ f.content, c ∈ l.fragments.flatMap Xml.Fragment.content := by
    intro c hc
    exact List.mem_flatMap.mpr ⟨f, hf, hc⟩
  cases f with
  | plain text => exact ⟨fun hm => hlt (hcontent _ hm), fun hm => hand (hcontent _ hm)⟩
  | characterData text =>
    intro hin
    have hm : '>' ∈ text := hin.subset (by simp)
    exact hgt (hcontent _ hm)
  | comment text => exact l.remarks text hf

/-- A challenge is read as an element with a text that carries the payload, however it is laid out. -/
theorem exists_parse (l : Layout) :
    ∃ text, Xml.parse (String.ofList l.written) = .ok ⟨String.ofList l.name, l.attributes, text, []⟩ ∧
      Base64.decode (Utf8.ofString text) = .ok l.payload := by
  obtain ⟨text, htext, hparse⟩ := Xml.exists_parse_fragments l.isName_name l.spelled l.fits
  refine ⟨String.ofList text, hparse [], ?_⟩
  rw [Base64.decode_eq_ok_iff, Utf8.ofString, String.toList_ofList, ← Base64.filter_encode_inked, htext,
    Base64.filter_encode_inked, l.folds]

end Layout

/-- What is decoded, in two parts. For every layout, every span and every challenge:
1. The layout is decoded to its payload.
2. The span is decoded to the challenge exactly if it is the text of a document whose root has the local name of a challenge
   and a text of its own that, without the blanks that fold it, is the encoding of the payload. -/
theorem decode_of_layout (l : Layout) (span : Bytes) (c : Challenge) :
    decode l.bytes = .ok ⟨l.payload⟩ ∧
      (decode span = .ok c ↔ ∃ text root, span = Utf8.ofString text ∧ Xml.parse text = .ok root ∧
        root.localName = "challenge" ∧
        ((Utf8.ofString root.text).filter fun b => !Text.isFold b) = Base64.encode c.payload) := by
  refine ⟨?_, ?_⟩
  · obtain ⟨text, hparse, hdecode⟩ := l.exists_parse
    refine decode_eq_ok_iff.mpr ⟨_, _, ?_, hparse, l.localPart_name, hdecode⟩
    rw [Utf8.ofString, String.toList_ofList, Layout.bytes]
  · simp only [decode_eq_ok_iff, Base64.decode_eq_ok_iff]

/-- A layout with a qualified name and an attribute, that folds the encoding and has a comment and character data in it. -/
def foldedLayout : Layout where
  qualifier? := some "sasl".toList
  attributes := [("id", "1")]
  spelling := " id='1'".toList
  fragments := [.plain "Y\n".toList, .comment " -> ".toList, .characterData " W".toList, .plain "I=".toList]
  payload := [97, 98]
  qualified := by decide
  spelled := (Xml.WrittenAttributes.cons (by decide) (by decide) (Or.inr rfl) .nil).spelled
  remarks := by simp; decide
  folds := by decide

/-- The challenge is decoded to its payload, and it is a document whose text, without the blanks that fold it, is the encoding of
the payload. -/
theorem decode_of_layout_folded :
    foldedLayout.written = "<sasl:challenge id='1'>Y\n<!-- -> --><![CDATA[ W]]>I=</sasl:challenge>".toList ∧
      decode foldedLayout.bytes = .ok ⟨[97, 98]⟩ ∧
      ∃ text root, foldedLayout.bytes = Utf8.ofString text ∧ Xml.parse text = .ok root ∧ root.localName = "challenge" ∧
        ((Utf8.ofString root.text).filter fun b => !Text.isFold b) = Base64.encode [97, 98] := by
  obtain ⟨hdecode, hdocument⟩ := decode_of_layout foldedLayout foldedLayout.bytes ⟨[97, 98]⟩
  exact ⟨by decide, hdecode, hdocument.mp hdecode⟩

end Challenge

end StreamAuth
