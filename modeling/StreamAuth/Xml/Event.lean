import StreamAuth.Text.Blank
import StreamAuth.Xml.Error

/-!
# Events of a document

A document is read as a sequence of events: tags, text and character data, each with what is written inside it. Blanks at the
two ends of a text are cut, so a text of blanks alone is no event. The reader keeps the names of the open elements and
refuses an end tag that does not match the innermost of them.
-/

namespace StreamAuth.Xml

/-- One piece of a document. References are not yet resolved and attributes are not yet read. -/
inductive Event where
  /-- A start tag, by what stands between `<` and `>`. -/
  | startTag (tag : List Char)
  /-- A tag that is an element by itself, by what stands between `<` and `/>`. -/
  | emptyTag (tag : List Char)
  /-- An end tag. -/
  | endTag (name : List Char)
  /-- A text, without the blanks around it. -/
  | text (content : List Char)
  /-- A character data section, by what stands between its brackets. -/
  | characterData (content : List Char)
  /-- A comment, declaration, processing instruction or document type. -/
  | aside
  deriving DecidableEq, Repr

/-- The name of a tag: all up to the first blank. -/
def tagName (tag : List Char) : List Char :=
  tag.takeWhile fun c => !Text.isXmlBlank c

/-! ## Where markup ends -/

/-- What stands before the first `>` outside quotes, and what stands after it. `quote` is the quote that is open. -/
def cutTag? : (quote : Option Char) → List Char → Option (List Char × List Char)
  | _, [] => none
  | none, '>' :: rest => some ([], rest)
  | none, c :: rest =>
    (cutTag? (if c = '"' ∨ c = '\'' then some c else none) rest).map fun (tag, after) => (c :: tag, after)
  | some q, c :: rest =>
    (cutTag? (if c = q then none else some q) rest).map fun (tag, after) => (c :: tag, after)

/-- What stands before the first `>` that `closes` accepts, and what stands after it. `closes` looks at what has been read,
latest character first. -/
def cutWhere? (closes : List Char → Bool) : (seen : List Char) → List Char → Option (List Char × List Char)
  | _, [] => none
  | seen, c :: rest =>
    if c = '>' ∧ closes seen then some ([], rest)
    else (cutWhere? closes (c :: seen) rest).map fun (content, after) => (c :: content, after)

/-- What stands before the `>` that is not the partner of a `<`, and what stands after it. `depth` is the number of `<` that
are open. -/
def cutBalanced? : (depth : Nat) → List Char → Option (List Char × List Char)
  | _, [] => none
  | 0, '>' :: rest => some ([], rest)
  | depth + 1, '>' :: rest => (cutBalanced? depth rest).map fun (content, after) => ('>' :: content, after)
  | depth, '<' :: rest => (cutBalanced? (depth + 1) rest).map fun (content, after) => ('<' :: content, after)
  | depth, c :: rest => (cutBalanced? depth rest).map fun (content, after) => (c :: content, after)

/-- A character data section ends with `]]>`. -/
def closesCharacterData : List Char → Bool
  | ']' :: ']' :: _ => true
  | _ => false

/-- A comment ends with `-->`, and the dashes that begin it do not end it. -/
def closesComment (seen : List Char) : Bool :=
  match seen with
  | '-' :: '-' :: _ => 5 ≤ seen.length
  | _ => false

/-- A processing instruction ends with `?>`. -/
def closesInstruction : List Char → Bool
  | '?' :: _ => true
  | _ => false

/-! ## Kinds of markup -/

/-- The event of a character data section, by what stands between `<` and `>`. -/
def Event.ofCharacterData (content : List Char) : Except Error Event :=
  if "![CDATA[".toList.isPrefixOf content then .ok (.characterData ((content.drop 8).dropLast.dropLast))
  else .error (.markup .characterData)

/-- The event of a comment, by what stands between `<` and `>`. -/
def Event.ofComment (content : List Char) : Except Error Event :=
  if "!--".toList.isPrefixOf content then .ok .aside else .error (.markup .comment)

/-- The event of a document type declaration, by what stands between `<` and `>`. Its keyword may be in either case. -/
def Event.ofDocumentType (content : List Char) : Except Error Event :=
  if (content.take 8).map Char.toUpper = "!DOCTYPE".toList then
    if (content.drop 8).all Text.isXmlBlank then .error .unnamedDocumentType else .ok .aside
  else .error (.markup .documentType)

/-- The event of a processing instruction or declaration, by what stands between `<` and `>`. -/
def Event.ofInstruction (content : List Char) : Except Error Event :=
  if content.length < 2 then .error (.markup .instruction) else .ok .aside

/-- The event of an end tag, by what stands after `</`. Blanks at its end are no part of the name, unless there is nothing
else. -/
def Event.ofEndTag (content : List Char) : Event :=
  let name := Text.trimEnd Text.isXmlBlank content
  .endTag (if name = [] then content else name)

/-- The event of any other tag. -/
def Event.ofTag (content : List Char) : Event :=
  match content.getLast? with
  | some '/' => .emptyTag content.dropLast
  | _ => .startTag content

/-- The event of markup whose end has been found or not, and what stands after it. -/
def closedMarkup (fault : MarkupFault) (found : Option (List Char × List Char))
    (event : List Char → Except Error Event) : Except Error (Event × List Char) :=
  match found with
  | none => .error (.markup fault)
  | some (content, after) => (·, after) <$> event content

/-- The event of the markup that stands after a `<`, and what stands after it. -/
def readMarkup (cs : List Char) : Except Error (Event × List Char) :=
  match cs with
  | '!' :: '[' :: _ => closedMarkup .characterData (cutWhere? closesCharacterData [] cs) Event.ofCharacterData
  | '!' :: '-' :: _ => closedMarkup .comment (cutWhere? closesComment [] cs) Event.ofComment
  | '!' :: 'D' :: _ => closedMarkup .documentType (cutBalanced? 0 cs) Event.ofDocumentType
  | '!' :: 'd' :: _ => closedMarkup .documentType (cutBalanced? 0 cs) Event.ofDocumentType
  | '!' :: _ => .error (.markup .unknown)
  | '?' :: _ => closedMarkup .instruction (cutWhere? closesInstruction [] cs) Event.ofInstruction
  | '/' :: _ => closedMarkup .tag (cutTag? none cs) fun content => .ok (.ofEndTag content.tail)
  | _ => closedMarkup .tag (cutTag? none cs) fun content => .ok (.ofTag content)

theorem length_of_cutTag? {quote : Option Char} {cs content after : List Char}
    (h : cutTag? quote cs = some (content, after)) : after.length < cs.length := by
  fun_induction cutTag? quote cs generalizing content with
  | case1 => cases h
  | case2 rest => cases h; simp
  | case3 _ _ _ ih | case4 _ _ _ ih =>
    obtain ⟨p, hp, he⟩ := Option.map_eq_some_iff.mp h
    cases he
    have := ih hp
    simp only [List.length_cons]
    omega

theorem length_of_cutWhere? {closes : List Char → Bool} {seen cs content after : List Char}
    (h : cutWhere? closes seen cs = some (content, after)) : after.length < cs.length := by
  fun_induction cutWhere? closes seen cs generalizing content with
  | case1 => cases h
  | case2 => cases h; simp
  | case3 seen c rest _ ih =>
    obtain ⟨p, hp, he⟩ := Option.map_eq_some_iff.mp h
    cases he
    have := ih hp
    simp only [List.length_cons]
    omega

theorem length_of_cutBalanced? {depth : Nat} {cs content after : List Char}
    (h : cutBalanced? depth cs = some (content, after)) : after.length < cs.length := by
  fun_induction cutBalanced? depth cs generalizing content with
  | case1 => cases h
  | case2 => cases h; simp
  | case3 _ _ ih | case4 _ _ ih | case5 _ _ _ _ _ _ ih =>
    obtain ⟨p, hp, he⟩ := Option.map_eq_some_iff.mp h
    cases he
    have := ih hp
    simp only [List.length_cons]
    omega

theorem length_of_closedMarkup {fault : MarkupFault} {found : Option (List Char × List Char)}
    {event : List Char → Except Error Event} {e : Event} {after : List Char}
    (h : closedMarkup fault found event = .ok (e, after)) : ∃ content, found = some (content, after) := by
  unfold closedMarkup at h
  split at h
  · cases h
  · next content after' =>
    cases hc : event content with
    | error x =>
      rw [hc] at h
      cases h
    | ok x =>
      rw [hc] at h
      cases h
      exact ⟨content, rfl⟩

/-- Markup takes at least its closing `>`. -/
theorem length_of_readMarkup {cs after : List Char} {e : Event} (h : readMarkup cs = .ok (e, after)) :
    after.length < cs.length := by
  unfold readMarkup at h
  split at h
  case h_5 => cases h
  all_goals obtain ⟨content, hc⟩ := length_of_closedMarkup h
  case h_1 | h_2 | h_6 => exact length_of_cutWhere? hc
  case h_3 | h_4 => exact length_of_cutBalanced? hc
  case h_7 | h_8 => exact length_of_cutTag? hc

/-! ## The reader -/

/-- How the names of the open elements, innermost first, change with an event. -/
def Event.openAfter (opened : List (List Char)) : Event → Except Error (List (List Char))
  | .startTag tag => .ok (tagName tag :: opened)
  | .endTag name =>
    match opened with
    | [] => .error (.unmatchedEndTag name)
    | innermost :: outer => if innermost = name then .ok outer else .error (.mismatchedEndTag innermost name)
  | _ => .ok opened

/-- The events of a document, up to its end or to the first fault. -/
structure Events where
  /-- The events in order. -/
  events : List Event
  /-- The fault that ends them; `none` at the end of the input. -/
  fault? : Option Error
  deriving DecidableEq, Repr

/-- A further event in front. -/
def Events.cons (e : Event) (es : Events) : Events :=
  ⟨e :: es.events, es.fault?⟩

/-- Reads events to the end of the input. `opened` holds the names of the open elements, innermost first. -/
def readEvents (opened : List (List Char)) (cs : List Char) : Events :=
  match _h : cs.dropWhile Text.isXmlBlank with
  | [] => ⟨[], none⟩
  | '<' :: markup =>
    match _hm : readMarkup markup with
    | .error fault => ⟨[], some fault⟩
    | .ok (event, after) =>
      match event.openAfter opened with
      | .error fault => ⟨[], some fault⟩
      | .ok opened => (readEvents opened after).cons event
  | c :: rest =>
    let content := Text.trimEnd Text.isXmlBlank (c :: rest.takeWhile (· != '<'))
    (readEvents opened (rest.dropWhile (· != '<'))).cons (.text content)
termination_by cs.length
decreasing_by
  · have hm := length_of_readMarkup _hm
    have := (List.dropWhile_sublist Text.isXmlBlank (l := cs)).length_le
    simp only [_h, List.length_cons] at this
    omega
  · have := (List.dropWhile_sublist Text.isXmlBlank (l := cs)).length_le
    have := (List.dropWhile_sublist (· != '<') (l := rest)).length_le
    simp_all only [List.length_cons]
    omega

/-- The events of a document. A byte order mark at its start is no part of it. -/
def eventsOf (cs : List Char) : Events :=
  match cs with
  | '\uFEFF' :: rest => readEvents [] rest
  | _ => readEvents [] cs

end StreamAuth.Xml
