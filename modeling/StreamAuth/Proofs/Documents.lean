import StreamAuth.Proofs.Markup

/-!
# Documents as they are written

A tree of elements is written tag by tag, with entities in its texts and values; `Written` says what is written for it, with
the choices that a writer has. Reading a document from a place inside it goes on with what has been built so far (`parseFrom`):
each written piece has its step, and whole elements go through by induction on what is written. So a written tree is read as
the tree, whatever stands behind it (`parse_written`).
-/

namespace StreamAuth.Xml

/-! ## Written elements -/

/-- What is written for a row of elements. An element is written as a start tag, its text, its children and an end tag; with no
text and no children it may be a single tag. -/
inductive Written : List Element → List Char → Prop where
  | nil : Written [] []
  | element {name text : String} {attributes : List (String × String)} {children row : List Element}
      {tag inside later : List Char} :
      IsName name.toList → WrittenAttributes attributes tag → IsTrimmed text.toList → Written children inside →
      Written row later →
      Written (⟨name, attributes, text, children⟩ :: row)
        ('<' :: (name.toList ++ tag) ++ '>' :: (escape text.toList ++ inside ++ '<' :: '/' :: name.toList ++ ['>']) ++ later)
  | single {name : String} {attributes : List (String × String)} {row : List Element} {tag later : List Char} :
      IsName name.toList → WrittenAttributes attributes tag → Written row later →
      Written (⟨name, attributes, "", []⟩ :: row) ('<' :: (name.toList ++ tag) ++ ['/', '>'] ++ later)

/-- In front of markup, what is written for a row of elements begins like markup. -/
theorem Written.lt {row : List Element} {cs : List Char} (h : Written row cs) (rest : List Char) :
    ∃ more, cs ++ '<' :: rest = '<' :: more := by
  cases h with
  | nil => exact ⟨rest, rfl⟩
  | element => exact ⟨_, rfl⟩
  | single => exact ⟨_, rfl⟩

/-! ## Reading events -/

variable {names names' : List (List Char)}

/-- The events from a place where only blanks stand in front of markup, if it is none of the faults that end them. -/
theorem readEvents_of_lt {cs markup : List Char} (hdrop : cs.dropWhile Text.isXmlBlank = '<' :: markup) :
    readEvents names cs =
      match readMarkup markup with
      | .error fault => ⟨[], some fault⟩
      | .ok (event, after) =>
        match event.openAfter names with
        | .error fault => ⟨[], some fault⟩
        | .ok names' => (readEvents names' after).cons event := by
  rw [readEvents]
  split
  · rename_i h
    cases hdrop.symm.trans h
  · rename_i h
    cases hdrop.symm.trans h
    split
    · rename_i hm
      exact hm ▸ rfl
    · rename_i hm
      exact hm ▸ rfl
  · rename_i hne h
    cases hdrop.symm.trans h
    exact (hne rfl).elim

/-- The events from a place where markup begins, if it is none of the faults that end them. -/
theorem readEvents_lt (markup : List Char) :
    readEvents names ('<' :: markup) =
      match readMarkup markup with
      | .error fault => ⟨[], some fault⟩
      | .ok (event, after) =>
        match event.openAfter names with
        | .error fault => ⟨[], some fault⟩
        | .ok names' => (readEvents names' after).cons event :=
  readEvents_of_lt rfl

theorem readEvents_markup {markup after : List Char} {event : Event} (hr : readMarkup markup = .ok (event, after))
    (hn : event.openAfter names = .ok names') : readEvents names ('<' :: markup) = (readEvents names' after).cons event := by
  rw [readEvents_lt, hr]
  simp only [hn]

/-- Blanks in front of markup are no event. -/
theorem readEvents_blank {blanks : List Char} (h : IsBlank blanks) (markup : List Char) :
    readEvents names (blanks ++ '<' :: markup) = readEvents names ('<' :: markup) := by
  rw [readEvents_lt, readEvents_of_lt (h.dropWhile (by decide) markup)]

/-- The events from a place where a text begins that is followed by markup, and that is cut at its two ends. -/
theorem readEvents_text {raw text : List Char} (hlt : '<' ∉ raw) (htrim : Text.trim Text.isXmlBlank raw = text) (hne : text ≠ [])
    (rest : List Char) : readEvents names (raw ++ '<' :: rest) = (readEvents names ('<' :: rest)).cons (.text text) := by
  obtain ⟨c, body, hcore⟩ : ∃ c body, raw.dropWhile Text.isXmlBlank = c :: body := by
    refine List.exists_cons_of_ne_nil fun hnil => hne ?_
    rw [← htrim, Text.trim, hnil]
    rfl
  have hsub : ∀ x ∈ c :: body, x ≠ '<' := fun x hx he => by
    refine hlt (he ▸ (List.dropWhile_sublist Text.isXmlBlank (l := raw)).subset ?_)
    rwa [hcore]
  have hplain : '<' ∉ body := fun hx => hsub '<' (List.mem_cons_of_mem c hx) rfl
  have hdrop : (raw ++ '<' :: rest).dropWhile Text.isXmlBlank = c :: (body ++ '<' :: rest) := by
    rw [List.dropWhile_append, hcore]
    rfl
  have hcut : Text.trimEnd Text.isXmlBlank (c :: body) = text := by rw [← htrim, Text.trim, hcore]
  rw [readEvents]
  split
  · rename_i h
    cases hdrop.symm.trans h
  · rename_i h
    exact absurd (List.cons.inj (hdrop.symm.trans h)).1 (hsub c List.mem_cons_self)
  · rename_i h
    cases hdrop.symm.trans h
    simp only [Text.takeWhile_upTo hplain, Text.dropWhile_upTo hplain, hcut]

/-! ## Building on what is open -/

/-- What a document comes to from a place inside it, with the names of the elements that are open there and with what has been
built of them. -/
def parseFrom (names : List (List Char)) (opened : List OpenElement) (cs : List Char) : Except Error Element :=
  buildAll (readEvents names cs).fault? opened (readEvents names cs).events

/-- What a document comes to once an element has been closed in it: the element itself, if no other one is open. -/
def resume (names : List (List Char)) (rest : List Char) : Element ⊕ List OpenElement → Except Error Element
  | .inl document => .ok document
  | .inr opened => parseFrom names opened rest

/-- An event is built on, and what follows it after that. -/
theorem parseFrom_of_cons {cs after : List Char} {event : Event} {opened : List OpenElement} {built : Element ⊕ List OpenElement}
    (hr : readEvents names cs = (readEvents names' after).cons event) (hb : build opened event = .ok built) :
    parseFrom names opened cs = resume names' after built := by
  rw [parseFrom, hr, Events.cons, buildAll, hb]
  cases built <;> rfl

section

variable {name : List Char} {attributes : List (String × String)} {tag : List Char} {opened : List OpenElement}

/-- A start tag opens an element. -/
theorem parseFrom_startTag (hname : IsName name) (htag : SpelledAttributes attributes tag) (rest : List Char) :
    parseFrom names opened ('<' :: (name ++ tag) ++ '>' :: rest) =
      parseFrom (name :: names) ({ name := String.ofList name, attributes } :: opened) rest := by
  have hn : (Event.startTag (name ++ tag)).openAfter names = .ok (name :: names) := by
    rw [Event.openAfter, tagName_spelled hname htag]
  have hb : build opened (.startTag (name ++ tag)) = .ok (.inr ({ name := String.ofList name, attributes } :: opened)) := by
    rw [build, ofTag_spelled hname htag]
    rfl
  exact parseFrom_of_cons (readEvents_markup (readMarkup_startTag hname htag rest) hn) hb

/-- A tag that is an element by itself is an element. -/
theorem parseFrom_emptyTag (hname : IsName name) (htag : SpelledAttributes attributes tag) (rest : List Char) :
    parseFrom names opened ('<' :: (name ++ tag) ++ '/' :: '>' :: rest) =
      resume names rest (close ⟨String.ofList name, attributes, "", []⟩ opened) := by
  have hb : build opened (.emptyTag (name ++ tag)) = .ok (close ⟨String.ofList name, attributes, "", []⟩ opened) := by
    rw [build, ofTag_spelled hname htag]
    rfl
  exact parseFrom_of_cons (readEvents_markup (readMarkup_emptyTag hname htag rest) rfl) hb

/-- An end tag closes the innermost element. -/
theorem parseFrom_endTag (hname : IsName name) (e : OpenElement) (rest : List Char) :
    parseFrom (name :: names) (e :: opened) ('<' :: ('/' :: name ++ '>' :: rest)) =
      resume names rest (close e.toElement opened) := by
  have hn : (Event.endTag name).openAfter (name :: names) = .ok names := by
    rw [Event.openAfter]
    exact if_pos rfl
  exact parseFrom_of_cons (readEvents_markup (readMarkup_endTag hname rest) hn) rfl

/-- A text that is followed by markup is added to the innermost element, without the blanks at its two ends. -/
theorem parseFrom_rawText {raw text : List Char} (hlt : '<' ∉ raw)
    (hresolve : resolve (Text.trim Text.isXmlBlank raw) = .ok text) (e : OpenElement) (rest : List Char) :
    parseFrom names (e :: opened) (raw ++ '<' :: rest) = parseFrom names (e.appendText text :: opened) ('<' :: rest) := by
  by_cases hne : Text.trim Text.isXmlBlank raw = []
  · have htext : text = [] := by
      rw [hne, resolve, resolveFrom] at hresolve
      exact (Except.ok.inj hresolve).symm
    have hsame : e.appendText text = e := by
      rw [htext, OpenElement.appendText, String.ofList_nil, String.append_empty]
    rw [parseFrom, readEvents_blank (isBlank_of_trim hne), hsame]
    rfl
  · have hb : build (e :: opened) (.text (Text.trim Text.isXmlBlank raw)) = .ok (.inr (e.appendText text :: opened)) := by
      simp only [build, hresolve]
      rfl
    exact parseFrom_of_cons (readEvents_text hlt rfl hne rest) hb

/-- A text that is written in front of markup is added to the innermost element. -/
theorem parseFrom_text {text : List Char} (htext : IsTrimmed text) (e : OpenElement) (rest : List Char) :
    parseFrom names (e :: opened) (escape text ++ '<' :: rest) = parseFrom names (e.appendText text :: opened) ('<' :: rest) := by
  refine parseFrom_rawText (not_mem_escape (Or.inl rfl) text) ?_ e rest
  rw [htext.escape.trim_eq_self, resolve_escape]

/-- A section of character data is added to the innermost element as it is. -/
theorem parseFrom_characterData {text : List Char} (h : ¬"]]>".toList <:+: text) (e : OpenElement) (rest : List Char) :
    parseFrom names (e :: opened) ('<' :: ("![CDATA[".toList ++ text ++ "]]>".toList ++ rest)) =
      parseFrom names (e.appendText text :: opened) rest :=
  parseFrom_of_cons (readEvents_markup (readMarkup_characterData h rest) rfl) rfl

/-- A comment adds nothing. -/
theorem parseFrom_comment {text : List Char} (h : ¬"-->".toList <:+: text) (rest : List Char) :
    parseFrom names opened ('<' :: ("!--".toList ++ text ++ "-->".toList ++ rest)) = parseFrom names opened rest :=
  parseFrom_of_cons (readEvents_markup (readMarkup_comment h rest) rfl) rfl

/-- An instruction adds nothing. -/
theorem parseFrom_instruction {text : List Char} (h : ¬"?>".toList <:+: '?' :: text) (rest : List Char) :
    parseFrom names opened ('<' :: ('?' :: text ++ "?>".toList ++ rest)) = parseFrom names opened rest :=
  parseFrom_of_cons (readEvents_markup (readMarkup_instruction h rest) rfl) rfl

end

/-! ## Whole elements -/

/-- Children that come to a row of elements on top of those that are there. -/
def OpenElement.appendChildren (e : OpenElement) (row : List Element) : OpenElement :=
  { e with latestFirst := row.reverse ++ e.latestFirst }

/-- An element goes through as it was written, if what is inside it does. -/
theorem parseFrom_element {name text : String} {attributes : List (String × String)} {children : List Element}
    {tag inside : List Char} {opened : List OpenElement} (hname : IsName name.toList)
    (htag : WrittenAttributes attributes tag) (htext : IsTrimmed text.toList) (hinside : Written children inside)
    (ih : ∀ names parent opened rest,
      parseFrom names (parent :: opened) (inside ++ rest) = parseFrom names (parent.appendChildren children :: opened) rest)
    (rest : List Char) :
    parseFrom names opened
        ('<' :: (name.toList ++ tag) ++ '>' :: (escape text.toList ++ inside ++ '<' :: '/' :: name.toList ++ ['>']) ++ rest) =
      resume names rest (close ⟨name, attributes, text, children⟩ opened) := by
  have hend : inside ++ '<' :: '/' :: name.toList ++ ['>'] ++ rest = inside ++ '<' :: ('/' :: name.toList ++ '>' :: rest) := by
    simp
  obtain ⟨more, hmore⟩ := hinside.lt ('/' :: name.toList ++ '>' :: rest)
  calc _ = parseFrom names opened ('<' :: (name.toList ++ tag) ++
        '>' :: (escape text.toList ++ '<' :: more)) := by rw [← hmore, ← hend]; simp
    _ = parseFrom (name.toList :: names) (({ name, attributes } : OpenElement).appendText text.toList :: opened)
        (inside ++ '<' :: ('/' :: name.toList ++ '>' :: rest)) := by
      rw [parseFrom_startTag hname htag.spelled, parseFrom_text htext, hmore, String.ofList_toList]
    _ = resume names rest (close ⟨name, attributes, text, children⟩ opened) := by
      rw [ih, parseFrom_endTag hname]
      simp [OpenElement.toElement, OpenElement.appendChildren, OpenElement.appendText]

/-- A row of elements goes through as it was written, and is added to the innermost element. -/
theorem parseFrom_written {row : List Element} {cs : List Char} (h : Written row cs) (names : List (List Char))
    (parent : OpenElement) (opened : List OpenElement) (rest : List Char) :
    parseFrom names (parent :: opened) (cs ++ rest) = parseFrom names (parent.appendChildren row :: opened) rest := by
  induction h generalizing names parent opened rest with
  | nil => rfl
  | element hname htag htext hinside _ ihinside ih =>
    rw [List.append_assoc, parseFrom_element hname htag htext hinside ihinside]
    simp only [close, resume, ih]
    simp [OpenElement.appendChildren, OpenElement.appendChild]
  | @single name attributes row tag later hname htag _ ih =>
    have hform : '<' :: (name.toList ++ tag) ++ ['/', '>'] ++ later ++ rest =
        '<' :: (name.toList ++ tag) ++ '/' :: '>' :: (later ++ rest) := by simp
    rw [hform, parseFrom_emptyTag hname htag.spelled, String.ofList_toList]
    simp only [close, resume, ih]
    simp [OpenElement.appendChildren, OpenElement.appendChild]

/-- A text that begins with markup is read from its beginning. -/
theorem parse_of_lt (markup : List Char) : parse (String.ofList ('<' :: markup)) = parseFrom [] [] ('<' :: markup) := by
  rw [parse, String.toList_ofList]
  rfl

/-- A document that is a single tag is read as its element, whatever stands behind it. -/
theorem parse_emptyTag {name tag : List Char} {attributes : List (String × String)} (hname : IsName name)
    (htag : SpelledAttributes attributes tag) (rest : List Char) :
    parse (String.ofList ('<' :: (name ++ tag) ++ '/' :: '>' :: rest)) = .ok ⟨String.ofList name, attributes, "", []⟩ :=
  (parse_of_lt _).trans (parseFrom_emptyTag hname htag rest)

/-- A document that is an element with a text in it is read as it is, with the text cut at its two ends, whatever stands behind
it. -/
theorem parse_textElement {name tag raw text : List Char} {attributes : List (String × String)} (hname : IsName name)
    (htag : SpelledAttributes attributes tag) (hlt : '<' ∉ raw) (hresolve : resolve (Text.trim Text.isXmlBlank raw) = .ok text)
    (rest : List Char) :
    parse (String.ofList ('<' :: (name ++ tag) ++ '>' :: (raw ++ '<' :: ('/' :: name ++ '>' :: rest)))) =
      .ok ⟨String.ofList name, attributes, String.ofList text, []⟩ := by
  refine (parse_of_lt _).trans ((parseFrom_startTag hname htag _).trans ?_)
  rw [parseFrom_rawText hlt hresolve, parseFrom_endTag hname]
  simp [close, resume, OpenElement.toElement, OpenElement.appendText]

/-- Where no element is open, the first element that is written is the document. -/
theorem parseFrom_root {root : Element} {cs : List Char} (h : Written [root] cs) (names : List (List Char)) (rest : List Char) :
    parseFrom names [] (cs ++ rest) = .ok root := by
  cases h with
  | @element name text attributes children _ tag inside later hname htag htext hinside hlater =>
    cases hlater
    rw [List.append_nil]
    exact parseFrom_element hname htag htext hinside (parseFrom_written hinside) rest
  | @single name attributes _ tag later hname htag hlater =>
    cases hlater
    have hform : '<' :: (name.toList ++ tag) ++ ['/', '>'] ++ [] ++ rest = '<' :: (name.toList ++ tag) ++ '/' :: '>' :: rest := by
      simp
    rw [hform, parseFrom_emptyTag hname htag.spelled, String.ofList_toList]
    rfl

/-- An element is written with markup at its beginning. -/
theorem Written.begins {root : Element} {cs : List Char} (h : Written [root] cs) : ∃ markup, cs = '<' :: markup := by
  cases h with
  | element => exact ⟨_, rfl⟩
  | single => exact ⟨_, rfl⟩

/-- A document that is written is read as it was, whatever stands behind it. -/
theorem parse_written {root : Element} {cs : List Char} (h : Written [root] cs) (rest : List Char) :
    parse (String.ofList (cs ++ rest)) = .ok root := by
  obtain ⟨markup, rfl⟩ := h.begins
  exact (parse_of_lt _).trans (parseFrom_root h [] rest)

/-- A document that is written behind a declaration is read as it was, whatever stands behind it. -/
theorem parse_declared {declaration : List Char} (hdeclaration : ¬"?>".toList <:+: '?' :: declaration) {root : Element}
    {cs : List Char} (h : Written [root] cs) (rest : List Char) :
    parse (String.ofList ('<' :: ('?' :: declaration ++ "?>".toList ++ (cs ++ rest)))) = .ok root := by
  rw [parse_of_lt, parseFrom_instruction hdeclaration]
  exact parseFrom_root h [] rest

end StreamAuth.Xml
