import StreamAuth.Proofs.Documents
import StreamAuth.Proofs.Nesting

/-!
# Open elements

Two stacks go along while a document is read: the reader keeps the names of the open elements, and the tree that is built keeps the
elements themselves. Reading a document is a loop that reads an event and builds on it (`Point.step`), and at each of its points both
stacks are those of the start tags that are still open (`Mirrors`). One turn of the loop keeps them so (`Mirrors.step`); so no end tag
ever finds the tree without an open element, and the loop ends with a document nowhere but where the first element is closed
(`stacks_of_parse`). It does end there, unless that element is a single tag whose attributes cannot be read.
-/

namespace StreamAuth.Xml

/-! ## The loop -/

/-- A place in a document. -/
structure Place where
  /-- The names of the elements that are open for the reader, innermost first. -/
  names : List (List Char)
  /-- What is still to be read. -/
  rest : List Char

/-- The event that is read at a place, and the place behind it; none at the end of the input. -/
def Place.next (p : Place) : Except Error (Option (Event × Place)) :=
  match p.rest.dropWhile Text.isXmlBlank with
  | [] => .ok none
  | c :: rest =>
    if c = '<' then do
      let (event, rest) ← readMarkup rest
      let names ← event.openAfter p.names
      return some (event, ⟨names, rest⟩)
    else
      let content := Text.trimEnd Text.isXmlBlank (c :: rest.takeWhile (· != '<'))
      .ok (some (.text content, ⟨p.names, rest.dropWhile (· != '<')⟩))

/-- A point of the loop that reads a document. -/
structure Point where
  /-- The events that have been read. -/
  read : List Event
  /-- Where the reader is. -/
  place : Place
  /-- The elements that are open in the tree, innermost first. -/
  opened : List OpenElement

/-- One turn of the loop: the document if it ends here, and otherwise the next point. -/
def Point.step (p : Point) : Except Error (Element ⊕ Point) := do
  match ← p.place.next with
  | none => throw (if p.opened.isEmpty then .noRootElement else .unexpectedEnd)
  | some (event, place) =>
    match ← build p.opened event with
    | .inl root => return .inl root
    | .inr opened => return .inr ⟨p.read ++ [event], place, opened⟩

/-- The point at which the loop begins. A byte order mark is not read. -/
def Point.start (text : String) : Point :=
  ⟨[], ⟨[], if text.toList.head? = some '\uFEFF' then text.toList.tail else text.toList⟩, []⟩

/-- The points through which the loop goes that reads a text. -/
inductive Reached (text : String) : Point → Prop where
  | start : Reached text (Point.start text)
  | step {p q : Point} : Reached text p → p.step = .ok (.inr q) → Reached text q

variable {text : String} {event : Event}

/-- What is read at a place changes the names as the event does, and takes some of what is to be read. -/
theorem Place.next_eq_some {p q : Place} (h : p.next = .ok (some (event, q))) :
    event.openAfter p.names = .ok q.names ∧ q.rest.length < p.rest.length := by
  have hdrop := (p.rest.dropWhile_sublist Text.isXmlBlank).length_le
  rw [next] at h
  split at h
  · cases h
  · rename_i c rest hrest
    rw [hrest, List.length_cons] at hdrop
    split at h
    · cases hread : readMarkup rest with
      | error fault =>
        rw [hread] at h
        cases h
      | ok found =>
        obtain ⟨e, after⟩ := found
        have hlength := length_of_readMarkup hread
        simp only [hread, bind, Except.bind] at h
        cases hnames : e.openAfter p.names with
        | error fault =>
          rw [hnames] at h
          cases h
        | ok names =>
          rw [hnames] at h
          cases h
          exact ⟨hnames, by simp only; omega⟩
    · have hstop := (rest.dropWhile_sublist (· != '<')).length_le
      cases h
      exact ⟨rfl, by simp only; omega⟩

/-- The events that are still to be read at a place. -/
def Place.ahead (p : Place) : Events :=
  readEvents p.names p.rest

/-- The events are read one after the other. -/
theorem Place.ahead_eq (p : Place) :
    p.ahead =
      match p.next with
      | .error fault => ⟨[], some fault⟩
      | .ok none => ⟨[], none⟩
      | .ok (some (event, q)) => q.ahead.cons event := by
  rw [ahead, next]
  cases hdrop : p.rest.dropWhile Text.isXmlBlank with
  | nil =>
    rw [readEvents]
    split
    · rfl
    · rename_i h
      cases hdrop.symm.trans h
    · rename_i h
      cases hdrop.symm.trans h
  | cons c rest =>
    by_cases hc : c = '<'
    · subst hc
      rw [readEvents_of_lt hdrop]
      simp only [if_true, bind, Except.bind]
      cases readMarkup rest with
      | error fault => rfl
      | ok found =>
        obtain ⟨event, after⟩ := found
        simp only
        cases event.openAfter p.names <;> rfl
    · simp only [if_neg hc]
      rw [readEvents]
      split
      · rename_i h
        cases hdrop.symm.trans h
      · rename_i h
        exact absurd (List.cons.inj (hdrop.symm.trans h)).1 hc
      · rename_i h
        cases hdrop.symm.trans h
        rfl

/-- What the document comes to from a point of the loop. -/
def Point.result (p : Point) : Except Error Element :=
  parseFrom p.place.names p.opened p.place.rest

/-- A turn of the loop ends with what the document comes to, or the next point does. -/
theorem Point.result_eq (p : Point) :
    p.result =
      match p.step with
      | .error fault => .error fault
      | .ok (.inl root) => .ok root
      | .ok (.inr q) => q.result := by
  have hahead := p.place.ahead_eq
  unfold Place.ahead at hahead
  rw [result, parseFrom, hahead, step]
  cases p.place.next with
  | error fault => rfl
  | ok found =>
    cases found with
    | none => rfl
    | some found =>
      obtain ⟨event, place⟩ := found
      simp only [bind, Except.bind, Events.cons, buildAll]
      cases build p.opened event with
      | error fault => rfl
      | ok built => cases built <;> rfl

/-- A text is read from the point at which the loop begins. -/
theorem eventsOf_eq (text : String) : eventsOf text.toList = (Point.start text).place.ahead := by
  simp only [eventsOf, Place.ahead, Point.start]
  split
  · rename_i h
    rw [h]
    rfl
  · rename_i h
    rw [if_neg]
    rw [List.head?_eq_some_iff]
    rintro ⟨rest, hrest⟩
    exact h rest hrest

theorem parse_eq (text : String) : parse text = (Point.start text).result := by
  simp only [parse, eventsOf_eq]
  rfl

/-! ## The two stacks -/

variable {tags : List (List Char)} {opened opened' : List OpenElement}

/-- The element that a tag begins has the name and the attributes of the tag. -/
theorem ofTag_eq_ok {tag : List Char} {e : OpenElement} (h : OpenElement.ofTag tag = .ok e) :
    e.name = String.ofList (tagName tag) ∧
      readAttributes (Utf8.size tag) (Utf8.size (tagName tag)) ∅ (tag.drop (tagName tag).length) = .ok e.attributes := by
  simp only [OpenElement.ofTag, bind, Except.bind] at h
  split at h
  · cases h
  · rename_i attributes hattributes
    cases h
    exact ⟨rfl, hattributes⟩

theorem appendText_nil (opened : List OpenElement) : appendText [] opened = opened := by
  cases opened with
  | nil => rfl
  | cons e outer => simp [appendText, OpenElement.appendText]

/-- What an event builds: a start tag opens an element, a single tag and an end tag close one, and whatever is no tag adds a text to
the innermost open element, if only an empty one. -/
theorem build_eq_ok {built : Element ⊕ List OpenElement} (hb : build opened event = .ok built) :
    (∃ tag e, event = .startTag tag ∧ OpenElement.ofTag tag = .ok e ∧ built = .inr (e :: opened)) ∨
      (∃ tag e, event = .emptyTag tag ∧ OpenElement.ofTag tag = .ok e ∧ built = close e.toElement opened) ∨
      (∃ name e outer, event = .endTag name ∧ opened = e :: outer ∧ built = close e.toElement outer) ∨
      event.isTag = false ∧ ∃ content, built = .inr (appendText content opened) := by
  cases event with
  | startTag tag =>
    simp only [build, bind, Except.bind] at hb
    split at hb
    · cases hb
    · rename_i e he
      cases hb
      exact Or.inl ⟨tag, e, rfl, he, rfl⟩
  | emptyTag tag =>
    simp only [build, bind, Except.bind] at hb
    split at hb
    · cases hb
    · rename_i e he
      cases hb
      exact Or.inr (Or.inl ⟨tag, e, rfl, he, rfl⟩)
  | endTag name =>
    cases opened with
    | nil => cases hb
    | cons e outer =>
      cases hb
      exact Or.inr (Or.inr (Or.inl ⟨name, e, outer, rfl, rfl, rfl⟩))
  | text content =>
    simp only [build] at hb
    refine Or.inr (Or.inr (Or.inr ⟨rfl, ?_⟩))
    split at hb
    · cases hb
      exact ⟨content, rfl⟩
    · cases hb
    · cases hb
      exact ⟨_, rfl⟩
  | characterData content =>
    cases hb
    exact Or.inr (Or.inr (Or.inr ⟨rfl, content, rfl⟩))
  | aside =>
    cases hb
    exact Or.inr (Or.inr (Or.inr ⟨rfl, [], by rw [appendText_nil]⟩))

/-- A text changes no name of an open element. -/
theorem map_appendText (content : List Char) (opened : List OpenElement) :
    (appendText content opened).map (·.name.toList) = opened.map (·.name.toList) := by
  cases opened <;> rfl

/-- An element that is closed inside others changes no name of them. -/
theorem map_close {e : Element} (h : close e opened = .inr opened') :
    opened'.map (·.name.toList) = opened.map (·.name.toList) := by
  cases opened with
  | nil => cases h
  | cons parent outer =>
    cases h
    rfl

/-- An event changes the elements that are open in the tree as the reader changes their names. -/
theorem names_of_build {names : List (List Char)} (hb : build opened event = .ok (.inr opened'))
    (hnames : event.openAfter (opened.map (·.name.toList)) = .ok names) : opened'.map (·.name.toList) = names := by
  rcases build_eq_ok hb with ⟨tag, e, rfl, he, hopened⟩ | ⟨tag, e, rfl, -, hopened⟩ | ⟨name, e, outer, rfl, rfl, hopened⟩ |
    ⟨hplain, content, hopened⟩
  · cases hopened
    cases hnames
    rw [List.map_cons, (ofTag_eq_ok he).1, String.toList_ofList]
  · cases hnames
    exact map_close hopened.symm
  · rw [List.map_cons, Event.openAfter] at hnames
    split at hnames
    case isFalse => cases hnames
    case isTrue =>
      cases hnames
      exact map_close hopened.symm
  · rw [openAfter_eq_ok hplain] at hnames
    cases hnames
    cases hopened
    exact map_appendText content opened

/-- The tree is handed over by an element outside all others, and by the end of the only one that is open. -/
theorem isLeft_of_build {built : Element ⊕ List OpenElement} (hb : build opened event = .ok built) :
    built.isLeft = true ↔
      (opened = [] ∧ ∃ tag, event = .emptyTag tag) ∨ ∃ e name, opened = [e] ∧ event = .endTag name := by
  rcases build_eq_ok hb with ⟨tag, e, rfl, -, rfl⟩ | ⟨tag, e, rfl, -, rfl⟩ | ⟨name, e, outer, rfl, rfl, rfl⟩ |
    ⟨hplain, content, rfl⟩
  · simp
  · cases opened <;> simp [close]
  · cases outer <;> simp [close]
  · constructor
    · intro hleft
      cases hleft
    · rintro (⟨-, tag, rfl⟩ | ⟨e, name, -, rfl⟩) <;> cases hplain

/-- At a point of the loop, both stacks are those of the start tags that are still open. -/
structure Mirrors (p : Point) (tags : List (List Char)) : Prop where
  opens : Opens p.read tags
  names_eq : p.place.names = tags.map tagName
  opened_eq : p.opened.map (·.name.toList) = tags.map tagName

variable {p q : Point}

/-- A turn of the loop that does not fail reads an event and builds on it. -/
theorem Point.step_eq_ok {made : Element ⊕ Point} (h : p.step = .ok made) :
    ∃ event place built, p.place.next = .ok (some (event, place)) ∧ build p.opened event = .ok built ∧
      made = built.map id fun opened => ⟨p.read ++ [event], place, opened⟩ := by
  simp only [step, bind, Except.bind] at h
  split at h
  · cases h
  · rename_i found hfound
    cases found with
    | none => cases h
    | some found =>
      obtain ⟨event, place⟩ := found
      simp only at h
      split at h
      · cases h
      · rename_i built hbuilt
        refine ⟨event, place, built, hfound, hbuilt, ?_⟩
        cases built with
        | inl root =>
          cases h
          rfl
        | inr opened =>
          cases h
          rfl

/-- A turn of the loop that reads an event does what is built on it. -/
theorem Point.step_of_build {place : Place} {built : Element ⊕ List OpenElement} (hnext : p.place.next = .ok (some (event, place)))
    (hbuild : build p.opened event = .ok built) :
    p.step = .ok (built.map id fun opened => ⟨p.read ++ [event], place, opened⟩) := by
  simp only [step, hnext, bind, Except.bind, hbuild]
  cases built <;> rfl

/-- The loop goes on behind an event that leaves elements open, or none so far. -/
theorem Point.step_eq_inr (h : p.step = .ok (.inr q)) :
    ∃ event place opened, p.place.next = .ok (some (event, place)) ∧ build p.opened event = .ok (.inr opened) ∧
      q = ⟨p.read ++ [event], place, opened⟩ := by
  obtain ⟨event, place, built, hnext, hbuild, hq⟩ := step_eq_ok h
  cases built with
  | inl root => cases hq
  | inr opened => exact ⟨event, place, opened, hnext, hbuild, Sum.inr.inj hq⟩

/-- The loop ends with a document behind an event that hands it over. -/
theorem Point.step_eq_inl {root : Element} (h : p.step = .ok (.inl root)) :
    ∃ event place, p.place.next = .ok (some (event, place)) ∧ build p.opened event = .ok (.inl root) := by
  obtain ⟨event, place, built, hnext, hbuild, hroot⟩ := step_eq_ok h
  cases built with
  | inl found =>
    cases hroot
    exact ⟨event, place, hnext, hbuild⟩
  | inr opened => cases hroot

theorem mirrors_start (text : String) : Mirrors (Point.start text) [] :=
  ⟨.none nofun, rfl, rfl⟩

namespace Mirrors

variable {place : Place}

theorem openAfter_eq (h : Mirrors p tags) (hnext : p.place.next = .ok (some (event, place))) :
    event.openAfter (tags.map tagName) = .ok place.names := by
  rw [← h.names_eq]
  exact (Place.next_eq_some hnext).1

/-- The tree is handed over where the event that is read closes the first element. -/
theorem isLeft_iff {built : Element ⊕ List OpenElement} (h : Mirrors p tags)
    (hnext : p.place.next = .ok (some (event, place))) (hbuild : build p.opened event = .ok built) :
    built.isLeft = true ↔ IsDocument (p.read ++ [event]) := by
  have hlength : p.opened.length = tags.length := by
    have hmap := congrArg List.length h.opened_eq
    rwa [List.length_map, List.length_map] at hmap
  rw [isLeft_of_build hbuild, h.opens.isDocument_iff]
  refine or_congr (and_congr_left' ?_) ⟨?_, ?_⟩
  · rw [← List.length_eq_zero_iff, hlength, List.length_eq_zero_iff]
  · rintro ⟨e, name, he, rfl⟩
    rw [he, List.length_singleton] at hlength
    obtain ⟨tag, rfl⟩ := List.length_eq_one_iff.mp hlength.symm
    have hnames := h.openAfter_eq hnext
    rw [List.map_singleton, Event.openAfter] at hnames
    split at hnames
    case isTrue hname => exact ⟨tag, rfl, by rw [hname]⟩
    case isFalse => cases hnames
  · rintro ⟨tag, rfl, rfl⟩
    obtain ⟨e, he⟩ := List.length_eq_one_iff.mp hlength
    exact ⟨e, _, he, rfl⟩

/-- A turn of the loop keeps the two stacks alike. -/
theorem step (h : Mirrors p tags) (hstep : p.step = .ok (.inr q)) : ∃ tags', Mirrors q tags' := by
  obtain ⟨event, place, opened, hnext, hbuild, rfl⟩ := Point.step_eq_inr hstep
  have hdocument : ¬IsDocument (p.read ++ [event]) := by
    rw [← h.isLeft_iff hnext hbuild]
    simp
  have hnames := h.openAfter_eq hnext
  obtain ⟨tags', hopens, htags⟩ := h.opens.next hnames hdocument
  rw [← h.opened_eq] at hnames
  have hopened := names_of_build hbuild hnames
  exact ⟨tags', hopens, htags, hopened.trans htags⟩

/-- An end tag is read only where an element is open in the tree. -/
theorem opened_ne_nil {name : List Char} (h : Mirrors p tags) (hnext : p.place.next = .ok (some (.endTag name, place))) :
    p.opened ≠ [] := by
  intro hnil
  have hnames := h.openAfter_eq hnext
  rw [← h.opened_eq, hnil] at hnames
  cases hnames

/-- The loop ends with a document where the event that is read closes the first element. Only a single tag has attributes yet to be
read there. -/
theorem exists_step_eq_inl_iff (h : Mirrors p tags) (hnext : p.place.next = .ok (some (event, place))) :
    (∃ root, p.step = .ok (.inl root)) ↔
      IsDocument (p.read ++ [event]) ∧ ∀ tag, event = .emptyTag tag → ∃ e, OpenElement.ofTag tag = .ok e := by
  constructor
  · rintro ⟨root, hstep⟩
    obtain ⟨event', place', hnext', hbuild⟩ := Point.step_eq_inl hstep
    cases hnext.symm.trans hnext'
    refine ⟨(h.isLeft_iff hnext hbuild).mp rfl, ?_⟩
    rintro tag rfl
    cases htag : OpenElement.ofTag tag with
    | error fault =>
      simp only [build, htag, bind, Except.bind] at hbuild
      cases hbuild
    | ok e => exact ⟨e, rfl⟩
  · rintro ⟨hdocument, hreadable⟩
    have hbuilds : ∃ built, build p.opened event = .ok built := by
      rcases h.opens.isDocument_iff.mp hdocument with ⟨-, tag, rfl⟩ | ⟨tag, -, rfl⟩
      · obtain ⟨e, he⟩ := hreadable tag rfl
        simp only [build, he, bind, Except.bind]
        exact ⟨_, rfl⟩
      · obtain ⟨e, outer, hopened⟩ := List.exists_cons_of_ne_nil (h.opened_ne_nil hnext)
        rw [hopened]
        exact ⟨_, rfl⟩
    obtain ⟨built, hbuild⟩ := hbuilds
    have hleft := (h.isLeft_iff hnext hbuild).mpr hdocument
    cases built with
    | inl root => exact ⟨root, Point.step_of_build hnext hbuild⟩
    | inr opened => cases hleft

end Mirrors

theorem Reached.mirrors (h : Reached text p) : ∃ tags, Mirrors p tags := by
  induction h with
  | start => exact ⟨[], mirrors_start text⟩
  | step _ hstep ih =>
    obtain ⟨tags, hmirrors⟩ := ih
    exact hmirrors.step hstep

/-! ## Where the loop ends -/

/-- From each of its points, the loop goes on to what the document comes to. -/
theorem Reached.result_eq (h : Reached text p) : p.result = parse text := by
  induction h with
  | start => rw [parse_eq]
  | @step p q _ hstep ih => rw [← ih, p.result_eq, hstep]

/-- The events of a text are those that have been read and those that are ahead. -/
theorem Reached.events_eq (h : Reached text p) : (eventsOf text.toList).events = p.read ++ p.place.ahead.events := by
  induction h with
  | start => rw [eventsOf_eq, Point.start, List.nil_append]
  | @step p q _ hstep ih =>
    obtain ⟨event, place, opened, hnext, -, rfl⟩ := Point.step_eq_inr hstep
    rw [ih, p.place.ahead_eq, hnext]
    simp [Events.cons]

/-- The loop comes to an end, since each turn takes some of what is to be read. -/
theorem Reached.exists_last {p : Point} (h : Reached text p) : ∃ q, Reached text q ∧ q.step = (parse text).map Sum.inl := by
  have hresult := h.result_eq
  rw [p.result_eq] at hresult
  cases hstep : p.step with
  | error fault =>
    rw [hstep] at hresult
    exact ⟨p, h, by rw [hstep, ← hresult]; rfl⟩
  | ok made =>
    cases made with
    | inl root =>
      rw [hstep] at hresult
      exact ⟨p, h, by rw [hstep, ← hresult]; rfl⟩
    | inr q =>
      have hlength : q.place.rest.length < p.place.rest.length := by
        obtain ⟨event, place, opened, hnext, -, rfl⟩ := Point.step_eq_inr hstep
        exact (Place.next_eq_some hnext).2
      exact (h.step hstep).exists_last
termination_by p.place.rest.length

/-- The document is what the loop ends with. -/
theorem parse_eq_iff {result : Except Error Element} :
    parse text = result ↔ ∃ p, Reached text p ∧ p.step = result.map Sum.inl := by
  constructor
  · rintro rfl
    exact Reached.start.exists_last
  · rintro ⟨p, hreached, hstep⟩
    rw [← hreached.result_eq, p.result_eq, hstep]
    cases result <;> rfl

/-! ## No stray end tag -/

/-- One computation after another has a fault only if one of them has it. -/
theorem bind_ne_error {α β : Type} {x : Except Error α} {f : α → Except Error β} {fault : Error} (hx : x ≠ .error fault)
    (hf : ∀ a, x = .ok a → f a ≠ .error fault) : (x >>= f) ≠ .error fault := by
  cases x with
  | error fault' => simpa [bind, Except.bind] using hx
  | ok a => exact hf a rfl

theorem map_ne_error {α β : Type} {x : Except Error α} {f : α → β} {fault : Error} (hx : x ≠ .error fault) :
    f <$> x ≠ .error fault := by
  rw [← bind_pure_comp]
  exact bind_ne_error hx fun a _ h => by cases h

theorem closedMarkup_ne_strayEndTag {toEvent : List Char → Except Error Event} (h : ∀ content, toEvent content ≠ .error .strayEndTag)
    (fault : MarkupFault) (found : Option (List Char × List Char)) : closedMarkup fault found toEvent ≠ .error .strayEndTag := by
  unfold closedMarkup
  split
  · simp
  · exact map_ne_error (h _)

/-- What the reader refuses is never for the tree to find. -/
theorem readMarkup_ne_strayEndTag (cs : List Char) : readMarkup cs ≠ .error .strayEndTag := by
  unfold readMarkup
  split
  case h_5 => simp
  all_goals refine closedMarkup_ne_strayEndTag (fun content => ?_) _ _
  case h_1 =>
    unfold Event.ofCharacterData
    split <;> simp
  case h_2 =>
    unfold Event.ofComment
    split <;> simp
  case h_3 | h_4 =>
    unfold Event.ofDocumentType
    split
    · split <;> simp
    · simp
  case h_6 =>
    unfold Event.ofInstruction
    split <;> simp
  case h_7 | h_8 => simp

theorem openAfter_ne_strayEndTag (names : List (List Char)) (event : Event) : event.openAfter names ≠ .error .strayEndTag := by
  unfold Event.openAfter
  split
  · simp
  · split
    · simp
    · split <;> simp
  · simp

theorem next_ne_strayEndTag (place : Place) : place.next ≠ .error .strayEndTag := by
  unfold Place.next
  split
  · simp
  · split
    · refine bind_ne_error (readMarkup_ne_strayEndTag _) fun found _ => ?_
      exact bind_ne_error (openAfter_ne_strayEndTag _ _) fun names _ h => by cases h
    · simp

theorem readAttributes_ne_strayEndTag (size offset : Nat) (seen : SeenKeys) (cs : List Char) :
    readAttributes size offset seen cs ≠ .error .strayEndTag := by
  fun_induction readAttributes size offset seen cs with
  | case1 => simp
  | case2 => simp
  | case3 => simp
  | case4 offset seen cs a _ value _ ih => exact map_ne_error ih

/-- The tree finds a stray end tag only if no element is open in it. -/
theorem build_ne_strayEndTag (h : ∀ name, event = .endTag name → opened ≠ []) : build opened event ≠ .error .strayEndTag := by
  have hofTag : ∀ tag, OpenElement.ofTag tag ≠ .error .strayEndTag := by
    intro tag
    exact bind_ne_error (readAttributes_ne_strayEndTag _ _ _ _) fun attributes _ h => by cases h
  cases event with
  | startTag tag => exact bind_ne_error (hofTag tag) fun e _ h => by cases h
  | emptyTag tag => exact bind_ne_error (hofTag tag) fun e _ h => by cases h
  | endTag name =>
    cases opened with
    | nil => exact absurd rfl (h name rfl)
    | cons e outer => simp [build]
  | text content =>
    simp only [build]
    split <;> simp
  | characterData content => simp [build]
  | aside => simp [build]

theorem Mirrors.step_ne_strayEndTag (h : Mirrors p tags) : p.step ≠ .error .strayEndTag := by
  refine bind_ne_error (next_ne_strayEndTag p.place) fun found hnext => ?_
  cases found with
  | none =>
    intro hfault
    simp only at hfault
    split at hfault <;> cases hfault
  | some found =>
    obtain ⟨event, place⟩ := found
    refine bind_ne_error (build_ne_strayEndTag ?_) fun built _ => ?_
    · rintro name rfl
      exact h.opened_ne_nil hnext
    · intro hfault
      cases built <;> cases hfault

/-- The two stacks of a document that is being read, in five parts. For every text:
1. At each point of the loop the events read so far are the first ones of the text, there is exactly one row of start tags that are
   still open behind them, and both the names that the reader keeps and the names of the elements that are open in the tree are those
   of these tags, innermost first.
2. Where an end tag is read, an element is open in the tree; so no text is refused because one was not.
3. Where an event is read, the loop ends with a document if and only if the event closes the first element outside all others; the
   attributes of that element have to be fit to be read if it is a single tag.
4. Reading the text comes to a document, or to a fault, if and only if some turn of the loop does.
5. What is read as a document begins with events up to the end of its first element, in which every start tag has its end tag, with
   the same name. -/
theorem stacks_of_parse (text : String) :
    (∀ p, Reached text p → p.read <+: (eventsOf text.toList).events ∧
        ∃ tags, (∀ tags', Opens p.read tags' ↔ tags' = tags) ∧ p.place.names = tags.map tagName ∧
          p.opened.map (·.name.toList) = tags.map tagName) ∧
      ((∀ p, Reached text p → ∀ name place, p.place.next = .ok (some (.endTag name, place)) → p.opened ≠ []) ∧
        parse text ≠ .error .strayEndTag) ∧
      (∀ p, Reached text p → ∀ event place, p.place.next = .ok (some (event, place)) →
        ((∃ root, p.step = .ok (.inl root)) ↔
          IsDocument (p.read ++ [event]) ∧ ∀ tag, event = .emptyTag tag → ∃ e, OpenElement.ofTag tag = .ok e)) ∧
      (∀ result, parse text = result ↔ ∃ p, Reached text p ∧ p.step = result.map Sum.inl) ∧
      ∀ root, parse text = .ok root → ∃ document, document <+: (eventsOf text.toList).events ∧ IsDocument document := by
  refine ⟨fun p hp => ?_, ⟨fun p hp name place hnext => ?_, fun hstray => ?_⟩, fun p hp event place hnext => ?_,
    fun result => parse_eq_iff, fun root hroot => ?_⟩
  · obtain ⟨tags, hmirrors⟩ := hp.mirrors
    refine ⟨⟨_, hp.events_eq.symm⟩, tags, fun tags' => ⟨fun htags' => htags'.eq hmirrors.opens, ?_⟩, hmirrors.names_eq,
      hmirrors.opened_eq⟩
    rintro rfl
    exact hmirrors.opens
  · obtain ⟨tags, hmirrors⟩ := hp.mirrors
    exact hmirrors.opened_ne_nil hnext
  · obtain ⟨p, hp, hstep⟩ := parse_eq_iff.mp hstray
    obtain ⟨tags, hmirrors⟩ := hp.mirrors
    exact hmirrors.step_ne_strayEndTag hstep
  · obtain ⟨tags, hmirrors⟩ := hp.mirrors
    exact hmirrors.exists_step_eq_inl_iff hnext
  · obtain ⟨p, hp, hstep⟩ := parse_eq_iff.mp hroot
    obtain ⟨tags, hmirrors⟩ := hp.mirrors
    obtain ⟨event, place, hnext, hbuild⟩ := Point.step_eq_inl hstep
    refine ⟨p.read ++ [event], ?_, (hmirrors.isLeft_iff hnext hbuild).mp rfl⟩
    rw [hp.events_eq, p.place.ahead_eq, hnext]
    exact ⟨place.ahead.events, by simp [Events.cons]⟩

/-- An attribute with a reference that cannot be resolved is a fault of its tag. -/
theorem readAttributes_eq_error {size offset : Nat} {seen : SeenKeys} {cs : List Char} {a : Attribute} {fault : ReferenceFault}
    (hread : readAttribute size offset seen cs = .ok (some a)) (hresolve : resolve a.value = .error fault) :
    readAttributes size offset seen cs = .error (.reference fault) := by
  rw [readAttributes]
  split
  · rename_i h
    cases hread.symm.trans h
  · rename_i h
    cases hread.symm.trans h
  · rename_i h
    cases hread.symm.trans h
    rw [hresolve]

/-- The attributes cannot be left out of the third part: a single tag closes the first element also where they cannot be read, and
there the loop ends with a fault. The document in the proof declares the entity to which the attribute refers, but only the five
entities that need no declaration are known. -/
theorem stacks_of_parse_false :
    ¬∀ (text : String) (p : Point), Reached text p → ∀ event place, p.place.next = .ok (some (event, place)) →
        ((∃ root, p.step = .ok (.inl root)) ↔ IsDocument (p.read ++ [event])) := by
  intro h
  have hstep : (Point.start "<!DOCTYPE a [<!ENTITY b 'c'>]><a d='&b;'/>").step =
      .ok (.inr ⟨[.aside], ⟨[], "<a d='&b;'/>".toList⟩, []⟩) := rfl
  have hnext : Place.next ⟨[], "<a d='&b;'/>".toList⟩ = .ok (some (.emptyTag "a d='&b;'".toList, ⟨[], []⟩)) := rfl
  have hreached := Reached.start.step hstep
  have hends := (h _ _ hreached _ _ hnext).mpr (.single (by simp [Event.isTag]))
  obtain ⟨tags, hmirrors⟩ := hreached.mirrors
  obtain ⟨e, he⟩ := ((hmirrors.exists_step_eq_inl_iff hnext).mp hends).2 _ rfl
  have hkey : IsName ['d'] := by decide
  have hblank : IsBlank [' '] := by decide
  have hnone : IsBlank [] := by decide
  have hvalue : '\'' ∉ ['&', 'b', ';'] := by decide
  have hresolve : resolve ['&', 'b', ';'] = .error (.unknownEntity 1 2 ['b']) := by decide +kernel
  obtain ⟨place, stop, hread⟩ :=
    readAttribute_spelled 9 1 hkey Std.HashMap.getElem?_empty (Or.inr rfl) hblank hnone hnone hvalue []
  cases (readAttributes_eq_error hread hresolve).symm.trans (ofTag_eq_ok he).2

end StreamAuth.Xml
