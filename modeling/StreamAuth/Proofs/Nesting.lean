import StreamAuth.Xml.Event

/-!
# How tags nest

Of the start tags among some events, those are still open that have no end tag yet: what stands behind each of them is balanced up to
the next one (`Opens`). There is one row of them only, and the reader's names of open elements are theirs as long as no element outside
all others has been closed (`Opens.next`). Where one is closed, the events are a document (`IsDocument`), and which event closes it can
be told from the tags that are open in front of it (`Opens.isDocument_iff`).
-/

namespace StreamAuth.Xml

/-! ## Tags that are open -/

/-- Whether an event is a tag of any kind. -/
def Event.isTag : Event → Bool
  | .startTag _ | .emptyTag _ | .endTag _ => true
  | _ => false

/-- Whether an event opens an element or closes one. -/
def Event.isNesting : Event → Bool
  | .startTag _ | .endTag _ => true
  | _ => false

/-- Events in which each start tag has its end tag, with the same name. -/
inductive Balanced : List Event → Prop where
  | nil : Balanced []
  | plain {events : List Event} {event : Event} : Balanced events → event.isNesting = false → Balanced (events ++ [event])
  | element {events inside : List Event} {tag : List Char} :
      Balanced events → Balanced inside → Balanced (events ++ (.startTag tag :: inside ++ [.endTag (tagName tag)]))

/-- The start tags that are still open behind some events, innermost first: no tag stands in front of the outermost of them, and what
stands behind each of them is balanced, up to the next one. -/
inductive Opens : List Event → List (List Char) → Prop where
  | none {events : List Event} : (∀ event ∈ events, event.isTag = false) → Opens events []
  | inside {events inside : List Event} {tag : List Char} {tags : List (List Char)} :
      Opens events tags → Balanced inside → Opens (events ++ .startTag tag :: inside) (tag :: tags)

/-- Events up to the end of the first element outside all others: a single tag, or a start tag and its end tag with balanced events
between them, and no tag in front. -/
inductive IsDocument : List Event → Prop where
  | single {front : List Event} {tag : List Char} :
      (∀ event ∈ front, event.isTag = false) → IsDocument (front ++ [.emptyTag tag])
  | element {front inside : List Event} {tag : List Char} :
      (∀ event ∈ front, event.isTag = false) → Balanced inside →
      IsDocument (front ++ (.startTag tag :: inside ++ [.endTag (tagName tag)]))

/-- The start tags that are open behind an event, by those in front of it. -/
def Event.stillOpen (tags : List (List Char)) : Event → List (List Char)
  | .startTag tag => tag :: tags
  | .endTag _ => tags.tail
  | _ => tags

variable {events : List Event} {event : Event} {tags : List (List Char)}

/-- What is no tag changes nothing about the names of the open elements. -/
theorem openAfter_eq_ok (h : event.isTag = false) (names : List (List Char)) : event.openAfter names = .ok names := by
  cases event with
  | startTag tag => cases h
  | emptyTag tag => cases h
  | endTag name => cases h
  | _ => rfl

/-- Balanced events leave open what was open in front of them. -/
theorem Balanced.foldl_stillOpen (h : Balanced events) (tags : List (List Char)) :
    events.foldl Event.stillOpen tags = tags := by
  induction h generalizing tags with
  | nil => rfl
  | @plain events event _ hplain ih =>
    rw [List.foldl_append, ih]
    cases event with
    | startTag tag => cases hplain
    | endTag name => cases hplain
    | _ => rfl
  | @element events inside tag _ _ ih ihinside =>
    simp only [List.foldl_append, List.foldl_cons, List.foldl_nil, ih, ihinside, Event.stillOpen, List.tail_cons]

theorem Opens.foldl_stillOpen (h : Opens events tags) : events.foldl Event.stillOpen [] = tags := by
  induction h with
  | @none events hfront =>
    induction events with
    | nil => rfl
    | cons event events ih =>
      obtain ⟨hevent, hevents⟩ := List.forall_mem_cons.mp hfront
      rw [List.foldl_cons]
      cases event with
      | startTag tag => cases hevent
      | emptyTag tag => cases hevent
      | endTag name => cases hevent
      | _ => exact ih hevents
  | inside _ hinside ih =>
    rw [List.foldl_append, ih, List.foldl_cons, hinside.foldl_stillOpen, Event.stillOpen]

/-- There is only one row of open tags. -/
theorem Opens.eq {tags' : List (List Char)} (h : Opens events tags) (h' : Opens events tags') : tags = tags' := by
  rw [← h.foldl_stillOpen, h'.foldl_stillOpen]

/-- Balanced events inside the innermost open tag leave the tags open. -/
theorem Opens.append {tag : List Char} {more : List Event} (h : Opens events (tag :: tags))
    (hmore : ∀ inside, Balanced inside → Balanced (inside ++ more)) : Opens (events ++ more) (tag :: tags) := by
  cases h with
  | inside hfront hinside =>
    rw [List.append_assoc, List.cons_append]
    exact .inside hfront (hmore _ hinside)

/-- An event closes the first element if it is an element outside all others, or the end of the only one that is open. -/
theorem Opens.isDocument_iff (h : Opens events tags) :
    IsDocument (events ++ [event]) ↔
      (tags = [] ∧ ∃ tag, event = .emptyTag tag) ∨ ∃ tag, tags = [tag] ∧ event = .endTag (tagName tag) := by
  constructor
  · intro hdocument
    generalize he : events ++ [event] = document at hdocument
    cases hdocument with
    | single hfront =>
      obtain ⟨rfl, hevent⟩ := List.append_inj' he rfl
      exact Or.inl ⟨h.eq (.none hfront), _, List.singleton_inj.mp hevent⟩
    | element hfront hinside =>
      rw [← List.append_assoc] at he
      obtain ⟨rfl, hevent⟩ := List.append_inj' he rfl
      exact Or.inr ⟨_, h.eq (.inside (.none hfront) hinside), List.singleton_inj.mp hevent⟩
  · rintro (⟨rfl, tag, rfl⟩ | ⟨tag, rfl, rfl⟩)
    · cases h with
      | none hfront => exact .single hfront
    · cases h with
      | inside hfront hinside =>
        cases hfront with
        | none hfront =>
          rw [List.append_assoc]
          exact .element hfront hinside

/-- An event that does not close the first element changes the open tags as the reader changes their names. -/
theorem Opens.next {names : List (List Char)} (h : Opens events tags) (hnames : event.openAfter (tags.map tagName) = .ok names)
    (hdocument : ¬IsDocument (events ++ [event])) :
    ∃ tags', Opens (events ++ [event]) tags' ∧ names = tags'.map tagName := by
  have hplain : event.isNesting = false → (tags = [] → event.isTag = false) → Opens (events ++ [event]) tags := by
    intro hnesting htag
    cases tags with
    | nil =>
      cases h with
      | none hfront =>
        refine .none (List.forall_mem_append.mpr ⟨hfront, ?_⟩)
        simpa using htag rfl
    | cons tag tags => exact h.append fun inside hinside => hinside.plain hnesting
  cases event with
  | startTag tag =>
    cases hnames
    exact ⟨tag :: tags, .inside h .nil, rfl⟩
  | emptyTag tag =>
    cases hnames
    refine ⟨tags, hplain rfl fun hnil => ?_, rfl⟩
    exact absurd (h.isDocument_iff.mpr (Or.inl ⟨hnil, tag, rfl⟩)) hdocument
  | endTag name =>
    cases tags with
    | nil => cases hnames
    | cons tag tags =>
      rw [List.map_cons, Event.openAfter] at hnames
      split at hnames
      case isFalse => cases hnames
      case isTrue hname =>
        cases hnames
        subst hname
        cases tags with
        | nil => exact absurd (h.isDocument_iff.mpr (Or.inr ⟨tag, rfl, rfl⟩)) hdocument
        | cons outer tags =>
          cases h with
          | inside hfront hinside =>
            refine ⟨outer :: tags, ?_, rfl⟩
            rw [List.append_assoc]
            exact hfront.append fun before hbefore => hbefore.element hinside
  | text content =>
    cases hnames
    exact ⟨tags, hplain rfl fun _ => rfl, rfl⟩
  | characterData content =>
    cases hnames
    exact ⟨tags, hplain rfl fun _ => rfl, rfl⟩
  | aside =>
    cases hnames
    exact ⟨tags, hplain rfl fun _ => rfl, rfl⟩

end StreamAuth.Xml
