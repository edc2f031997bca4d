import StreamAuth.Proofs.Documents
import StreamAuth.Stanza.Inbound

/-!
# What is printed, and what breaks off

A tree of elements is printed tag by tag (`Element.print`), and every way of writing it is read as the tree. A document that
breaks off is read as nothing at all, wherever the break is: inside a tag no end of it is to be found, whatever quotes are open
(`faulty_tag`); inside a text an entity has been cut in two, or the input ends with an element open (`faulty_text`); and between
pieces an element is open, too. So the proof goes by induction on what is written, with any elements open around it
(`faulty_written`).
-/

namespace StreamAuth

/-- What begins a list that is put together from two either breaks off in the first of them or has all of it. -/
theorem prefix_append_cases {α : Type} {front as bs : List α} (h : front <+: as ++ bs) :
    (front <+: as ∧ front ≠ as) ∨ ∃ more, front = as ++ more ∧ more <+: bs := by
  rcases List.prefix_or_prefix_of_prefix h (List.prefix_append as bs) with hp | ⟨more, rfl⟩
  · by_cases he : front = as
    · exact Or.inr ⟨[], by simp [he], List.nil_prefix⟩
    · exact Or.inl ⟨hp, he⟩
  · exact Or.inr ⟨more, rfl, (List.prefix_append_right_inj as).mp h⟩

namespace Xml

/-! ## Printing -/

/-- The attributes of a tag, each behind a blank and with its value between apostrophes. -/
def printAttributes (attributes : List (String × String)) : List Char :=
  attributes.flatMap fun (key, value) => ' ' :: key.toList ++ '=' :: ('\'' :: escape value.toList ++ ['\''])

namespace Element

mutual

/-- A tree as a document: the start tag of its element, the text, the children and the end tag. -/
def print : Element → List Char
  | ⟨name, attributes, text, children⟩ =>
    '<' :: (name.toList ++ printAttributes attributes) ++
      '>' :: (escape text.toList ++ printAll children ++ '<' :: '/' :: name.toList ++ ['>'])

/-- A row of trees, tree by tree. -/
def printAll : List Element → List Char
  | [] => []
  | e :: row => print e ++ printAll row

end

/-- A tree that can be printed: the names and keys are names, no key comes twice in a tag, and no text begins or ends with a
blank. -/
inductive Printable : Element → Prop where
  | intro {name text : String} {attributes : List (String × String)} {children : List Element} :
      IsName name.toList → (∀ key ∈ attributes.map Prod.fst, IsName key.toList) → (attributes.map Prod.fst).Nodup →
      IsTrimmed text.toList → (∀ child ∈ children, Printable child) → Printable ⟨name, attributes, text, children⟩

end Element

/-- The attributes are written as they are printed. -/
theorem writtenAttributes_print {attributes : List (String × String)}
    (hkeys : ∀ key ∈ attributes.map Prod.fst, IsName key.toList) (hfresh : (attributes.map Prod.fst).Nodup) :
    WrittenAttributes attributes (printAttributes attributes) := by
  induction attributes with
  | nil => exact .nil
  | cons first attributes ih =>
    obtain ⟨key, value⟩ := first
    obtain ⟨hkey, hkeys⟩ := List.forall_mem_cons.mp hkeys
    obtain ⟨hnew, hfresh⟩ := List.nodup_cons.mp hfresh
    exact .cons hkey hnew (Or.inr rfl) (ih hkeys hfresh)

/-- A printed tree can stand at the front of a row. -/
theorem Element.Printable.written_cons {e : Element} (h : e.Printable) :
    ∀ {row : List Element} {later : List Char}, Written row later → Written (e :: row) (e.print ++ later) := by
  induction h with
  | @intro name text attributes children hname hkeys hfresh htext hchildren ih =>
    intro row later hlater
    have hinside : Written children (Element.printAll children) := by
      clear hchildren hlater
      induction children with
      | nil => exact .nil
      | cons child children ihrow =>
        obtain ⟨ihchild, ih⟩ := List.forall_mem_cons.mp ih
        exact ihchild (ihrow ih)
    exact .element hname (writtenAttributes_print hkeys hfresh) htext hinside hlater

/-! ## Breaking off -/

/-- Nothing can be read from a place inside a document, with what is open there. -/
def Faulty (names : List (List Char)) (opened : List OpenElement) (cs : List Char) : Prop :=
  ∃ fault, parseFrom names opened cs = .error fault

variable {names : List (List Char)} {opened : List OpenElement} {front : List Char}

theorem readEvents_nil : readEvents names [] = ⟨[], none⟩ := by
  rw [readEvents]
  split
  · rfl
  · rename_i h
    cases h
  · rename_i h
    cases h

/-- At the end of the input there is nothing more to be read. -/
theorem faulty_nil (names : List (List Char)) (opened : List OpenElement) : Faulty names opened [] := by
  rw [Faulty, parseFrom, readEvents_nil]
  exact ⟨_, rfl⟩

/-! ### Inside a tag -/

/-- A tag that has no end in a text has none at the front of it. -/
theorem cutTag?_eq_none_of_append {quote : Option Char} {cs rest : List Char} (h : cutTag? quote (cs ++ rest) = none) :
    cutTag? quote cs = none := by
  fun_induction cutTag? quote cs with
  | case1 => rfl
  | case2 rest => cases h
  | case3 c cs hc ih =>
    rw [List.cons_append, cutTag?.eq_3 _ _ hc, Option.map_eq_none_iff] at h
    rw [ih h]
    rfl
  | case4 q c cs ih =>
    rw [List.cons_append, cutTag?, Option.map_eq_none_iff] at h
    rw [ih h]
    rfl

/-- No tag ends in front of a place up to which none ends. -/
theorem Passes.cutTag?_eq_none {cs : List Char} (h : Passes cs) (hfront : front <+: cs) : Xml.cutTag? none front = none := by
  obtain ⟨rest, rfl⟩ := hfront
  have hcut := h []
  rw [List.append_nil] at hcut
  exact cutTag?_eq_none_of_append hcut

/-- A tag without an end is a fault. -/
theorem readMarkup_of_cutTag? {cs : List Char} (hcut : cutTag? none cs = none) (hmark : ∀ c ∈ cs.head?, c ≠ '!' ∧ c ≠ '?') :
    readMarkup cs = .error (.markup .tag) := by
  unfold readMarkup
  split
  case h_7 | h_8 => rw [hcut, closedMarkup]
  case h_6 => exact absurd rfl (hmark '?' rfl).2
  all_goals exact absurd rfl (hmark '!' rfl).1

/-- A document that breaks off inside a tag is at fault. -/
theorem faulty_tag {cs : List Char} (h : Passes cs) (hmark : ∀ c ∈ cs.head?, c ≠ '!' ∧ c ≠ '?')
    (hfront : front <+: '<' :: cs) : Faulty names opened front := by
  rcases List.prefix_cons_iff.mp hfront with rfl | ⟨markup, rfl, hmarkup⟩
  · exact faulty_nil _ _
  · have hhead : ∀ c ∈ markup.head?, c ≠ '!' ∧ c ≠ '?' := by
      intro c hc
      obtain ⟨rest, rfl⟩ := hmarkup
      exact hmark c (by rw [List.head?_append, hc]; rfl)
    have hread := readMarkup_of_cutTag? (h.cutTag?_eq_none hmarkup) hhead
    rw [Faulty, parseFrom, readEvents_lt, hread]
    exact ⟨_, rfl⟩

/-- The name of a tag is not that of other markup. -/
theorem IsName.head_ne {name : List Char} (h : IsName name) (more : List Char) :
    ∀ c ∈ (name ++ more).head?, c ≠ '!' ∧ c ≠ '?' := by
  intro c hc
  have hmem : c ∈ name := by
    obtain ⟨first, body, rfl⟩ := List.exists_cons_of_ne_nil h.ne_nil
    cases hc
    exact List.mem_cons_self
  refine ⟨?_, ?_⟩
  · rintro rfl
    exact h.not_mem rfl hmem
  · rintro rfl
    exact h.not_mem rfl hmem

/-! ### Inside a text -/

/-- A text that nothing stands behind is the last event, if it is not blank. -/
theorem readEvents_of_text (h : '<' ∉ front) :
    readEvents names front = ⟨[], none⟩ ∨ ∃ content, readEvents names front = (readEvents names []).cons (.text content) := by
  have hsublist := front.dropWhile_sublist Text.isXmlBlank
  rw [readEvents]
  split
  · exact Or.inl rfl
  · rename_i he
    rw [he] at hsublist
    exact absurd (hsublist.subset List.mem_cons_self) h
  · rename_i c rest _ he
    rw [he] at hsublist
    have hplain : '<' ∉ rest := fun hx => h (hsublist.subset (List.mem_cons_of_mem c hx))
    have hrest : rest.dropWhile (· != '<') = [] := List.dropWhile_eq_nil_iff.mpr (Text.bne_of_not_mem hplain)
    rw [hrest]
    exact Or.inr ⟨_, rfl⟩

/-- A text is at fault, or it leaves open what was open. -/
theorem build_text (opened : List OpenElement) (content : List Char) :
    (∃ fault, build opened (.text content) = .error fault) ∨ ∃ opened', build opened (.text content) = .ok (.inr opened') := by
  simp only [build]
  split
  · exact Or.inr ⟨_, rfl⟩
  · exact Or.inl ⟨_, rfl⟩
  · exact Or.inr ⟨_, rfl⟩

/-- A document that breaks off inside a text is at fault. -/
theorem faulty_text (h : '<' ∉ front) : Faulty names opened front := by
  rcases readEvents_of_text h with hr | ⟨content, hr⟩
  · rw [Faulty, parseFrom, hr]
    exact ⟨_, rfl⟩
  · rcases build_text opened content with ⟨fault, hb⟩ | ⟨opened', hb⟩
    · refine ⟨fault, ?_⟩
      rw [parseFrom, hr, Events.cons, buildAll, hb]
      rfl
    · obtain ⟨fault, hf⟩ := faulty_nil names opened'
      exact ⟨fault, (parseFrom_of_cons hr hb).trans hf⟩

/-! ### Inside an element -/

section

variable {name : List Char} {attributes : List (String × String)} {tag : List Char}

/-- A document that breaks off inside an element that is a single tag is at fault. -/
theorem faulty_single (hname : IsName name) (htag : WrittenAttributes attributes tag)
    (hfront : front <+: '<' :: (name ++ tag) ++ ['/', '>']) (hne : front ≠ '<' :: (name ++ tag) ++ ['/', '>']) :
    Faulty names opened front := by
  have hslash : Passes ['/'] := passes_of_plain (by simp)
  have hform : '<' :: (name ++ tag) ++ ['/', '>'] = '<' :: (name ++ (tag ++ ['/'])) ++ ['>'] := by simp
  rw [hform] at hfront hne
  rcases List.prefix_concat_iff.mp hfront with he | hcut
  · exact absurd he hne
  · exact faulty_tag (hname.passes.append (htag.spelled.passes.append hslash)) (hname.head_ne _) hcut

/-- A document that breaks off inside an end tag is at fault. -/
theorem faulty_endTag (hname : IsName name) (hfront : front <+: '<' :: '/' :: name ++ ['>'])
    (hne : front ≠ '<' :: '/' :: name ++ ['>']) : Faulty names opened front := by
  have hslash : Passes ['/'] := passes_of_plain (by simp)
  rcases List.prefix_concat_iff.mp hfront with he | hcut
  · exact absurd he hne
  · have hmark : ∀ c ∈ ('/' :: name).head?, c ≠ '!' ∧ c ≠ '?' := by
      intro c hc
      cases hc
      decide
    exact faulty_tag (hslash.append hname.passes) hmark hcut

/-- A document that breaks off behind a start tag and before its end tag is complete is at fault, if it is at fault wherever it
breaks off among the children. -/
theorem faulty_inside {text inside : List Char} {children : List Element} {e : OpenElement} (hname : IsName name)
    (htext : IsTrimmed text) (hinside : Written children inside)
    (ih : ∀ e front, front <+: inside → Faulty (name :: names) (e :: opened) front)
    (hfront : front <+: escape text ++ (inside ++ ('<' :: '/' :: name ++ ['>'])))
    (hne : front ≠ escape text ++ (inside ++ ('<' :: '/' :: name ++ ['>']))) : Faulty (name :: names) (e :: opened) front := by
  have hlt : '<' ∉ escape text := not_mem_escape (Or.inl rfl) text
  rcases prefix_append_cases hfront with ⟨⟨rest, htextCut⟩, -⟩ | ⟨more, rfl, hmore⟩
  · refine faulty_text fun hmem => hlt ?_
    rw [← htextCut]
    exact List.mem_append_left rest hmem
  cases more with
  | nil =>
    rw [List.append_nil]
    exact faulty_text hlt
  | cons c more =>
    obtain ⟨begun, hbegun⟩ := hinside.lt ('/' :: name ++ ['>'])
    obtain rfl : c = '<' := by
      obtain ⟨rest, hrest⟩ := hmore
      exact (List.cons.inj (hrest.trans hbegun)).1
    rw [Faulty, parseFrom_text htext]
    rcases prefix_append_cases hmore with ⟨hcut, -⟩ | ⟨last, hlast, hend⟩
    · exact ih _ _ hcut
    · rw [hlast, parseFrom_written hinside]
      exact faulty_endTag hname hend fun he => hne (by rw [hlast, he])

end

/-- A document that breaks off inside an element is at fault, if it is at fault wherever it breaks off among the children. -/
theorem faulty_element {name text : String} {attributes : List (String × String)} {children : List Element}
    {tag inside : List Char} (hname : IsName name.toList) (htag : WrittenAttributes attributes tag)
    (htext : IsTrimmed text.toList) (hinside : Written children inside)
    (ih : ∀ names e opened front, front <+: inside → Faulty names (e :: opened) front)
    (hfront : front <+: '<' :: (name.toList ++ tag) ++
      '>' :: (escape text.toList ++ inside ++ '<' :: '/' :: name.toList ++ ['>']))
    (hne : front ≠ '<' :: (name.toList ++ tag) ++
      '>' :: (escape text.toList ++ inside ++ '<' :: '/' :: name.toList ++ ['>'])) : Faulty names opened front := by
  have hpasses := hname.passes.append htag.spelled.passes
  rcases prefix_append_cases hfront with ⟨hcut, -⟩ | ⟨more, rfl, hmore⟩
  · exact faulty_tag hpasses (hname.head_ne tag) hcut
  rcases List.prefix_cons_iff.mp hmore with rfl | ⟨content, rfl, hcontent⟩
  · rw [List.append_nil]
    exact faulty_tag hpasses (hname.head_ne tag) List.prefix_rfl
  · have hform : escape text.toList ++ inside ++ '<' :: '/' :: name.toList ++ ['>'] =
        escape text.toList ++ (inside ++ ('<' :: '/' :: name.toList ++ ['>'])) := by simp
    rw [hform] at hcontent hne
    rw [Faulty, parseFrom_startTag hname htag.spelled]
    exact faulty_inside hname htext hinside (fun e front => ih _ e opened front) hcontent fun he => hne (by rw [he])

/-- Inside an element, a document that breaks off anywhere in a row of elements or behind it is at fault. -/
theorem faulty_written {row : List Element} {cs : List Char} (h : Written row cs) :
    ∀ names e opened front, front <+: cs → Faulty names (e :: opened) front := by
  induction h with
  | nil =>
    intro names e opened front hfront
    rw [List.prefix_nil.mp hfront]
    exact faulty_nil _ _
  | element hname htag htext hinside _ ihinside ih =>
    intro names e opened front hfront
    rcases prefix_append_cases hfront with ⟨hcut, hne⟩ | ⟨more, rfl, hmore⟩
    · exact faulty_element hname htag htext hinside ihinside hcut hne
    · rw [Faulty, parseFrom_element hname htag htext hinside (parseFrom_written hinside)]
      exact ih _ _ _ _ hmore
  | @single name attributes row tag later hname htag _ ih =>
    intro names e opened front hfront
    rcases prefix_append_cases hfront with ⟨hcut, hne⟩ | ⟨more, rfl, hmore⟩
    · exact faulty_single hname htag hcut hne
    · have hform : '<' :: (name.toList ++ tag) ++ ['/', '>'] ++ more = '<' :: (name.toList ++ tag) ++ '/' :: '>' :: more := by
        simp
      rw [Faulty, hform, parseFrom_emptyTag hname htag.spelled]
      exact ih _ _ _ _ hmore

/-- A document that breaks off before its root has been closed is at fault. -/
theorem faulty_root {root : Element} {cs : List Char} (h : Written [root] cs) (hfront : front <+: cs) (hne : front ≠ cs) :
    Faulty [] [] front := by
  cases h with
  | element hname htag htext hinside hlater =>
    cases hlater
    rw [List.append_nil] at hfront hne
    exact faulty_element hname htag htext hinside (faulty_written hinside) hfront hne
  | single hname htag hlater =>
    cases hlater
    rw [List.append_nil] at hfront hne
    exact faulty_single hname htag hfront hne

/-! ## Documents -/

/-- A document is read from its beginning, however early it breaks off. -/
theorem parse_front {markup : List Char} (hfront : front <+: '<' :: markup) :
    parse (String.ofList front) = parseFrom [] [] front := by
  rcases List.prefix_cons_iff.mp hfront with rfl | ⟨more, rfl, _⟩
  · rfl
  · exact parse_of_lt more

/-- No front of a document is a document. -/
theorem parse_eq_error_of_front {root : Element} {cs : List Char} (h : Written [root] cs) (hfront : front <+: cs)
    (hne : front ≠ cs) : ∃ fault, parse (String.ofList front) = .error fault := by
  obtain ⟨fault, hfault⟩ := faulty_root h hfront hne
  obtain ⟨markup, hmarkup⟩ := h.lt []
  exact ⟨fault, (parse_front (hmarkup ▸ hfront.trans (List.prefix_append cs _))).trans hfault⟩

end Xml

/-- Reading a document gives back the tree that was printed, whatever stands behind it, and nothing but a fault if any of the
document is missing at its end. This holds of the tree as it is printed here and of every other way of writing it: with
quotation marks around a value, and with a single tag for an element that has nothing inside it. -/
theorem parseText_of_printable {root : Xml.Element} (h : root.Printable) :
    Xml.Written [root] root.print ∧ ∀ cs, Xml.Written [root] cs →
      (∀ rest, parseText (String.ofList (cs ++ rest)) = .ok root) ∧
        ∀ front, front <+: cs → front ≠ cs → ∃ fault, parseText (String.ofList front) = .error (.malformed (.xml fault)) := by
  refine ⟨?_, fun cs hcs => ⟨?_, ?_⟩⟩
  · have hwritten := h.written_cons .nil
    rwa [List.append_nil] at hwritten
  · intro rest
    rw [parseText, Xml.parse_written hcs rest]
    rfl
  · intro front hfront hne
    obtain ⟨fault, hfault⟩ := Xml.parse_eq_error_of_front hcs hfront hne
    refine ⟨fault, ?_⟩
    rw [parseText, hfault]
    rfl

/-- An element with an attribute, a text and a child inside it: the document as it is printed, with more markup behind it and
without its last character. -/
theorem parseText_of_printable_nested :
    let root : Xml.Element := ⟨"a", [("k", "'<")], "x & y", [⟨"b:c", [], "", []⟩]⟩
    root.Printable ∧ parseText "<a k='&apos;&lt;'>x &amp; y<b:c></b:c></a> <" = .ok root ∧
      ∃ fault, parseText "<a k='&apos;&lt;'>x &amp; y<b:c></b:c></a" = .error (.malformed (.xml fault)) := by
  intro root
  have hchild : Xml.Element.Printable ⟨"b:c", [], "", []⟩ :=
    .intro (by decide +kernel) nofun List.nodup_nil (by decide +kernel) nofun
  have hroot : root.Printable :=
    .intro (by decide +kernel) (by decide +kernel) (by decide) (by decide +kernel) (List.forall_mem_singleton.mpr hchild)
  have hprint : root.print = "<a k='&apos;&lt;'>x &amp; y<b:c></b:c></a>".toList := by decide +kernel
  obtain ⟨hwritten, hall⟩ := parseText_of_printable hroot
  obtain ⟨hread, hbroken⟩ := hall _ hwritten
  have hwhole := hread [' ', '<']
  have hfront := hbroken root.print.dropLast (List.dropLast_prefix _) (by decide +kernel)
  rw [hprint] at hwhole hfront
  exact ⟨hroot, hwhole, hfront⟩

end StreamAuth
