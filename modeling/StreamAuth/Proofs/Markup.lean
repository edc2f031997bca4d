import StreamAuth.Proofs.Runs
import StreamAuth.Xml.Document

/-!
# What the reader makes of written markup

A name, an attribute, a tag and a text as they are written, each with what the reader makes of it when more stands behind it.
Entities stand for the characters that markup is made of, so neither the end of a tag nor the beginning of one can be mistaken,
whatever a text or a value holds. Character data, comments and instructions have no entities: they may hold anything but what
closes them.
-/

namespace StreamAuth.Xml

/-! ## Names -/

/-- Whether a character may stand in a name: it is no blank, and none of the characters that markup is made of. -/
def isNameChar (c : Char) : Bool :=
  !Text.isXmlBlank c && !(['<', '>', '&', '\'', '"', '=', '/', '!', '?'].contains c)

/-- What is written as the name of an element or the key of an attribute. All names of XML are of this kind. -/
structure IsName (name : List Char) : Prop where
  ne_nil : name ≠ []
  chars : ∀ c ∈ name, isNameChar c

instance (name : List Char) : Decidable (IsName name) :=
  decidable_of_iff ((!name.isEmpty && name.all isNameChar) = true) <| by
    rw [Bool.and_eq_true, Bool.not_eq_true', List.isEmpty_eq_false_iff, List.all_eq_true]
    exact ⟨fun h => ⟨h.1, h.2⟩, fun h => ⟨h.ne_nil, h.chars⟩⟩

theorem IsName.not_mem {name : List Char} (h : IsName name) {c : Char} (hc : isNameChar c = false) : c ∉ name :=
  fun hm => Bool.false_ne_true (hc.symm.trans (h.chars c hm))

theorem not_isXmlBlank_of_isNameChar {c : Char} (h : isNameChar c) : Text.isXmlBlank c = false := by
  unfold isNameChar at h
  simp only [Bool.and_eq_true, Bool.not_eq_true'] at h
  exact h.1

/-- A key goes on with the characters of a name. -/
theorem endsKey_of_isNameChar {c : Char} (h : isNameChar c) : endsKey c = false := by
  have hequals : c ≠ '=' := by
    rintro rfl
    revert h
    decide
  simp [endsKey, hequals, not_isXmlBlank_of_isNameChar h]

/-! ## Texts -/

/-- A run of blanks. -/
def IsBlank (cs : List Char) : Prop :=
  ∀ c ∈ cs, Text.isXmlBlank c

instance (cs : List Char) : Decidable (IsBlank cs) :=
  decidable_of_iff (cs.all Text.isXmlBlank = true) List.all_eq_true

/-- Blanks in front of something else are dropped. -/
theorem IsBlank.dropWhile {blanks : List Char} (h : IsBlank blanks) {c : Char} (hc : Text.isXmlBlank c = false)
    (rest : List Char) : (blanks ++ c :: rest).dropWhile Text.isXmlBlank = c :: rest :=
  Text.dropWhile_run h (Text.stops_cons hc rest)

/-- What is cut from the two ends of a text is blank. -/
theorem exists_eq_trim (cs : List Char) :
    ∃ front back, cs = front ++ Text.trim Text.isXmlBlank cs ++ back ∧ IsBlank front ∧ IsBlank back := by
  refine ⟨cs.takeWhile Text.isXmlBlank,
    ((cs.dropWhile Text.isXmlBlank).reverse.takeWhile Text.isXmlBlank).reverse, ?_, fun c hc => ?_, fun c hc => ?_⟩
  · rw [Text.trim, Text.trimEnd, List.append_assoc, ← List.reverse_append, List.takeWhile_append_dropWhile, List.reverse_reverse,
      List.takeWhile_append_dropWhile]
  · exact List.mem_takeWhile_imp hc
  · exact List.mem_takeWhile_imp (List.mem_reverse.mp hc)

/-- What is left of a text that is cut at its two ends was in the text. -/
theorem mem_of_mem_trim {c : Char} {cs : List Char} (h : c ∈ Text.trim Text.isXmlBlank cs) : c ∈ cs := by
  obtain ⟨front, back, hcs, -⟩ := exists_eq_trim cs
  rw [hcs]
  exact List.mem_append_left _ (List.mem_append_right _ h)

/-- The characters of a text that are no blanks. -/
def inked (cs : List Char) : List Char :=
  cs.filter fun c => !Text.isXmlBlank c

theorem inked_append (cs ds : List Char) : inked (cs ++ ds) = inked cs ++ inked ds :=
  List.filter_append cs ds

theorem IsBlank.inked {cs : List Char} (h : IsBlank cs) : inked cs = [] := by
  refine List.filter_eq_nil_iff.mpr ?_
  intro c hc
  simp [h c hc]

/-- Nothing but blanks is cut from a text. -/
theorem inked_trim (cs : List Char) : inked (Text.trim Text.isXmlBlank cs) = inked cs := by
  obtain ⟨front, back, hcs, hfront, hback⟩ := exists_eq_trim cs
  calc inked (Text.trim Text.isXmlBlank cs)
      = inked (front ++ Text.trim Text.isXmlBlank cs ++ back) := by
        rw [inked_append, inked_append, hfront.inked, hback.inked, List.nil_append, List.append_nil]
    _ = inked cs := by rw [← hcs]

/-- A text of which nothing is left but its two ends is blank. -/
theorem isBlank_of_trim {cs : List Char} (h : Text.trim Text.isXmlBlank cs = []) : IsBlank cs :=
  Text.trim_eq_nil_iff.mp h

/-- A text without blanks at its two ends. -/
structure IsTrimmed (text : List Char) : Prop where
  front : ∀ c ∈ text.head?, Text.isXmlBlank c = false
  back : ∀ c ∈ text.getLast?, Text.isXmlBlank c = false

instance (text : List Char) : Decidable (IsTrimmed text) :=
  decidable_of_iff ((text.head?.all (!Text.isXmlBlank ·) && text.getLast?.all (!Text.isXmlBlank ·)) = true) <| by
    simp only [Bool.and_eq_true, Option.all_eq_true, Bool.not_eq_true']
    exact ⟨fun h => ⟨h.1, h.2⟩, fun h => ⟨h.front, h.back⟩⟩

/-- Nothing is cut from a text without blanks at its two ends. -/
theorem IsTrimmed.trim_eq_self {text : List Char} (h : IsTrimmed text) : Text.trim Text.isXmlBlank text = text := by
  have htrim : Text.trim Text.isXmlBlank ([] ++ text ++ []) = text := Text.trim_around nofun nofun h.front h.back
  rwa [List.nil_append, List.append_nil] at htrim

/-! ## Entities -/

/-- A character is written as an entity or as it is, and the latter only if markup is not made of it. -/
theorem escapeChar_cases (c : Char) :
    (∃ name, escapeChar c = '&' :: (name ++ [';']) ∧ entity? name = some c ∧ ∀ x ∈ name, x.isLower) ∨
      (escapeChar c = [c] ∧ c ≠ '&' ∧ c ≠ '<' ∧ c ≠ '>' ∧ c ≠ '\'' ∧ c ≠ '"') := by
  unfold escapeChar
  split
  · exact Or.inl ⟨['l', 't'], by decide +kernel, by decide +kernel, List.all_eq_true.mp rfl⟩
  · exact Or.inl ⟨['g', 't'], by decide +kernel, by decide +kernel, List.all_eq_true.mp rfl⟩
  · exact Or.inl ⟨['a', 'm', 'p'], by decide +kernel, by decide +kernel, List.all_eq_true.mp rfl⟩
  · exact Or.inl ⟨['a', 'p', 'o', 's'], by decide +kernel, by decide +kernel, List.all_eq_true.mp rfl⟩
  · exact Or.inl ⟨['q', 'u', 'o', 't'], by decide +kernel, by decide +kernel, List.all_eq_true.mp rfl⟩
  · exact Or.inr ⟨rfl, by assumption, by assumption, by assumption, by assumption, by assumption⟩

theorem escape_cons (c : Char) (cs : List Char) : escape (c :: cs) = escapeChar c ++ escape cs :=
  List.flatMap_cons

/-- A name of lower-case letters is cut at the semicolon behind it. -/
theorem cutReference?_of_isLower {name : List Char} (h : ∀ x ∈ name, x.isLower) (rest : List Char) :
    cutReference? (name ++ ';' :: rest) = some (name, rest) := by
  induction name with
  | nil => rfl
  | cons x name ih =>
    have hx := h x List.mem_cons_self
    have hand : x ≠ '&' := by rintro rfl; revert hx; decide
    have hsemicolon : x ≠ ';' := by rintro rfl; revert hx; decide
    rw [List.cons_append, cutReference?.eq_4 x _ hand hsemicolon, ih fun y hy => h y (List.mem_cons_of_mem x hy)]
    rfl

/-- A written character is resolved to itself, and what stands behind it after it. -/
theorem resolveFrom_escapeChar (size offset : Nat) (c : Char) (rest : List Char) :
    ∃ offset', resolveFrom size offset (escapeChar c ++ rest) = (c :: ·) <$> resolveFrom size offset' rest := by
  rcases escapeChar_cases c with ⟨name, he, hentity, hlower⟩ | ⟨he, hand, _⟩
  · have hcut := cutReference?_of_isLower hlower rest
    have hreferent : referent (offset + 1) name = .ok c := by
      unfold referent
      split
      · exact absurd (hlower '#' List.mem_cons_self) (by decide)
      · exact absurd (hlower '#' List.mem_cons_self) (by decide)
      · rw [hentity]
    refine ⟨offset + Utf8.size name + 2, ?_⟩
    rw [he, List.cons_append, List.append_assoc, List.singleton_append, resolveFrom, if_pos rfl]
    split
    · rename_i hnone
      cases hcut.symm.trans hnone
    · rename_i hsome
      cases hcut.symm.trans hsome
      simp only [hreferent, bind, Except.bind]
      rfl
  · refine ⟨offset + c.utf8Size, ?_⟩
    rw [he, List.singleton_append, resolveFrom, if_neg hand]

/-- What is written is resolved to the text that was written. -/
theorem resolveFrom_escape (size offset : Nat) (text : List Char) : resolveFrom size offset (escape text) = .ok text := by
  induction text generalizing offset with
  | nil => rw [escape, List.flatMap_nil, resolveFrom]
  | cons c text ih =>
    obtain ⟨offset', hc⟩ := resolveFrom_escapeChar size offset c (escape text)
    rw [escape_cons, hc, ih]
    rfl

theorem resolve_escape (text : List Char) : resolve (escape text) = .ok text :=
  resolveFrom_escape _ _ text

/-- A text without references is resolved to itself. -/
theorem resolve_of_not_mem {cs : List Char} (h : '&' ∉ cs) : resolve cs = .ok cs := by
  have hfrom : ∀ size offset, resolveFrom size offset cs = .ok cs := by
    induction cs with
    | nil =>
      intro size offset
      rw [resolveFrom]
    | cons c cs ih =>
      intro size offset
      obtain ⟨hc, hcs⟩ := List.ne_and_not_mem_of_not_mem_cons h
      rw [resolveFrom, if_neg hc.symm, ih hcs]
      rfl
  exact hfrom _ 0

/-- No character that ends or begins markup is left in a text that is written. -/
theorem not_mem_escape {c : Char} (hc : c = '<' ∨ c = '>' ∨ c = '\'' ∨ c = '"') (text : List Char) : c ∉ escape text := by
  intro hm
  obtain ⟨x, _, hx⟩ := List.mem_flatMap.mp hm
  rcases escapeChar_cases x with ⟨name, he, _, hlower⟩ | ⟨he, _, hlt, hgt, hapos, hquot⟩
  · have hlow : c ∉ name := by
      intro hn
      have := hlower c hn
      rcases hc with rfl | rfl | rfl | rfl <;> revert this <;> decide
    rw [he, List.mem_cons, List.mem_append, List.mem_singleton] at hx
    rcases hx with hx | hx | hx
    · rcases hc with rfl | rfl | rfl | rfl <;> cases hx
    · exact hlow hx
    · rcases hc with rfl | rfl | rfl | rfl <;> cases hx
  · rw [he, List.mem_singleton] at hx
    subst hx
    rcases hc with hc | hc | hc | hc
    · exact hlt hc
    · exact hgt hc
    · exact hapos hc
    · exact hquot hc

theorem quote_not_mem_escape {quote : Char} (h : quote = '"' ∨ quote = '\'') (text : List Char) : quote ∉ escape text :=
  not_mem_escape (by rcases h with h | h <;> simp [h]) text

/-- A written character has no blank at its two ends if it is none. -/
theorem isTrimmed_escapeChar {c : Char} (h : Text.isXmlBlank c = false) : IsTrimmed (escapeChar c) := by
  rcases escapeChar_cases c with ⟨name, he, _⟩ | ⟨he, _⟩
  · rw [he]
    refine ⟨fun x hx => ?_, fun x hx => ?_⟩
    · cases hx
      rfl
    · rw [← List.cons_append, List.getLast?_concat] at hx
      cases hx
      rfl
  · rw [he]
    exact ⟨fun x hx => by cases hx; exact h, fun x hx => by cases hx; exact h⟩

theorem escapeChar_ne_nil (c : Char) : escapeChar c ≠ [] := by
  rcases escapeChar_cases c with ⟨name, he, _⟩ | ⟨he, _⟩ <;> rw [he] <;> exact List.cons_ne_nil _ _

/-- A text is written without blanks at its two ends if it has none there. -/
theorem IsTrimmed.escape {text : List Char} (h : IsTrimmed text) : IsTrimmed (escape text) := by
  refine ⟨?_, ?_⟩
  · cases text with
    | nil => nofun
    | cons c text =>
      intro x hx
      refine (isTrimmed_escapeChar (h.front c rfl)).front x ?_
      rw [escape_cons, List.head?_append, List.head?_eq_some_head (escapeChar_ne_nil c), Option.some_or] at hx
      rwa [List.head?_eq_some_head (escapeChar_ne_nil c)]
  · rcases List.eq_nil_or_concat text with rfl | ⟨text, c, rfl⟩
    · nofun
    · intro x hx
      have hlast : Xml.escape (text.concat c) = Xml.escape text ++ escapeChar c := by
        simp [Xml.escape]
      refine (isTrimmed_escapeChar (h.back c (by simp))).back x ?_
      rw [hlast, List.getLast?_append, List.getLast?_eq_some_getLast (escapeChar_ne_nil c), Option.some_or] at hx
      rwa [List.getLast?_eq_some_getLast (escapeChar_ne_nil c)]

/-! ## Where a tag ends -/

/-- Characters among which no tag ends, whatever stands behind them. -/
def Passes (cs : List Char) : Prop :=
  ∀ rest, cutTag? none (cs ++ rest) = (cutTag? none rest).map fun (tag, after) => (cs ++ tag, after)

theorem Passes.append {cs ds : List Char} (h : Passes cs) (h' : Passes ds) : Passes (cs ++ ds) := by
  intro rest
  rw [List.append_assoc, h, h', Option.map_map]
  simp [Function.comp_def]

/-- No tag ends among characters that are no quotes and no greater-than sign. -/
theorem passes_of_plain {cs : List Char} (h : ∀ c ∈ cs, c ≠ '>' ∧ c ≠ '"' ∧ c ≠ '\'') : Passes cs := by
  induction cs with
  | nil => intro rest; simp
  | cons c cs ih =>
    intro rest
    obtain ⟨hgt, hquot, hapos⟩ := h c List.mem_cons_self
    have hcut := ih (fun x hx => h x (List.mem_cons_of_mem c hx)) rest
    have hquote : ¬(c = '"' ∨ c = '\'') := not_or.mpr ⟨hquot, hapos⟩
    rw [List.cons_append, cutTag?.eq_3 _ _ hgt, if_neg hquote, hcut, Option.map_map]
    rfl

/-- Inside quotes, a tag goes on to the quote that closes them. -/
theorem cutTag?_quoted {quote : Char} {value : List Char} (h : quote ∉ value) (rest : List Char) :
    cutTag? (some quote) (value ++ quote :: rest) =
      (cutTag? none rest).map fun (tag, after) => (value ++ quote :: tag, after) := by
  induction value with
  | nil => simp [cutTag?]
  | cons c value ih =>
    obtain ⟨hne, hrest⟩ := List.ne_and_not_mem_of_not_mem_cons h
    rw [List.cons_append, cutTag?, if_neg fun he => hne he.symm, ih hrest, Option.map_map]
    rfl

/-- No tag ends inside quotes. -/
theorem passes_quoted {quote : Char} {value : List Char} (hq : quote = '"' ∨ quote = '\'') (h : quote ∉ value) :
    Passes (quote :: value ++ [quote]) := by
  intro rest
  have hgt : quote ≠ '>' := by rcases hq with rfl | rfl <;> decide
  rw [List.cons_append, List.cons_append, List.append_assoc, List.singleton_append, cutTag?.eq_3 _ _ hgt, if_pos hq,
    cutTag?_quoted h, Option.map_map]
  simp [Function.comp_def]

/-- No tag ends in a name. -/
theorem IsName.passes {name : List Char} (h : IsName name) : Passes name :=
  passes_of_plain fun _ hc => ⟨fun he => h.not_mem rfl (he ▸ hc), fun he => h.not_mem rfl (he ▸ hc),
    fun he => h.not_mem rfl (he ▸ hc)⟩

/-- A tag ends at the greater-than sign behind it. -/
theorem Passes.cutTag? {cs : List Char} (h : Passes cs) (rest : List Char) :
    cutTag? none (cs ++ '>' :: rest) = some (cs, rest) := by
  rw [h]
  simp [Xml.cutTag?]

/-! ## Attributes -/

/-- No tag ends in blanks. -/
theorem IsBlank.passes {cs : List Char} (h : IsBlank cs) : Passes cs := by
  refine passes_of_plain fun c hc => ?_
  have hblank := h c hc
  refine ⟨?_, ?_, ?_⟩ <;> rintro rfl <;> revert hblank <;> decide

/-- How attributes can be spelled: each behind a blank or several, with blanks around its equals sign or none, and its value
between quotes of either kind, with references or without. Blanks may stand at the end. No key comes twice. -/
inductive SpelledAttributes : List (String × String) → List Char → Prop where
  | nil {blanks : List Char} : IsBlank blanks → SpelledAttributes [] blanks
  | cons {key value : String} {quote : Char} {before left right raw : List Char} {attributes : List (String × String)}
      {cs : List Char} :
      IsName key.toList → key ∉ attributes.map Prod.fst → (quote = '"' ∨ quote = '\'') →
      IsBlank before → before ≠ [] → IsBlank left → IsBlank right →
      quote ∉ raw → '<' ∉ raw → resolve raw = .ok value.toList → SpelledAttributes attributes cs →
      SpelledAttributes ((key, value) :: attributes)
        (before ++ key.toList ++ (left ++ '=' :: right) ++ (quote :: raw ++ [quote]) ++ cs)

/-- What is written for attributes: each behind a blank, its value between quotes of either kind. No key comes twice. -/
inductive WrittenAttributes : List (String × String) → List Char → Prop where
  | nil : WrittenAttributes [] []
  | cons {key value : String} {quote : Char} {attributes : List (String × String)} {cs : List Char} :
      IsName key.toList → key ∉ attributes.map Prod.fst → (quote = '"' ∨ quote = '\'') → WrittenAttributes attributes cs →
      WrittenAttributes ((key, value) :: attributes)
        (' ' :: key.toList ++ '=' :: (quote :: escape value.toList ++ [quote]) ++ cs)

/-- To write attributes is a way to spell them. -/
theorem WrittenAttributes.spelled {attributes : List (String × String)} {cs : List Char} (h : WrittenAttributes attributes cs) :
    SpelledAttributes attributes cs := by
  induction h with
  | nil => exact .nil nofun
  | @cons key value quote attributes cs hkey hfresh hquote _ ih =>
    have hspelled : SpelledAttributes ((key, value) :: attributes)
        ([' '] ++ key.toList ++ ([] ++ '=' :: []) ++ (quote :: escape value.toList ++ [quote]) ++ cs) :=
      .cons hkey hfresh hquote (by decide) (by decide) nofun nofun (quote_not_mem_escape hquote _)
        (not_mem_escape (Or.inl rfl) _) (resolve_escape value.toList) ih
    simpa using hspelled

/-- No tag ends in attributes. -/
theorem SpelledAttributes.passes {attributes : List (String × String)} {cs : List Char} (h : SpelledAttributes attributes cs) :
    Passes cs := by
  induction h with
  | nil hblanks => exact hblanks.passes
  | cons hkey _ hquote hbefore _ hleft hright hraw _ _ _ ih =>
    have hequals : Passes ['='] := passes_of_plain (by simp)
    have hsign := hleft.passes.append (hequals.append hright.passes)
    exact (((hbefore.passes.append hkey.passes).append hsign).append (passes_quoted hquote hraw)).append ih

/-- No markup begins in attributes. -/
theorem SpelledAttributes.lt_not_mem {attributes : List (String × String)} {cs : List Char}
    (h : SpelledAttributes attributes cs) : '<' ∉ cs := by
  have hblank : ∀ {blanks}, IsBlank blanks → '<' ∉ blanks := fun hblanks hm => absurd (hblanks '<' hm) (by decide)
  induction h with
  | nil hblanks => exact hblank hblanks
  | cons hkey _ hquote hbefore _ hleft hright _ hraw _ _ ih =>
    have hne : ∀ quote, (quote = '"' ∨ quote = '\'') → '<' ≠ quote := by rintro _ (rfl | rfl) <;> decide
    simp only [List.mem_append, List.mem_cons, List.not_mem_nil, or_false, not_or]
    exact ⟨⟨⟨⟨hblank hbefore, hkey.not_mem rfl⟩, hblank hleft, by decide, hblank hright⟩,
      ⟨hne _ hquote, hraw⟩, hne _ hquote⟩, ih⟩

/-- An attribute that is spelled at the front of a tag is read, if its key has not been read before. -/
theorem readAttribute_spelled (size offset : Nat) {seen : SeenKeys} {before key left right raw : List Char} {quote : Char}
    (hkey : IsName key) (hseen : seen[String.ofList key]? = none) (hquote : quote = '"' ∨ quote = '\'')
    (hbefore : IsBlank before) (hleft : IsBlank left) (hright : IsBlank right) (hraw : quote ∉ raw) (rest : List Char) :
    ∃ place stop,
      readAttribute size offset seen (before ++ key ++ (left ++ '=' :: right) ++ (quote :: raw ++ [quote]) ++ rest) =
        .ok (some ⟨String.ofList key, place, raw, stop, rest⟩) := by
  obtain ⟨initial, body, rfl⟩ := List.exists_cons_of_ne_nil hkey.ne_nil
  have hbody : ∀ c ∈ body, (!endsKey c) = true := fun c hc => by
    rw [endsKey_of_isNameChar (hkey.chars c (List.mem_cons_of_mem initial hc))]
    rfl
  have hinitial : Text.isXmlBlank initial = false := not_isXmlBlank_of_isNameChar (hkey.chars initial List.mem_cons_self)
  have hopen : Text.isXmlBlank quote = false := by rcases hquote with rfl | rfl <;> decide
  -- The key ends at a blank or at the equals sign.
  have hkeyEnd : ∀ after, ∀ c ∈ (left ++ '=' :: after).head?, (!endsKey c) = false := by
    intro after c hc
    cases left with
    | nil =>
      cases hc
      decide
    | cons b left =>
      cases hc
      simp only [endsKey, hleft c List.mem_cons_self, Bool.or_true, Bool.not_true]
  have hform : before ++ (initial :: body) ++ (left ++ '=' :: right) ++ (quote :: raw ++ [quote]) ++ rest =
      before ++ initial :: (body ++ (left ++ '=' :: (right ++ quote :: (raw ++ quote :: rest)))) := by simp
  -- What is taken and what is left, from the front of the tag to behind the closing quote.
  generalize hvalue : right ++ quote :: (raw ++ quote :: rest) = value at hform
  have hbegin : (before ++ initial :: (body ++ (left ++ '=' :: value))).dropWhile Text.isXmlBlank =
      initial :: (body ++ (left ++ '=' :: value)) := hbefore.dropWhile hinitial _
  have hname : (body ++ (left ++ '=' :: value)).takeWhile (fun c => !endsKey c) = body := Text.takeWhile_run hbody (hkeyEnd value)
  have hsign : (body ++ (left ++ '=' :: value)).dropWhile (fun c => !endsKey c) = left ++ '=' :: value :=
    Text.dropWhile_run hbody (hkeyEnd value)
  have hequals : (left ++ '=' :: value).dropWhile Text.isXmlBlank = '=' :: value := hleft.dropWhile (by decide) value
  have hopening : value.dropWhile Text.isXmlBlank = quote :: (raw ++ quote :: rest) := hvalue ▸ hright.dropWhile hopen _
  have hraw' : (raw ++ quote :: rest).takeWhile (· != quote) = raw := Text.takeWhile_upTo hraw rest
  have hclosing : (raw ++ quote :: rest).dropWhile (· != quote) = quote :: rest := Text.dropWhile_upTo hraw rest
  rw [hform, readAttribute]
  simp only [hbegin, hname, hsign, hequals]
  rw [if_neg (not_not_intro rfl)]
  simp only [hseen, hopening]
  rw [if_neg fun h => hquote.elim h.1 h.2]
  simp only [hraw', hclosing]
  exact ⟨_, _, rfl⟩

/-- Attributes that are spelled are read, if none of their keys has been read before. -/
theorem readAttributes_spelled {attributes : List (String × String)} {cs : List Char} (h : SpelledAttributes attributes cs)
    (size offset : Nat) (seen : SeenKeys) (hseen : ∀ key ∈ attributes.map Prod.fst, seen[key]? = none) :
    readAttributes size offset seen cs = .ok attributes := by
  induction h generalizing offset seen with
  | @nil blanks hblanks =>
    have hread : readAttribute size offset seen blanks = .ok none := by
      have hdrop : blanks.dropWhile Text.isXmlBlank = [] := List.dropWhile_eq_nil_iff.mpr hblanks
      simp only [readAttribute, hdrop]
    rw [readAttributes]
    split
    · rename_i hr
      cases hread.symm.trans hr
    · rfl
    · rename_i hr
      cases hread.symm.trans hr
  | @cons key value quote before left right raw attributes cs hkey hfresh hquote hbefore _ hleft hright hraw _ hresolve _ ih =>
    have hkeyseen : seen[String.ofList key.toList]? = none := by
      rw [String.ofList_toList]
      exact hseen key List.mem_cons_self
    obtain ⟨place, stop, hread⟩ := readAttribute_spelled size offset hkey hkeyseen hquote hbefore hleft hright hraw cs
    rw [readAttributes]
    split
    · rename_i hr
      cases hread.symm.trans hr
    · rename_i hr
      cases hread.symm.trans hr
    · rename_i a hr
      cases hread.symm.trans hr
      have hrest : ∀ k ∈ attributes.map Prod.fst, (seen.insert key place)[k]? = none := by
        intro k hk
        have hne : key ≠ k := by
          rintro rfl
          exact hfresh hk
        rw [Std.HashMap.getElem?_insert, if_neg (by simpa using hne)]
        exact hseen k (List.mem_cons_of_mem key hk)
      have hlater := ih stop (seen.insert key place) hrest
      simp only [hresolve, String.ofList_toList, hlater]
      rfl

/-! ## Tags -/

section

variable {name : List Char} {attributes : List (String × String)} {cs : List Char}

/-- Attributes begin with a blank, unless nothing is spelled for them. -/
theorem SpelledAttributes.head (h : SpelledAttributes attributes cs) : ∀ c ∈ cs.head?, Text.isXmlBlank c := by
  cases h with
  | nil hblanks => exact fun c hc => hblanks c (List.mem_of_head? hc)
  | @cons _ _ _ before _ _ _ _ _ _ _ _ hbefore hne =>
    obtain ⟨b, before, rfl⟩ := List.exists_cons_of_ne_nil hne
    intro c hc
    cases hc
    exact hbefore b List.mem_cons_self

/-- The name of a tag is what stands in front of its attributes. -/
theorem tagName_spelled (hname : IsName name) (h : SpelledAttributes attributes cs) : tagName (name ++ cs) = name := by
  refine Text.takeWhile_run (fun c hc => ?_) fun c hc => ?_
  · rw [not_isXmlBlank_of_isNameChar (hname.chars c hc)]
    rfl
  · rw [h.head c hc]
    rfl

/-- A tag that is spelled begins an element with its name and its attributes. -/
theorem ofTag_spelled (hname : IsName name) (h : SpelledAttributes attributes cs) :
    OpenElement.ofTag (name ++ cs) = .ok { name := String.ofList name, attributes } := by
  have hseen : ∀ key ∈ attributes.map Prod.fst, (∅ : SeenKeys)[key]? = none := fun key _ => Std.HashMap.getElem?_empty
  simp only [OpenElement.ofTag, tagName_spelled hname h, List.drop_left, readAttributes_spelled h _ _ ∅ hseen]
  rfl

/-- No slash stands at the end of a name with attributes. -/
theorem getLast?_spelled (hname : IsName name) (h : SpelledAttributes attributes cs) : (name ++ cs).getLast? ≠ some '/' := by
  have hlast : name.getLast? ≠ some '/' := fun he => hname.not_mem rfl (List.mem_of_getLast? he)
  clear hname
  -- What was spelled before an attribute takes the place of the name.
  induction h generalizing name with
  | @nil blanks hblanks =>
    rcases List.eq_nil_or_concat blanks with rfl | ⟨front, c, rfl⟩
    · rwa [List.append_nil]
    · have hblank : Text.isXmlBlank c := hblanks c (by simp)
      rw [List.concat_eq_append, ← List.append_assoc, List.getLast?_concat]
      rintro ⟨⟩
      revert hblank
      decide
  | @cons key value quote before left right raw attributes cs _ _ hquote _ _ _ _ _ _ _ _ ih =>
    have hlast' :
        (name ++ (before ++ key.toList ++ (left ++ '=' :: right) ++ (quote :: raw ++ [quote]))).getLast? ≠ some '/' := by
      have hform : name ++ (before ++ key.toList ++ (left ++ '=' :: right) ++ (quote :: raw ++ [quote])) =
          (name ++ (before ++ key.toList ++ (left ++ '=' :: right) ++ quote :: raw)) ++ [quote] := by simp
      rw [hform, List.getLast?_concat]
      rcases hquote with rfl | rfl <;> decide
    rw [← List.append_assoc]
    exact ih hlast'

/-- A name begins a tag, and neither an end tag nor any other markup. -/
theorem readMarkup_of_isName (hname : IsName name) (more : List Char) :
    readMarkup (name ++ more) = closedMarkup .tag (cutTag? none (name ++ more)) fun content => .ok (.ofTag content) := by
  obtain ⟨c, name, rfl⟩ := List.exists_cons_of_ne_nil hname.ne_nil
  have hne : ∀ x, isNameChar x = false → c ≠ x := by
    rintro x hx rfl
    exact hname.not_mem hx List.mem_cons_self
  rw [List.cons_append]
  unfold readMarkup
  split
  case h_8 => rfl
  case h_6 => rename_i he; exact absurd (List.cons.inj he).1 (hne '?' (by decide))
  case h_7 => rename_i he; exact absurd (List.cons.inj he).1 (hne '/' (by decide))
  all_goals rename_i he; exact absurd (List.cons.inj he).1 (hne '!' (by decide))

/-- A start tag is read as it was spelled. -/
theorem readMarkup_startTag (hname : IsName name) (h : SpelledAttributes attributes cs) (rest : List Char) :
    readMarkup (name ++ cs ++ '>' :: rest) = .ok (.startTag (name ++ cs), rest) := by
  have hcut := (hname.passes.append h.passes).cutTag? rest
  have hevent : Event.ofTag (name ++ cs) = .startTag (name ++ cs) := by
    unfold Event.ofTag
    split
    · rename_i he
      exact absurd he (getLast?_spelled hname h)
    · rfl
  rw [List.append_assoc] at hcut ⊢
  rw [readMarkup_of_isName hname, hcut, closedMarkup, hevent]
  rfl

/-- A tag that is an element by itself is read as it was spelled. -/
theorem readMarkup_emptyTag (hname : IsName name) (h : SpelledAttributes attributes cs) (rest : List Char) :
    readMarkup (name ++ cs ++ '/' :: '>' :: rest) = .ok (.emptyTag (name ++ cs), rest) := by
  have hslash : Passes ['/'] := passes_of_plain (by simp)
  have hcut := ((hname.passes.append h.passes).append hslash).cutTag? rest
  have hevent : Event.ofTag (name ++ cs ++ ['/']) = .emptyTag (name ++ cs) := by
    simp only [Event.ofTag, List.getLast?_concat, List.dropLast_concat]
  have hform : name ++ cs ++ '/' :: '>' :: rest = name ++ (cs ++ ['/'] ++ '>' :: rest) := by simp
  rw [List.append_assoc, List.append_assoc, ← List.append_assoc cs] at hcut
  rw [hform, readMarkup_of_isName hname, hcut, closedMarkup, hevent]
  rfl

/-- An end tag is read as it was written. -/
theorem readMarkup_endTag (hname : IsName name) (rest : List Char) :
    readMarkup ('/' :: name ++ '>' :: rest) = .ok (.endTag name, rest) := by
  have hslash : Passes ['/'] := passes_of_plain (by simp)
  have hcut : cutTag? none ('/' :: name ++ '>' :: rest) = some ('/' :: name, rest) := (hslash.append hname.passes).cutTag? rest
  have htrim : Text.trimEnd Text.isXmlBlank name = name :=
    Text.trimEnd_eq_self fun c hc => not_isXmlBlank_of_isNameChar (hname.chars c (List.mem_of_getLast? hc))
  have hevent : Event.ofEndTag name = .endTag name := by simp only [Event.ofEndTag, htrim, if_neg hname.ne_nil]
  have hmarkup : readMarkup ('/' :: name ++ '>' :: rest) =
      closedMarkup .tag (cutTag? none ('/' :: name ++ '>' :: rest)) fun content => .ok (.ofEndTag content.tail) := rfl
  rw [hmarkup, hcut, closedMarkup, List.tail_cons, hevent]
  rfl

end

/-! ## Character data, comments and instructions -/

section

variable {opening content : List Char}

/-- Markup goes on over characters at none of which it closes. -/
theorem cutWhere?_run {closes : List Char → Bool} {seen cs : List Char}
    (h : ∀ front back, cs = front ++ '>' :: back → closes (front.reverse ++ seen) = false) (rest : List Char) :
    cutWhere? closes seen (cs ++ rest) =
      (cutWhere? closes (cs.reverse ++ seen) rest).map fun (content, after) => (cs ++ content, after) := by
  induction cs generalizing seen with
  | nil => simp
  | cons c cs ih =>
    have hopen : ¬(c = '>' ∧ closes seen = true) := by
      rintro ⟨rfl, hcloses⟩
      exact Bool.false_ne_true ((h [] cs rfl).symm.trans hcloses)
    have hlater : ∀ front back, cs = front ++ '>' :: back → closes (front.reverse ++ c :: seen) = false := by
      intro front back hcs
      have hfront := h (c :: front) back (by rw [hcs, List.cons_append])
      rwa [List.reverse_cons, List.append_assoc, List.singleton_append] at hfront
    rw [List.cons_append, cutWhere?, if_neg hopen, ih hlater, Option.map_map, List.reverse_cons, List.append_assoc,
      List.singleton_append]
    rfl

/-- Two equal characters and a greater-than sign stand in what is written behind an opening, unless the opening has part of
them. -/
theorem infix_of_closing {c : Char} {front back : List Char} (h : opening ++ content = front ++ c :: c :: '>' :: back)
    (hgt : '>' ∉ opening) (hopening : opening.length ≤ front.length ∨ opening.getLast? ≠ some c) :
    [c, c, '>'] <:+: content := by
  rcases List.append_eq_append_iff.mp h with ⟨middle, rfl, rfl⟩ | ⟨middle, rfl, hmiddle⟩
  · exact ⟨middle, back, by simp⟩
  -- Whatever the opening has of them is one of the two characters alone.
  match middle with
  | [] => exact ⟨[], back, hmiddle⟩
  | [x] =>
    cases hmiddle
    exact absurd hopening (by simp)
  | [x, y] =>
    cases hmiddle
    exact absurd hopening (by simp)
  | x :: y :: z :: middle =>
    cases hmiddle
    exact absurd hgt (by simp)

theorem eq_of_closesCharacterData {seen : List Char} (h : closesCharacterData seen) : ∃ more, seen = ']' :: ']' :: more := by
  unfold closesCharacterData at h
  split at h
  · exact ⟨_, rfl⟩
  · cases h

theorem eq_of_closesComment {seen : List Char} (h : closesComment seen) :
    ∃ more, seen = '-' :: '-' :: more ∧ 3 ≤ more.length := by
  unfold closesComment at h
  split at h
  · rename_i more
    exact ⟨more, rfl, by simpa using h⟩
  · cases h

theorem eq_of_closesInstruction {seen : List Char} (h : closesInstruction seen) : ∃ more, seen = '?' :: more := by
  unfold closesInstruction at h
  split at h
  · exact ⟨_, rfl⟩
  · cases h

/-- A character data section is read as it was written, if it does not hold what closes it. -/
theorem readMarkup_characterData (h : ¬"]]>".toList <:+: content) (rest : List Char) :
    readMarkup ("![CDATA[".toList ++ content ++ "]]>".toList ++ rest) = .ok (.characterData content, rest) := by
  have hopen : ∀ front back, "![CDATA[".toList ++ content = front ++ '>' :: back →
      closesCharacterData (front.reverse ++ []) = false := by
    intro front back hfront
    refine Bool.eq_false_iff.mpr fun hcloses => h ?_
    obtain ⟨more, hmore⟩ := eq_of_closesCharacterData hcloses
    rw [List.append_nil, List.reverse_eq_iff] at hmore
    have hclosing : "![CDATA[".toList ++ content = more.reverse ++ ']' :: ']' :: '>' :: back := by
      rw [hfront, hmore]
      simp
    exact infix_of_closing hclosing (by decide) (Or.inr (by decide))
  have hcut : cutWhere? closesCharacterData [] ("![CDATA[".toList ++ content ++ "]]>".toList ++ rest) =
      some ("![CDATA[".toList ++ content ++ "]]".toList, rest) := by
    rw [List.append_assoc, cutWhere?_run hopen]
    simp [cutWhere?, closesCharacterData]
  have hevent : Event.ofCharacterData ("![CDATA[".toList ++ content ++ "]]".toList) = .ok (.characterData content) := by
    have hfirst : "![CDATA[".toList.isPrefixOf ("![CDATA[".toList ++ content ++ "]]".toList) := by
      rw [List.append_assoc]
      exact List.isPrefixOf_iff_prefix.mpr (List.prefix_append _ _)
    have hdrop : ("![CDATA[".toList ++ content ++ "]]".toList).drop 8 = content ++ [']'] ++ [']'] := by simp
    rw [Event.ofCharacterData, if_pos hfirst, hdrop, List.dropLast_concat, List.dropLast_concat]
  have hmarkup : readMarkup ("![CDATA[".toList ++ content ++ "]]>".toList ++ rest) =
      closedMarkup .characterData (cutWhere? closesCharacterData [] ("![CDATA[".toList ++ content ++ "]]>".toList ++ rest))
        Event.ofCharacterData := rfl
  rw [hmarkup, hcut, closedMarkup, hevent]
  rfl

/-- A comment is no part of the text, whatever it holds but what closes it. -/
theorem readMarkup_comment (h : ¬"-->".toList <:+: content) (rest : List Char) :
    readMarkup ("!--".toList ++ content ++ "-->".toList ++ rest) = .ok (.aside, rest) := by
  have hopen : ∀ front back, "!--".toList ++ content = front ++ '>' :: back → closesComment (front.reverse ++ []) = false := by
    intro front back hfront
    refine Bool.eq_false_iff.mpr fun hcloses => h ?_
    obtain ⟨more, hmore, hlength⟩ := eq_of_closesComment hcloses
    rw [List.append_nil, List.reverse_eq_iff] at hmore
    have hclosing : "!--".toList ++ content = more.reverse ++ '-' :: '-' :: '>' :: back := by
      rw [hfront, hmore]
      simp
    exact infix_of_closing hclosing (by decide) (Or.inl (hlength.trans_eq List.length_reverse.symm))
  have hcut : cutWhere? closesComment [] ("!--".toList ++ content ++ "-->".toList ++ rest) =
      some ("!--".toList ++ content ++ "--".toList, rest) := by
    rw [List.append_assoc, cutWhere?_run hopen]
    simp [cutWhere?, closesComment]
  have hevent : Event.ofComment ("!--".toList ++ content ++ "--".toList) = .ok .aside := by
    have hfirst : "!--".toList.isPrefixOf ("!--".toList ++ content ++ "--".toList) := by
      rw [List.append_assoc]
      exact List.isPrefixOf_iff_prefix.mpr (List.prefix_append _ _)
    rw [Event.ofComment, if_pos hfirst]
  have hmarkup : readMarkup ("!--".toList ++ content ++ "-->".toList ++ rest) =
      closedMarkup .comment (cutWhere? closesComment [] ("!--".toList ++ content ++ "-->".toList ++ rest)) Event.ofComment := rfl
  rw [hmarkup, hcut, closedMarkup, hevent]
  rfl

/-- An instruction is no part of the text, and neither is the declaration of a document, which is written like one. -/
theorem readMarkup_instruction (h : ¬"?>".toList <:+: '?' :: content) (rest : List Char) :
    readMarkup ('?' :: content ++ "?>".toList ++ rest) = .ok (.aside, rest) := by
  have hopen : ∀ front back, '?' :: content = front ++ '>' :: back → closesInstruction (front.reverse ++ []) = false := by
    intro front back hfront
    refine Bool.eq_false_iff.mpr fun hcloses => h ?_
    obtain ⟨more, hmore⟩ := eq_of_closesInstruction hcloses
    rw [List.append_nil, List.reverse_eq_iff] at hmore
    exact ⟨more.reverse, back, by rw [hfront, hmore]; simp⟩
  have hcut : cutWhere? closesInstruction [] ('?' :: content ++ "?>".toList ++ rest) = some ('?' :: content ++ ['?'], rest) := by
    rw [List.append_assoc, cutWhere?_run hopen]
    simp [cutWhere?, closesInstruction]
  have hevent : Event.ofInstruction ('?' :: content ++ ['?']) = .ok .aside := by
    rw [Event.ofInstruction, if_neg (by simp)]
  have hmarkup : readMarkup ('?' :: content ++ "?>".toList ++ rest) =
      closedMarkup .instruction (cutWhere? closesInstruction [] ('?' :: content ++ "?>".toList ++ rest)) Event.ofInstruction := rfl
  rw [hmarkup, hcut, closedMarkup, hevent]
  rfl

end

end StreamAuth.Xml
