import Mathlib.Algebra.Group.Nat.Even
import Mathlib.Algebra.Ring.Parity
import StreamAuth.Proofs.Parameters

/-!
# Cuts at commas outside quotes

A payload is cut at each comma with an even number of quotes in front of it, counted over the whole text. `IsCutInto` says of a row
of segments that a text is cut into it so, and there is exactly one such row, that of its segments (`IsCutInto.eq_segments`). The
same row comes out where the text is gone through once and each segment is taken by the offsets of its two ends (`scan?`): what
holds of the characters that have been gone through is kept by each further one (`Scan.Holds`), so that no offset is ever inside a
character, whatever the text is.
-/

namespace StreamAuth.Challenge

/-! ## What a text is cut into -/

/-- A row of segments with a comma between any two. -/
def joined (row : List (List Char)) : List Char :=
  [','].intercalate row

/-- How many quotes stand in front of a place of a text. -/
def quotesBefore (text : List Char) (place : Nat) : Nat :=
  (text.take place).count '"'

/-- A text is cut into a row of segments, at each of its commas with an even number of quotes in front and nowhere else. The comma
behind the segments `left` has the place `(joined left).length`; a comma inside a segment, with `before` between it and the beginning of
the segment, has the place `(joined (left ++ [before])).length`. -/
structure IsCutInto (text : List Char) (row : List (List Char)) : Prop where
  ne_nil : row ≠ []
  joined_eq : joined row = text
  between : ∀ left right, row = left ++ right → left ≠ [] → right ≠ [] → Even (quotesBefore text (joined left).length)
  inside : ∀ left before after right, row = left ++ (before ++ ',' :: after) :: right →
    Odd (quotesBefore text (joined (left ++ [before])).length)

theorem joined_singleton (segment : List Char) : joined [segment] = segment := by
  simp [joined]

theorem joined_cons {row : List (List Char)} (h : row ≠ []) (segment : List Char) :
    joined (segment :: row) = segment ++ ',' :: joined row := by
  obtain ⟨next, row, rfl⟩ := List.exists_cons_of_ne_nil h
  simp [joined]

theorem joined_append {left right : List (List Char)} (hleft : left ≠ []) (hright : right ≠ []) :
    joined (left ++ right) = joined left ++ ',' :: joined right := by
  induction left with
  | nil => exact absurd rfl hleft
  | cons segment left ih =>
    by_cases h : left = []
    · rw [h, joined_singleton, List.singleton_append, joined_cons hright]
    · rw [List.cons_append, joined_cons (by simp [h]), joined_cons h, ih h, List.append_assoc, List.cons_append]

/-- More characters at the end of the last segment are more characters at the end of the text. -/
theorem joined_concat_append (left : List (List Char)) (segment more : List Char) :
    joined (left ++ [segment ++ more]) = joined (left ++ [segment]) ++ more := by
  by_cases h : left = []
  · rw [h, List.nil_append, List.nil_append, joined_singleton, joined_singleton]
  · rw [joined_append h (by simp), joined_append h (by simp), joined_singleton, joined_singleton]
    simp

/-- What comes behind a part of a segment comes behind it in the text. -/
theorem exists_joined_append (left : List (List Char)) (before more : List Char) (right : List (List Char)) :
    ∃ rest, joined (left ++ (before ++ more) :: right) = joined (left ++ [before]) ++ more ++ rest := by
  by_cases h : right = []
  · exact ⟨[], by rw [h, joined_concat_append, List.append_nil]⟩
  · refine ⟨',' :: joined right, ?_⟩
    rw [List.append_cons, joined_append (by simp) h, joined_concat_append]

theorem quotesBefore_length (front rest : List Char) : quotesBefore (front ++ rest) front.length = front.count '"' := by
  rw [quotesBefore, List.take_left]

/-- The cuts of a text, said of what stands in front of its commas. -/
theorem isCutInto_iff_count {text : List Char} {row : List (List Char)} :
    IsCutInto text row ↔
      row ≠ [] ∧ joined row = text ∧
        (∀ left right, row = left ++ right → left ≠ [] → right ≠ [] → Even ((joined left).count '"')) ∧
        ∀ left before after right, row = left ++ (before ++ ',' :: after) :: right → Odd ((joined (left ++ [before])).count '"') := by
  have hbetween : joined row = text → ∀ left right, row = left ++ right → left ≠ [] → right ≠ [] →
      quotesBefore text (joined left).length = (joined left).count '"' := by
    rintro rfl left right rfl hleft hright
    rw [joined_append hleft hright, quotesBefore_length]
  have hinside : joined row = text → ∀ left before after right, row = left ++ (before ++ ',' :: after) :: right →
      quotesBefore text (joined (left ++ [before])).length = (joined (left ++ [before])).count '"' := by
    rintro rfl left before after right rfl
    obtain ⟨rest, hrest⟩ := exists_joined_append left before (',' :: after) right
    rw [hrest, List.append_assoc, quotesBefore_length]
  constructor
  · intro h
    refine ⟨h.ne_nil, h.joined_eq, ?_, ?_⟩
    · intro left right hrow hleft hright
      rw [← hbetween h.joined_eq left right hrow hleft hright]
      exact h.between left right hrow hleft hright
    · intro left before after right hrow
      rw [← hinside h.joined_eq left before after right hrow]
      exact h.inside left before after right hrow
  · rintro ⟨hne, hjoined, heven, hodd⟩
    refine ⟨hne, hjoined, ?_, ?_⟩
    · intro left right hrow hleft hright
      rw [hbetween hjoined left right hrow hleft hright]
      exact heven left right hrow hleft hright
    · intro left before after right hrow
      rw [hinside hjoined left before after right hrow]
      exact hodd left before after right hrow

/-! ## There is one row only -/

/-- There is no cut where each comma has an odd number of quotes in front. -/
theorem uncut_of_odd {cs : List Char} (h : ∀ before after, cs = before ++ ',' :: after → Odd (before.count '"')) :
    Uncut false (decide (Odd (cs.count '"'))) cs := by
  induction cs using List.reverseRecOn with
  | nil => exact uncut_run (by simp) (Or.inr (by simp))
  | append_singleton cs c ih =>
    have hfront := ih fun before after hcs => h before (after ++ [c]) (by simp [hcs])
    refine hfront.append ?_
    by_cases hquote : c = '"'
    · have hnext : decide (Odd ((cs ++ [c]).count '"')) = !decide (Odd (cs.count '"')) := by
        rw [hquote, List.count_append, List.count_singleton_self, ← decide_not]
        exact decide_eq_decide.mpr Nat.odd_add_one
      rw [hnext, hquote]
      exact uncut_quote _
    · rw [List.count_append, List.count_singleton, if_neg (by simpa using hquote), Nat.add_zero]
      refine uncut_run (by simpa using Ne.symm hquote) ?_
      by_cases hcomma : c = ','
      · exact Or.inl (decide_eq_true (h cs [] (by simp [hcomma])))
      · exact Or.inr (by simpa using Ne.symm hcomma)

namespace IsCutInto

variable {text : List Char} {row : List (List Char)}

/-- The first segment has no cut inside. -/
theorem uncut_head {first : List Char} (h : IsCutInto text (first :: row)) :
    Uncut false (decide (Odd (first.count '"'))) first := by
  refine uncut_of_odd ?_
  rintro before after rfl
  have hodd := (isCutInto_iff_count.mp h).2.2.2 [] before after row rfl
  rwa [List.nil_append, joined_singleton] at hodd

/-- Behind the first comma at which it is cut, a text is cut into the rest of the row. -/
theorem tail {first : List Char} (h : IsCutInto text (first :: row)) (hrow : row ≠ []) :
    Even (first.count '"') ∧ text = first ++ ',' :: joined row ∧ IsCutInto (joined row) row := by
  obtain ⟨-, hjoined, heven, hodd⟩ := isCutInto_iff_count.mp h
  have hfirst := heven [first] row rfl (by simp) hrow
  rw [joined_singleton] at hfirst
  have hcount : ∀ left : List (List Char), left ≠ [] →
      (joined (first :: left)).count '"' = first.count '"' + (joined left).count '"' := by
    intro left hleft
    simp [joined_cons hleft]
  refine ⟨hfirst, by rw [← hjoined, joined_cons hrow], isCutInto_iff_count.mpr ⟨hrow, rfl, ?_, ?_⟩⟩
  · intro left right hsplit hleft hright
    have hall := heven (first :: left) right (by simp [hsplit]) (by simp) hright
    rw [hcount left hleft, Nat.even_add] at hall
    exact hall.mp hfirst
  · intro left before after right hsplit
    have hall := hodd (first :: left) before after right (by simp [hsplit])
    rw [List.cons_append, hcount _ (by simp), Nat.odd_add'] at hall
    exact hall.mpr hfirst

/-- The row into which a text is cut is that of its segments. -/
theorem eq_segments (h : IsCutInto text row) : row = segments false text := by
  induction row generalizing text with
  | nil => exact absurd rfl h.ne_nil
  | cons first row ih =>
    have huncut := h.uncut_head
    by_cases hrow : row = []
    · subst hrow
      rw [← h.joined_eq, joined_singleton, huncut.segments_eq]
    · obtain ⟨heven, rfl, hrest⟩ := h.tail hrow
      rw [decide_eq_false (Nat.not_odd_iff_even.mpr heven)] at huncut
      rw [huncut.segments_comma, ← ih hrest]

/-! ## One character more -/

/-- A row that ends with a segment is split in front of the segment. -/
theorem exists_of_concat_eq {row left right : List (List Char)} {last : List Char} (h : row ++ [last] = left ++ right)
    (hright : right ≠ []) : ∃ inner, right = inner ++ [last] ∧ row = left ++ inner := by
  obtain ⟨inner, final, rfl⟩ := (List.eq_nil_or_concat' right).resolve_left hright
  rw [← List.append_assoc] at h
  obtain ⟨hrow, hlast⟩ := List.append_inj' h rfl
  exact ⟨inner, by rw [hlast], hrow⟩

theorem nil : IsCutInto [] [[]] := by
  refine ⟨by simp, joined_singleton [], ?_, ?_⟩
  · intro left right hsplit hleft hright
    rcases List.singleton_eq_append_iff.mp hsplit with h | h
    · exact absurd h.1 hleft
    · exact absurd h.2 hright
  · intro left before after right hsplit
    simp [List.singleton_eq_append_iff] at hsplit

/-- A comma with an even number of quotes in front of it begins a segment. -/
theorem cut (h : IsCutInto text row) (heven : Even (text.count '"')) : IsCutInto (text ++ [',']) (row ++ [[]]) := by
  obtain ⟨hne, hjoined, hbetween, hinside⟩ := isCutInto_iff_count.mp h
  refine isCutInto_iff_count.mpr ⟨by simp, ?_, ?_, ?_⟩
  · rw [joined_append hne (by simp), joined_singleton, hjoined]
  · intro left right hsplit hleft hright
    obtain ⟨inner, -, hrow⟩ := exists_of_concat_eq hsplit hright
    by_cases hinner : inner = []
    · rwa [← List.append_nil left, ← hinner, ← hrow, hjoined]
    · exact hbetween left inner hrow hleft hinner
  · intro left before after right hsplit
    obtain ⟨inner, hright, hrow⟩ := exists_of_concat_eq hsplit (by simp)
    cases inner with
    | nil => simp at hright
    | cons segment inner =>
      obtain ⟨rfl, -⟩ := List.cons.inj hright
      exact hinside left before after inner hrow

/-- Any other character comes to the last segment. -/
theorem extend {left : List (List Char)} {last : List Char} {c : Char} (h : IsCutInto text (left ++ [last]))
    (hodd : c = ',' → Odd (text.count '"')) : IsCutInto (text ++ [c]) (left ++ [last ++ [c]]) := by
  obtain ⟨hne, hjoined, hbetween, hinside⟩ := isCutInto_iff_count.mp h
  refine isCutInto_iff_count.mpr ⟨by simp, ?_, ?_, ?_⟩
  · rw [joined_concat_append, hjoined]
  · intro left' right hsplit hleft hright
    obtain ⟨inner, -, hrow⟩ := exists_of_concat_eq hsplit hright
    exact hbetween left' (inner ++ [last]) (by rw [hrow, List.append_assoc]) hleft (by simp)
  · intro left' before after right hsplit
    obtain ⟨inner, hright, hrow⟩ := exists_of_concat_eq hsplit (by simp)
    cases inner with
    | nil =>
      obtain ⟨hlast, rfl⟩ := List.cons.inj hright
      rw [List.append_nil] at hrow
      subst hrow
      rcases List.eq_nil_or_concat' after with rfl | ⟨after, final, rfl⟩
      · obtain ⟨rfl, hcomma⟩ := List.append_inj' hlast rfl
        rw [hjoined]
        exact hodd (by simpa using hcomma.symm)
      · rw [← List.cons_append, ← List.append_assoc] at hlast
        obtain ⟨rfl, -⟩ := List.append_inj' hlast rfl
        exact hinside left before after [] rfl
    | cons segment inner =>
      obtain ⟨rfl, -⟩ := List.cons.inj hright
      exact hinside left' before after (inner ++ [last]) (by rw [hrow, List.append_assoc, List.cons_append])

end IsCutInto

/-! ## Once through the text -/

/-- The part of a text between two offsets. There is none if one of them is behind the end or inside a character, or if they are the
wrong way round. -/
def part? (text : String) (start stop : Nat) : Option String := do
  let first ← text.pos? ⟨start⟩
  let last ← text.pos? ⟨stop⟩
  let part ← text.slice? first last
  return part.copy

/-- What has been found in a text that is being gone through. -/
structure Scan where
  /-- Whether a quote is open. -/
  quoted : Bool := false
  /-- The offset at which the segment that is not yet ended begins. -/
  start : Nat := 0
  /-- The segments that have been ended. -/
  parts : List String := []

/-- One character of a text, at its offset. -/
def Scan.step (text : String) (s : Scan) (offset : Nat) (c : Char) : Option Scan :=
  if c = '"' then some { s with quoted := !s.quoted }
  else if c = ',' ∧ ¬s.quoted then do
    let part ← part? text s.start offset
    return { s with start := offset + 1, parts := s.parts ++ [part] }
  else some s

/-- The characters of a text from an offset on. -/
def Scan.run (text : String) (s : Scan) (offset : Nat) : List Char → Option Scan
  | [] => some s
  | c :: rest => do
    let s ← s.step text offset c
    s.run text (offset + c.utf8Size) rest

/-- The parts of a text that is gone through once, without those that are blank. There are none if one of them could not be taken. -/
def scan? (text : String) : Option (List String) := do
  let s ← Scan.run text {} 0 text.toList
  let last ← part? text s.start text.utf8ByteSize
  return (s.parts ++ [last]).filter fun part => !(Text.trim Text.isBlank part.toList).isEmpty

theorem exists_pos? {text front rest : String} (h : text = front ++ rest) :
    ∃ p, text.pos? ⟨front.utf8ByteSize⟩ = some p ∧ p.Splits front rest := by
  refine ⟨String.Pos.ofEqAppend h, ?_, String.Pos.splits_ofEqAppend h⟩
  subst h
  have hvalid : (⟨front.utf8ByteSize⟩ : String.Pos.Raw).IsValid (front ++ rest) :=
    String.Pos.Raw.isValid_rawEndPos.append_right rest
  rw [String.pos?, String.Slice.pos?, dif_pos (String.Pos.Raw.isValidForSlice_eq_true_iff.mpr hvalid.toSlice)]
  rfl

/-- Between the ends of two fronts of a text stands what the longer one has more. -/
theorem part?_append (front part rest : String) :
    part? (front ++ part ++ rest) front.utf8ByteSize (front ++ part).utf8ByteSize = some part := by
  have hassoc : front ++ part ++ rest = front ++ (part ++ rest) := String.append_assoc
  obtain ⟨first, hfirst, hfront⟩ := exists_pos? hassoc
  obtain ⟨last, hlast, hback⟩ := exists_pos? (rfl : front ++ part ++ rest = _)
  obtain ⟨hle, hpart⟩ := String.copy_slice_eq_iff_splits.mpr ⟨front, rest, hfront, hback⟩
  rw [part?, hfirst, hlast]
  simp [String.slice?, hle, hpart]

namespace Scan

/-- What holds of a scan behind some characters of a text: they are cut into the segments that have been ended and one more, which
begins where the scan says, and a quote is open if their number is odd. -/
structure Holds (s : Scan) (done : List Char) (ended : List (List Char)) (current : List Char) : Prop where
  isCutInto : IsCutInto done (ended ++ [current])
  quoted_iff : s.quoted = true ↔ Odd (done.count '"')
  start_eq : ∃ front, done = front ++ current ∧ s.start = (String.ofList front).utf8ByteSize
  parts_eq : s.parts = ended.map String.ofList

variable {s : Scan} {done current rest : List Char} {ended : List (List Char)}

theorem holds_nil : Holds {} [] [] [] :=
  ⟨.nil, by simp, ⟨[], rfl, by simp⟩, rfl⟩

/-- The segment that is not yet ended can be taken. -/
theorem Holds.part?_eq (h : s.Holds done ended current) (rest : List Char) :
    part? (String.ofList (done ++ rest)) s.start (String.ofList done).utf8ByteSize = some (String.ofList current) := by
  obtain ⟨front, rfl, hstart⟩ := h.start_eq
  rw [hstart, String.ofList_append, String.ofList_append]
  exact part?_append _ _ _

/-- One character keeps what holds of a scan, and a segment that it ends can be taken. -/
theorem Holds.step (h : s.Holds done ended current) (c : Char) (rest : List Char) :
    ∃ s' ended' current', s.step (String.ofList (done ++ c :: rest)) (String.ofList done).utf8ByteSize c = some s' ∧
      s'.Holds (done ++ [c]) ended' current' := by
  obtain ⟨front, hdone, hstart⟩ := h.start_eq
  have hextend : ∃ front', done ++ [c] = front' ++ (current ++ [c]) ∧ s.start = (String.ofList front').utf8ByteSize :=
    ⟨front, by rw [hdone, List.append_assoc], hstart⟩
  unfold Scan.step
  by_cases hquote : c = '"'
  · rw [if_pos hquote]
    refine ⟨_, ended, current ++ [c], rfl, h.isCutInto.extend (by simp [hquote]), ?_, hextend, h.parts_eq⟩
    rw [hquote, List.count_append, List.count_singleton_self, Nat.odd_add_one, ← h.quoted_iff]
    simp
  rw [if_neg hquote]
  have hcount : (done ++ [c]).count '"' = done.count '"' := by
    rw [List.count_append, List.count_singleton, if_neg (by simpa using hquote), Nat.add_zero]
  by_cases hcut : c = ',' ∧ ¬s.quoted
  · obtain ⟨rfl, hopen⟩ := hcut
    have heven : ¬Odd (done.count '"') := by rwa [← h.quoted_iff]
    rw [if_pos ⟨rfl, hopen⟩, h.part?_eq]
    refine ⟨_, ended ++ [current], [], rfl, h.isCutInto.cut (Nat.not_odd_iff_even.mp heven), ?_, ⟨done ++ [','], by simp, ?_⟩, ?_⟩
    · rw [hcount]
      exact h.quoted_iff
    · rw [String.ofList_append, String.utf8ByteSize_append]
      rfl
    · rw [h.parts_eq, List.map_append]
      rfl
  · rw [if_neg hcut]
    refine ⟨s, ended, current ++ [c], rfl, h.isCutInto.extend fun hcomma => ?_, by rw [hcount]; exact h.quoted_iff, hextend, h.parts_eq⟩
    rw [← h.quoted_iff]
    by_contra hopen
    exact hcut ⟨hcomma, hopen⟩

/-- What holds of a scan is kept to the end of the text. -/
theorem Holds.run (h : s.Holds done ended current) (rest : List Char) :
    ∃ s' ended' current', s.run (String.ofList (done ++ rest)) (String.ofList done).utf8ByteSize rest = some s' ∧
      s'.Holds (done ++ rest) ended' current' := by
  induction rest generalizing s done ended current with
  | nil => exact ⟨s, ended, current, rfl, by rwa [List.append_nil]⟩
  | cons c rest ih =>
    obtain ⟨s', ended', current', hstep, hholds⟩ := h.step c rest
    have hoffset : (String.ofList (done ++ [c])).utf8ByteSize = (String.ofList done).utf8ByteSize + c.utf8Size := by
      rw [String.ofList_append, String.utf8ByteSize_append, ← String.singleton_eq_ofList, String.utf8ByteSize_singleton]
    have hrest := ih hholds
    rw [hoffset, List.append_assoc, List.singleton_append] at hrest
    rw [Scan.run, hstep]
    exact hrest

end Scan

/-- A text can be gone through to its end, and what comes out are parts of it that it is cut into, but for the blank ones. -/
theorem exists_isCutInto (text : String) :
    ∃ row, IsCutInto text.toList row ∧
      scan? text = some ((row.filter fun s => Text.trim Text.isBlank s ≠ []).map String.ofList) := by
  obtain ⟨s, ended, current, hrun, hholds⟩ := Scan.holds_nil.run text.toList
  have hlast := hholds.part?_eq []
  have hzero : (String.ofList []).utf8ByteSize = 0 := rfl
  rw [List.nil_append, String.ofList_toList, hzero] at hrun
  rw [List.nil_append, List.append_nil, String.ofList_toList] at hlast
  have hparts : s.parts ++ [String.ofList current] = (ended ++ [current]).map String.ofList := by
    rw [hholds.parts_eq, List.map_append, List.map_singleton]
  refine ⟨ended ++ [current], hholds.isCutInto, ?_⟩
  rw [scan?, hrun]
  simp only [Option.bind_eq_bind, Option.bind_some, hlast, hparts, List.filter_map]
  refine congrArg some (congrArg (List.map String.ofList) (List.filter_congr fun segment _ => ?_))
  rw [Function.comp_apply, String.toList_ofList]
  cases Text.trim Text.isBlank segment with
  | nil => rfl
  | cons => rfl

/-- The entries of a text are the segments that are not blank. -/
theorem entries_eq (cs : List Char) : entries cs = (segments false cs).filter fun s => Text.trim Text.isBlank s ≠ [] := by
  refine List.filter_congr fun segment _ => ?_
  rw [Bool.eq_iff_iff, Bool.not_eq_true', ← Bool.not_eq_true, List.all_eq_true, decide_eq_true_iff, ne_eq, Text.trim_eq_nil_iff]

/-- The entries of a text, in three parts. For every text:
1. Its segments are the one row into which it is cut: joined by commas they give the text back, in front of each comma between two
   of them there is an even number of quotes in the text, and in front of each comma inside one of them an odd number.
2. Its entries are those of the segments of which something is left when blanks are cut from the two ends, in order.
3. They come out where the text is gone through once, and each part is taken by its offsets: no part fails to be taken. -/
theorem entries_of_cuts (text : String) :
    (∀ row, IsCutInto text.toList row ↔ row = segments false text.toList) ∧
      entries text.toList = (segments false text.toList).filter (fun s => Text.trim Text.isBlank s ≠ []) ∧
      scan? text = some ((entries text.toList).map String.ofList) := by
  obtain ⟨row, hrow, hscan⟩ := exists_isCutInto text
  have hsegments := hrow.eq_segments
  refine ⟨fun other => ⟨fun hother => hother.eq_segments, ?_⟩, entries_eq text.toList, ?_⟩
  · rintro rfl
    rwa [← hsegments]
  · rw [entries_eq, ← hsegments]
    exact hscan

/-- A quote without a partner keeps all that follows it in one entry. -/
example : entries "a,\"b,c".toList = ["a".toList, "\"b,c".toList] := by
  decide +kernel

end StreamAuth.Challenge
