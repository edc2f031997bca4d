import Mathlib.Data.List.Basic
import Mathlib.Data.List.Induction
import StreamAuth.Challenge
import StreamAuth.Proofs.Characters
import StreamAuth.Proofs.Runs

/-!
# Parameters as they are laid out

A payload is a row of entries with commas between them. An entry gives a key its value, in quotes or not and with blanks
wherever they may stand, or it gives nothing. No comma outside quotes stands in an entry, so the payload is cut exactly between
its entries (`segments_render`); each of them is read by itself, and of those that give one key the last one holds
(`params_of_render`).
-/

namespace StreamAuth.Challenge

/-! ## Entries -/

/-- A text without blanks at its two ends. -/
structure IsTrimmed (text : List Char) : Prop where
  front : ∀ c ∈ text.head?, Text.isBlank c = false
  back : ∀ c ∈ text.getLast?, Text.isBlank c = false

instance (text : List Char) : Decidable (IsTrimmed text) :=
  decidable_of_iff ((text.head?.all (!Text.isBlank ·) && text.getLast?.all (!Text.isBlank ·)) = true) (by
    rw [Bool.and_eq_true, Option.all_eq_true, Option.all_eq_true]
    simp only [Bool.not_eq_true']
    exact ⟨fun h => ⟨h.1, h.2⟩, fun h => ⟨h.front, h.back⟩⟩)

/-- What a value may be: without a quote inside if it stands in quotes, and otherwise without a comma and a quote inside and
without blanks at its two ends. -/
def IsValue (quoted : Bool) (value : List Char) : Prop :=
  if quoted then '"' ∉ value else ',' ∉ value ∧ '"' ∉ value ∧ IsTrimmed value

instance (quoted : Bool) (value : List Char) : Decidable (IsValue quoted value) :=
  inferInstanceAs (Decidable (if quoted then '"' ∉ value else ',' ∉ value ∧ '"' ∉ value ∧ IsTrimmed value))

/-- A key and the value that an entry gives it. -/
structure Parameter where
  /-- The key. -/
  key : String
  /-- The value. -/
  value : String
  /-- Whether the value is written in quotes. -/
  quoted : Bool
  key_plain : '=' ∉ key.toList ∧ ',' ∉ key.toList ∧ '"' ∉ key.toList
  key_trimmed : IsTrimmed key.toList
  isValue : IsValue quoted value.toList

/-- The blanks in an entry. -/
structure Spacing where
  /-- In front of the key. -/
  before : List Char
  /-- Between the key and the equals sign. -/
  left : List Char
  /-- Between the equals sign and the value. -/
  right : List Char
  /-- Behind the value. -/
  behind : List Char
  blank : ∀ c ∈ before ++ left ++ right ++ behind, Text.isBlank c = true

/-- What stands between two commas of a payload. -/
inductive Entry where
  /-- An entry that gives a key its value. -/
  | gives (parameter : Parameter) (spacing : Spacing)
  /-- An entry that gives nothing: it is blank, or has neither an equals sign nor a quote inside. -/
  | idle (text : List Char) (plain : '=' ∉ text ∧ ',' ∉ text ∧ '"' ∉ text)

/-- A value as it is written. -/
def Parameter.written (p : Parameter) : List Char :=
  if p.quoted then '"' :: p.value.toList ++ ['"'] else p.value.toList

/-- An entry as it is written. -/
def Entry.text : Entry → List Char
  | gives p s => s.before ++ p.key.toList ++ s.left ++ '=' :: (s.right ++ p.written ++ s.behind)
  | idle text _ => text

/-- The parameter of an entry, if it gives one. -/
def Entry.parameter? : Entry → Option Parameter
  | gives p _ => some p
  | idle _ _ => none

/-- A row of entries with commas between them. -/
def render (row : List Entry) : List Char :=
  [','].intercalate (row.map Entry.text)

/-- The value that a row of entries gives a key: that of the last entry with the key. -/
def lastValue? (row : List Entry) (key : String) : Option String :=
  ((row.filterMap Entry.parameter?).reverse.find? (·.key == key)).map (·.value)

/-! ## Where a payload is cut -/

theorem segments_ne_nil (quoted : Bool) (cs : List Char) : segments quoted cs ≠ [] := by
  cases cs with
  | nil => exact List.cons_ne_nil _ _
  | cons c cs =>
    rw [segments]
    split
    · exact List.cons_ne_nil _ _
    · split <;> exact List.cons_ne_nil _ _

/-- A character begins a segment with a cut behind it, or it goes in front of the first segment of what follows it. -/
theorem segments_cons (quoted : Bool) (c : Char) (rest : List Char) :
    segments quoted (c :: rest) =
      if c = ',' ∧ ¬quoted then [] :: segments false rest
      else (segments (if c = '"' then !quoted else quoted) rest).modifyHead (c :: ·) := by
  rw [segments]
  split
  · rfl
  · split
    · rename_i hnil
      exact absurd hnil (segments_ne_nil _ _)
    · rename_i hcons
      rw [hcons, List.modifyHead_cons]

/-- Characters among which there is no cut, whatever stands behind them. A quote is open in front of them if `quoted`, and behind
them if `after`. -/
def Uncut (quoted after : Bool) (cs : List Char) : Prop :=
  ∀ rest, segments quoted (cs ++ rest) = (segments after rest).modifyHead (cs ++ ·)

theorem Uncut.append {quoted between after : Bool} {cs ds : List Char} (h : Uncut quoted between cs) (h' : Uncut between after ds) :
    Uncut quoted after (cs ++ ds) := by
  intro rest
  rw [List.append_assoc, h, h', List.modifyHead_modifyHead]
  simp [Function.comp_def]

/-- There is no cut where there is no quote, and no comma unless a quote is open in front. -/
theorem uncut_run {quoted : Bool} {cs : List Char} (hquote : '"' ∉ cs) (hcomma : quoted = true ∨ ',' ∉ cs) :
    Uncut quoted quoted cs := by
  induction cs with
  | nil => exact fun rest => (congrFun List.modifyHead_id (segments quoted rest)).symm
  | cons c cs ih =>
    intro rest
    obtain ⟨hq, hqs⟩ := List.ne_and_not_mem_of_not_mem_cons hquote
    have hcut : ¬(c = ',' ∧ ¬quoted = true) := fun h =>
      hcomma.elim h.2 fun hc => (List.ne_and_not_mem_of_not_mem_cons hc).1 h.1.symm
    have hrest := ih hqs (hcomma.imp id List.not_mem_of_not_mem_cons) rest
    rw [List.cons_append, segments_cons, if_neg hcut, if_neg hq.symm, hrest, List.modifyHead_modifyHead]
    rfl

/-- A quote opens what is quoted, or closes it. -/
theorem uncut_quote (quoted : Bool) : Uncut quoted (!quoted) ['"'] := by
  intro rest
  rw [List.singleton_append, segments_cons, if_neg fun h => absurd h.1 (by decide), if_pos rfl]
  rfl

theorem uncut_equals : Uncut false false ['='] :=
  uncut_run (by decide) (Or.inr (by decide))

/-- No blank is a comma, a quote or an equals sign. -/
theorem ne_of_isBlank {c : Char} (h : Text.isBlank c = true) : c ≠ ',' ∧ c ≠ '"' ∧ c ≠ '=' := by
  refine ⟨?_, ?_, ?_⟩ <;> rintro rfl <;> revert h <;> decide

theorem uncut_blank {cs : List Char} (h : ∀ c ∈ cs, Text.isBlank c = true) : Uncut false false cs :=
  uncut_run (fun hm => (ne_of_isBlank (h _ hm)).2.1 rfl) (Or.inr fun hm => (ne_of_isBlank (h _ hm)).1 rfl)

/-- There is no cut in a value as it is written. -/
theorem Parameter.uncut_written (p : Parameter) : Uncut false false p.written := by
  have hvalue := p.isValue
  unfold written
  unfold IsValue at hvalue
  split
  · rename_i hquoted
    rw [if_pos hquoted] at hvalue
    exact ((uncut_quote false).append (uncut_run hvalue (Or.inl rfl))).append (uncut_quote true)
  · rename_i hquoted
    rw [if_neg hquoted] at hvalue
    exact uncut_run hvalue.2.1 (Or.inr hvalue.1)

/-- There is no cut in an entry. -/
theorem Entry.uncut_text (e : Entry) : Uncut false false e.text := by
  cases e with
  | gives p s =>
    have hblank := s.blank
    simp only [List.forall_mem_append] at hblank
    obtain ⟨⟨⟨hbefore, hleft⟩, hright⟩, hbehind⟩ := hblank
    have hkey : Uncut false false p.key.toList := uncut_run p.key_plain.2.2 (Or.inr p.key_plain.2.1)
    have hvalue := ((uncut_blank hright).append p.uncut_written).append (uncut_blank hbehind)
    exact (((uncut_blank hbefore).append hkey).append (uncut_blank hleft)).append (uncut_equals.append hvalue)
  | idle text plain => exact uncut_run plain.2.2 (Or.inr plain.2.1)

/-- Behind a text without a cut, a comma makes one. -/
theorem Uncut.segments_comma {cs : List Char} (h : Uncut false false cs) (rest : List Char) :
    segments false (cs ++ ',' :: rest) = cs :: segments false rest := by
  rw [h, segments_cons, if_pos ⟨rfl, Bool.false_ne_true⟩, List.modifyHead_cons, List.append_nil]

/-- A text without a cut is one segment. -/
theorem Uncut.segments_eq {quoted after : Bool} {cs : List Char} (h : Uncut quoted after cs) : segments quoted cs = [cs] := by
  have hcut := h []
  rwa [List.append_nil, segments, List.modifyHead_cons, List.append_nil] at hcut

/-- A row of entries is cut between the entries. -/
theorem segments_render {row : List Entry} (h : row ≠ []) : segments false (render row) = row.map Entry.text := by
  induction row with
  | nil => exact absurd rfl h
  | cons e row ih =>
    cases row with
    | nil => simpa [render] using e.uncut_text.segments_eq
    | cons next row =>
      have hrest := ih (List.cons_ne_nil next row)
      rw [render, List.map_cons] at hrest
      rw [render, List.map_cons, List.map_cons, List.intercalate_cons_cons, List.append_assoc, List.singleton_append,
        e.uncut_text.segments_comma, hrest]

/-! ## What an entry gives -/

/-- What has no equals sign is no parameter. -/
theorem parameter?_of_not_mem {cs : List Char} (h : '=' ∉ cs) : parameter? cs = none := by
  have hdrop : cs.dropWhile (· != '=') = [] := List.dropWhile_eq_nil_iff.mpr (Text.bne_of_not_mem h)
  rw [parameter?, hdrop]

/-- What stands in front of the first equals sign is the key, and what stands behind it the value. -/
theorem parameter?_append {key : List Char} (h : '=' ∉ key) (value : List Char) :
    parameter? (key ++ '=' :: value) =
      some (String.ofList (Text.trim Text.isBlank key), String.ofList (unquote (Text.trim Text.isBlank value))) := by
  simp only [parameter?, Text.takeWhile_upTo h, Text.dropWhile_upTo h]

/-- The quotes around a value are taken off. -/
theorem unquote_quoted (value : List Char) : unquote ('"' :: value ++ ['"']) = value := by
  simp [unquote]

/-- A value without quotes stays as it is. -/
theorem unquote_of_not_mem {value : List Char} (h : '"' ∉ value) : unquote value = value := by
  unfold unquote
  split
  · exact absurd List.mem_cons_self h
  · rfl

/-- A value is read back from the way it is written, which has no blanks at its two ends. -/
theorem Parameter.unquote_written (p : Parameter) : unquote p.written = p.value.toList ∧ IsTrimmed p.written := by
  have hvalue := p.isValue
  unfold written
  unfold IsValue at hvalue
  split
  · rename_i hquoted
    have hquote : Text.isBlank '"' = false := by decide
    refine ⟨unquote_quoted _, fun c hc => ?_, fun c hc => ?_⟩
    · cases hc
      exact hquote
    · rw [List.getLast?_concat] at hc
      cases hc
      exact hquote
  · rename_i hquoted
    rw [if_neg hquoted] at hvalue
    exact ⟨unquote_of_not_mem hvalue.2.1, hvalue.2.2⟩

/-- An entry is read as the parameter that it gives. -/
theorem Entry.parameter?_text (e : Entry) :
    Challenge.parameter? e.text = e.parameter?.map fun p => (p.key, p.value) := by
  cases e with
  | gives p s =>
    have hblank := s.blank
    simp only [List.forall_mem_append] at hblank
    obtain ⟨⟨⟨hbefore, hleft⟩, hright⟩, hbehind⟩ := hblank
    have hequals : '=' ∉ s.before ++ p.key.toList ++ s.left := by
      simp only [List.mem_append, not_or]
      exact ⟨⟨fun hm => (ne_of_isBlank (hbefore _ hm)).2.2 rfl, p.key_plain.1⟩, fun hm => (ne_of_isBlank (hleft _ hm)).2.2 rfl⟩
    obtain ⟨hunquote, htrimmed⟩ := p.unquote_written
    rw [text, parameter?_append hequals, Text.trim_around hbefore hleft p.key_trimmed.front p.key_trimmed.back,
      Text.trim_around hright hbehind htrimmed.front htrimmed.back, hunquote, String.ofList_toList, String.ofList_toList]
    rfl
  | idle text plain => exact parameter?_of_not_mem plain.1

/-- Segments that are blank give nothing, so it is all one whether they are left out. -/
theorem filterMap_entries (cs : List Char) : (entries cs).filterMap parameter? = (segments false cs).filterMap parameter? := by
  rw [entries, List.filterMap_filter]
  refine List.filterMap_congr fun segment _ => ?_
  split
  · rfl
  · rename_i hblank
    rw [Bool.not_eq_true, Bool.not_eq_false', List.all_eq_true] at hblank
    exact (parameter?_of_not_mem fun hm => (ne_of_isBlank (hblank _ hm)).2.2 rfl).symm

/-- A row of entries is read entry by entry. -/
theorem filterMap_render (row : List Entry) :
    (entries (render row)).filterMap parameter? = (row.filterMap Entry.parameter?).map fun p => (p.key, p.value) := by
  rw [filterMap_entries]
  cases row with
  | nil => rfl
  | cons e row =>
    rw [segments_render (List.cons_ne_nil e row), List.filterMap_map, List.map_filterMap]
    exact List.filterMap_congr fun e _ => e.parameter?_text

/-! ## The last entry with a key -/

/-- Of values that are inserted one after the other, the last one for a key is found. -/
theorem getElem?_foldl_insert (pairs : List (String × String)) (key : String) :
    (pairs.foldl (fun m (k, v) => m.insert k v) (∅ : Std.TreeMap String String))[key]? =
      (pairs.reverse.find? (·.1 == key)).map (·.2) := by
  induction pairs using List.reverseRecOn with
  | nil => rfl
  | append_singleton pairs last ih =>
    rw [List.foldl_append, List.foldl_cons, List.foldl_nil, Std.TreeMap.getElem?_insert, ih, List.reverse_append,
      List.reverse_singleton, List.singleton_append, List.find?_cons]
    by_cases hkey : last.1 = key
    · rw [if_pos (Std.LawfulEqCmp.compare_eq_iff_eq.mpr hkey), beq_iff_eq.mpr hkey]
      rfl
    · rw [if_neg fun h => hkey (Std.LawfulEqCmp.compare_eq_iff_eq.mp h), beq_eq_false_iff_ne.mpr hkey]

/-- The parameters of a challenge are what its entries give: whatever the entries are, and whatever blanks and idle entries
stand between them, each key has the value of the last entry with it, and a key that no entry has is no parameter. -/
theorem params_of_render (row : List Entry) (key : String) :
    (params ⟨Utf8.encode (render row)⟩)[key]? = lastValue? row key := by
  have htext : (Utf8.decodeLossy (Utf8.encode (render row))).toList = render row := by
    rw [Utf8.decodeLossy_encode, String.toList_ofList]
  rw [params, htext, filterMap_render, getElem?_foldl_insert, lastValue?, ← List.map_reverse, List.find?_map, Option.map_map]
  rfl

/-- No blanks at all. -/
def Spacing.none : Spacing where
  before := []
  left := []
  right := []
  behind := []
  blank := by simp

/-- A row with each kind of entry: values in quotes, without them and with blanks around them, and two entries that give nothing.
Two of its entries have one key. -/
def mixedRow : List Entry :=
  [.gives
      { key := "qop", value := "auth", quoted := false, key_plain := by decide, key_trimmed := by decide, isValue := by decide }
      .none,
    .gives
      { key := "realm", value := "a,b", quoted := true, key_plain := by decide, key_trimmed := by decide, isValue := by decide }
      .none,
    .idle "junk".toList (by decide),
    .idle [] (by decide),
    .gives
      { key := "qop", value := "auth-int", quoted := false, key_plain := by decide, key_trimmed := by decide, isValue := by decide }
      { before := [' '], left := [' '], right := [' '], behind := [' '], blank := by simp [Text.isBlank] }]

/-- A comma in quotes is part of the value, of two entries with one key the last one holds, and an entry without an equals sign
gives nothing. -/
theorem params_of_render_mixed :
    render mixedRow = "qop=auth,realm=\"a,b\",junk,, qop = auth-int ".toList ∧
      (params ⟨Utf8.encode (render mixedRow)⟩)["realm"]? = some "a,b" ∧
      (params ⟨Utf8.encode (render mixedRow)⟩)["qop"]? = some "auth-int" ∧
      (params ⟨Utf8.encode (render mixedRow)⟩)["junk"]? = none := by
  have hrealm : lastValue? mixedRow "realm" = some "a,b" := by decide
  have hqop : lastValue? mixedRow "qop" = some "auth-int" := by decide
  have hjunk : lastValue? mixedRow "junk" = none := by decide
  refine ⟨by decide, ?_, ?_, ?_⟩
  · exact (params_of_render mixedRow "realm").trans hrealm
  · exact (params_of_render mixedRow "qop").trans hqop
  · exact (params_of_render mixedRow "junk").trans hjunk

end StreamAuth.Challenge
