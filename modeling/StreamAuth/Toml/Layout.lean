import StreamAuth.Toml.Text

/-!
# Between values

What may stand between the values of a TOML document: blanks, comments and line breaks. None of it means anything, and none of
it may hold a control character.
-/

namespace StreamAuth.Toml

/-- The text without blanks at its start. -/
def skipBlanks (cs : List Char) : List Char :=
  cs.dropWhile isBlank

/-- What stands after the end of a line, which blanks and a comment may precede; at the end of the input, nothing. -/
def endLine? (cs : List Char) : Option (List Char) :=
  let ended : List Char → Option (List Char)
    | [] => some []
    | '\n' :: rest => some rest
    | '\r' :: '\n' :: rest => some rest
    | _ => none
  match skipBlanks cs with
  | '#' :: rest => ended (rest.dropWhile isPlain)
  | rest => ended rest

/-- A run of characters that is there takes at least one. -/
theorem length_of_dropWhile {p : Char → Bool} {cs : List Char} (h : cs.takeWhile p ≠ []) :
    (cs.dropWhile p).length < cs.length := by
  cases cs with
  | nil => simp at h
  | cons c rest =>
    cases hc : p c with
    | false => simp [List.takeWhile, hc] at h
    | true =>
      have := (rest.dropWhile_sublist p).length_le
      simp only [List.dropWhile, hc, List.length_cons]
      omega

theorem length_of_skipBlanks (cs : List Char) : (skipBlanks cs).length ≤ cs.length :=
  (cs.dropWhile_sublist isBlank).length_le

/-- The end of a line takes at least one character, unless the input ends as well. -/
theorem length_of_endLine? {cs after : List Char} (h : endLine? cs = some after) :
    after.length < cs.length ∨ cs = [] := by
  have hb := length_of_skipBlanks cs
  unfold endLine? at h
  simp only at h
  split at h
  · next rest hr =>
    have := (rest.dropWhile_sublist isPlain).length_le
    rw [hr, List.length_cons] at hb
    split at h
    · cases h
      simp only [List.length_nil]
      omega
    all_goals simp_all only [List.length_cons, Option.some.injEq, reduceCtorEq]
    all_goals omega
  · split at h
    · cases h
      cases cs with
      | nil => exact .inr rfl
      | cons c rest => simp
    all_goals simp_all only [List.length_cons, Option.some.injEq, reduceCtorEq]
    all_goals omega

theorem length_of_endLine?_le {cs after : List Char} (h : endLine? cs = some after) : after.length ≤ cs.length := by
  rcases length_of_endLine? h with hl | rfl
  · omega
  · cases h
    exact Nat.le_refl _

/-- The text without blanks, comments and line breaks at its start. -/
def skipLines (cs : List Char) : List Char :=
  match _h : skipBlanks cs with
  | [] => []
  | c :: rest =>
    if c = '#' ∨ c = '\n' ∨ c = '\r' then
      match _he : endLine? (c :: rest) with
      | some after => skipLines after
      | none => c :: rest
    else c :: rest
termination_by cs.length
decreasing_by
  have hb := length_of_skipBlanks cs
  rw [_h] at hb
  rcases length_of_endLine? _he with h | h
  · omega
  · cases h

theorem length_of_skipLines (cs : List Char) : (skipLines cs).length ≤ cs.length := by
  fun_induction skipLines cs with
  | case1 => simp
  | case2 cs c rest h _ after he ih =>
    have hb := length_of_skipBlanks cs
    rw [h] at hb
    rcases length_of_endLine? he with h | h
    · omega
    · cases h
  | case3 cs c rest h | case4 cs c rest h => exact h ▸ length_of_skipBlanks cs

end StreamAuth.Toml
