import StreamAuth.Toml.Layout
import StreamAuth.Toml.Value

/-!
# TOML words

Numbers, times and truth values are single words. A word is read as a whole: it must have one of their forms from its first
character to its last. Whole numbers lie in the range of sixty-four bits with a sign.
-/

namespace StreamAuth.Toml

/-- Whether a character may stand in a word. -/
def isWordChar (c : Char) : Bool :=
  c.isAlphanum || c == '_' || c == '+' || c == '-' || c == '.' || c == ':'

/-! ## Numbers -/

/-- The digits of a run in which single underscores may part digits. -/
def digits? (base : Nat) : List Char → Option (List Char)
  | [] => none
  | [c] => if (Text.digit? base c).isSome then some [c] else none
  | c :: '_' :: rest => do
    let _ ← Text.digit? base c
    let rest ← digits? base rest
    return c :: rest
  | c :: rest => do
    let _ ← Text.digit? base c
    let rest ← digits? base rest
    return c :: rest

/-- The digits of a decimal number, which has no zero in front unless it is zero. -/
def decimalDigits? (cs : List Char) : Option (List Char) :=
  match cs with
  | '0' :: _ :: _ => none
  | _ => digits? 10 cs

/-- A sign at the front of a word, and the rest of it. -/
def signed : List Char → Bool × List Char
  | '-' :: rest => (true, rest)
  | '+' :: rest => (false, rest)
  | cs => (false, cs)

/-- A whole number in the range of sixty-four bits with a sign, by its sign and its digits. -/
def inRange? (base : Nat) (negative : Bool) (digits : List Char) : Option Value := do
  let n ← (Text.readNumeral base (Nat.pow 2 63 + 1) digits).toOption
  if negative then some (.integer (-n))
  else if n < Nat.pow 2 63 then some (.integer n) else none

/-- A whole number: in base sixteen, eight or two without a sign, or in decimal. -/
def integer? (cs : List Char) : Option Value :=
  match cs with
  | '0' :: 'x' :: rest => do inRange? 16 false (← digits? 16 rest)
  | '0' :: 'o' :: rest => do inRange? 8 false (← digits? 8 rest)
  | '0' :: 'b' :: rest => do inRange? 2 false (← digits? 2 rest)
  | _ => do
    let (negative, body) := signed cs
    inRange? 10 negative (← decimalDigits? body)

/-- The least number that is too large for a binary fraction of sixty-four bits: the middle between the greatest such fraction
and the next power of two. -/
def overflow : Nat := Nat.pow 2 1024 - Nat.pow 2 970

/-- Whether a run of digits comes before another when both are continued with zeros. -/
def comesBefore : List Char → List Char → Bool
  | _, [] => false
  | [], limit => limit.any (· != '0')
  | c :: digits, l :: limit => c < l || (c == l && comesBefore digits limit)

/-- Whether a number is below the overflow, by its digits and the place of its point among them, which may lie outside them.
A number without zeros in front has as many digits in front of its point as the overflow, unless it is clear which is less. -/
def isFinite (digits : List Char) (point : Int) : Bool :=
  let limit := Nat.toDigits 10 overflow
  let significant := digits.dropWhile (· == '0')
  let whole := point - (digits.length - significant.length)
  significant.isEmpty || whole < limit.length || (whole == limit.length && comesBefore significant limit)

/-- The size of an exponent. Its digits count until they have passed sixteen bits, and those after that are not looked at. -/
def exponentSize (digits : List Char) : Nat :=
  digits.foldl (fun n c => if n < Nat.pow 2 16 then n * 10 + (Text.digit? 10 c).getD 0 else n) 0

/-- A fraction: a decimal number with a fractional part, an exponent, or both. One that is too large must be negative. -/
def float? (cs : List Char) : Option Value := do
  let (negative, body) := signed cs
  let whole ← decimalDigits? (body.takeWhile fun c => c.isDigit || c == '_')
  let afterWhole := body.dropWhile fun c => c.isDigit || c == '_'
  let (fraction, afterFraction) ←
    match afterWhole with
    | '.' :: rest => do
      let fraction ← digits? 10 (rest.takeWhile fun c => c.isDigit || c == '_')
      pure (fraction, rest.dropWhile fun c => c.isDigit || c == '_')
    | _ => pure ([], afterWhole)
  let exponent ←
    match afterFraction with
    | [] => if fraction = [] then none else some (0 : Int)
    | c :: rest =>
      if c = 'e' ∨ c = 'E' then do
        let (negative, body) := signed rest
        let n := exponentSize (← digits? 10 body)
        pure (if negative then -n else n)
      else none
  if negative ∨ isFinite (whole ++ fraction) (whole.length + exponent) then some .float else none

/-- A fraction that is no number, or infinite. -/
def specialFloat? (cs : List Char) : Option Value :=
  let body := (signed cs).2
  if body = "inf".toList ∨ body = "nan".toList then some .float else none

/-! ## Times -/

/-- The value of a run of digits. -/
def natural (base : Nat) (digits : List Char) : Nat :=
  digits.foldl (fun n c => n * base + (Text.digit? base c).getD 0) 0

/-- The number that two digits make, if it lies between the two bounds. -/
def twoDigits? (low high : Nat) (a b : Char) : Option Nat :=
  if a.isDigit && b.isDigit then
    let n := natural 10 [a, b]
    if low ≤ n ∧ n ≤ high then some n else none
  else none

/-- The number of days of a month. -/
def daysIn (year month : Nat) : Nat :=
  if month = 2 then
    if year % 4 = 0 ∧ (year % 100 ≠ 0 ∨ year % 400 = 0) then 29 else 28
  else if month = 4 ∨ month = 6 ∨ month = 9 ∨ month = 11 then 30
  else 31

/-- What stands after a date. -/
def afterDate? : List Char → Option (List Char)
  | a :: b :: c :: d :: '-' :: e :: f :: '-' :: g :: h :: rest =>
    if [a, b, c, d].all Char.isDigit then do
      let month ← twoDigits? 1 12 e f
      let _ ← twoDigits? 1 (daysIn (natural 10 [a, b, c, d]) month) g h
      return rest
    else none
  | _ => none

/-- What stands after a time of day. Its seconds are given, and may have a fraction. -/
def afterClock? : List Char → Option (List Char)
  | a :: b :: ':' :: c :: d :: ':' :: e :: f :: rest => do
    let _ ← twoDigits? 0 23 a b
    let _ ← twoDigits? 0 59 c d
    let _ ← twoDigits? 0 60 e f
    match rest with
    | '.' :: fraction =>
      if (fraction.takeWhile Char.isDigit).isEmpty then none else some (fraction.dropWhile Char.isDigit)
    | _ => some rest
  | _ => none

/-- Whether a text is a distance from universal time. -/
def isOffset : List Char → Bool
  | ['Z'] | ['z'] => true
  | [sign, a, b, ':', c, d] =>
    (sign == '+' || sign == '-') && (twoDigits? 0 23 a b).isSome && (twoDigits? 0 59 c d).isSome
  | _ => false

/-- Whether a text is a time of day, with or without a distance from universal time. -/
def isClockWithOffset (cs : List Char) : Bool :=
  match afterClock? cs with
  | some rest => rest.isEmpty || isOffset rest
  | none => false

/-- A date, a time of day, or both in one word. -/
def time? (cs : List Char) : Option Value :=
  match afterDate? cs with
  | some [] => some .time
  | some (c :: rest) => if (c = 'T' ∨ c = 't') ∧ isClockWithOffset rest then some .time else none
  | none => if afterClock? cs = some [] then some .time else none

/-! ## Words -/

/-- Whether a word is a date alone, so that a time of day may follow after a space. -/
def isDate (cs : List Char) : Bool :=
  afterDate? cs == some []

/-- The value of a word. -/
def word? (cs : List Char) : Option Value :=
  if cs = "true".toList then some (.boolean true)
  else if cs = "false".toList then some (.boolean false)
  else (time? cs).or ((float? cs).or ((specialFloat? cs).or (integer? cs)))

/-- A word at the front of a text, and what stands after it. -/
def readWord? (cs : List Char) : Option (Value × List Char) := do
  let word := cs.takeWhile isWordChar
  let rest := cs.dropWhile isWordChar
  match rest with
  | ' ' :: c :: more =>
    if isDate word ∧ c.isDigit then
      if isClockWithOffset ((c :: more).takeWhile isWordChar) then
        return (.time, (c :: more).dropWhile isWordChar)
      else none
    else return (← word? word, rest)
  | _ => return (← word? word, rest)

/-- A word takes at least one character. -/
theorem length_of_readWord? {cs after : List Char} {v : Value} (h : readWord? cs = some (v, after)) :
    after.length < cs.length := by
  by_cases hw : cs.takeWhile isWordChar = []
  · unfold readWord? at h
    simp only [hw] at h
    split at h
    · simp [isDate, afterDate?] at h
      cases h
    · cases h
  · have hd := length_of_dropWhile hw
    unfold readWord? at h
    simp only at h
    split at h
    · next c more hr =>
      split at h
      · split at h
        · have := ((c :: more).dropWhile_sublist isWordChar).length_le
          rw [hr, List.length_cons] at hd
          cases h
          omega
        · cases h
      · obtain ⟨v, _, he⟩ := Option.bind_eq_some_iff.mp h
        cases he
        exact hd
    · obtain ⟨v, _, he⟩ := Option.bind_eq_some_iff.mp h
      cases he
      exact hd

end StreamAuth.Toml
