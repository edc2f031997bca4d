/-!
# Numerals

Reading a number that is written in digits, with a bound on its value. A digit that is none is noticed before a value that
has grown too large, so the two faults come in the order of the text.
-/

namespace StreamAuth.Text

/-- The value of a digit in a base of at most sixteen. -/
def digit? (base : Nat) (c : Char) : Option Nat :=
  let value :=
    if '0' ≤ c && c ≤ '9' then c.toNat - '0'.toNat
    else if 'a' ≤ c && c ≤ 'f' then c.toNat - 'a'.toNat + 10
    else if 'A' ≤ c && c ≤ 'F' then c.toNat - 'A'.toNat + 10
    else base
  if value < base then some value else none

/-- Why a numeral has no value. -/
inductive NumeralFault where
  /-- There is no digit at all. -/
  | empty
  /-- A character that is no digit of the base. -/
  | invalidDigit
  /-- The value passes the bound. -/
  | tooLarge
  deriving DecidableEq, Repr

/-- Goes on reading digits, with `value` read so far. -/
def readDigits (base bound : Nat) : (value : Nat) → List Char → Except NumeralFault Nat
  | value, [] => .ok value
  | value, c :: rest =>
    match digit? base c with
    | none => .error .invalidDigit
    | some d =>
      if value * base + d < bound then readDigits base bound (value * base + d) rest else .error .tooLarge

/-- The value of a numeral without a sign, which must be below `bound`. -/
def readNumeral (base bound : Nat) : List Char → Except NumeralFault Nat
  | [] => .error .empty
  | c :: rest => readDigits base bound 0 (c :: rest)

/-- The value of a decimal numeral below `bound`, which one `+` may precede. -/
def decimal? (bound : Nat) (s : String) : Option Nat :=
  match s.toList with
  | '+' :: rest => (readNumeral 10 bound rest).toOption
  | cs => (readNumeral 10 bound cs).toOption

end StreamAuth.Text
