import StreamAuth.Text.Numeral

/-!
# TOML strings

Four forms of string: basic ones with escapes and literal ones without, each on one line or over several. A line break inside
a string counts as a line feed, however it is written.
-/

namespace StreamAuth.Toml

/-- Space and tab. -/
def isBlank (c : Char) : Bool :=
  c == ' ' || c == '\t'

/-- Whether a character may stand in a string or a comment as it is: all but the controls, and the tab. -/
def isPlain (c : Char) : Bool :=
  c == '\t' || (' ' ≤ c && c != '\x7f')

/-- A string that has been read, and what stands after it. -/
abbrev Piece := List Char × List Char

/-- The piece with a character put in front. -/
def Piece.cons (c : Char) (p : Piece) : Piece := (c :: p.1, p.2)

/-- The character of a one-letter escape. -/
def escaped? : Char → Option Char
  | 'b' => some '\x08'
  | 't' => some '\t'
  | 'n' => some '\n'
  | 'f' => some '\x0c'
  | 'r' => some '\r'
  | '"' => some '"'
  | '\\' => some '\\'
  | _ => none

/-- The character of a code point in hexadecimal. -/
def codePoint? (digits : List Char) : Option Char := do
  let code ← (Text.readNumeral 16 (Nat.pow 2 32) digits).toOption
  if h : code.isValidChar then some (Char.ofNatAux code h) else none

/-- The rest of a basic string on one line. -/
def basicRest? : List Char → Option Piece
  | '"' :: rest => some ([], rest)
  | '\\' :: 'u' :: a :: b :: c :: d :: rest => do
    return (← basicRest? rest).cons (← codePoint? [a, b, c, d])
  | '\\' :: 'U' :: a :: b :: c :: d :: e :: f :: g :: h :: rest => do
    return (← basicRest? rest).cons (← codePoint? [a, b, c, d, e, f, g, h])
  | '\\' :: c :: rest => do
    return (← basicRest? rest).cons (← escaped? c)
  | c :: rest => if isPlain c then (basicRest? rest).map (·.cons c) else none
  | [] => none

/-- The rest of a literal string on one line. -/
def literalRest? : List Char → Option Piece
  | '\'' :: rest => some ([], rest)
  | c :: rest => if isPlain c then (literalRest? rest).map (·.cons c) else none
  | [] => none

/-- Where the reading of a basic string over several lines stands. -/
inductive Fold where
  /-- In the text. -/
  | text
  /-- After a backslash that ends its line, before the line break. -/
  | lineEnd
  /-- After that line break, before the next character that is not blank. -/
  | blanks
  deriving DecidableEq

/-- The rest of a basic string over several lines. Up to two quotes may stand in front of the three that end it. -/
def multilineBasicRest? : Fold → List Char → Option Piece
  | .lineEnd, '\r' :: '\n' :: rest => multilineBasicRest? .blanks rest
  | .lineEnd, '\n' :: rest => multilineBasicRest? .blanks rest
  | .lineEnd, c :: rest => if isBlank c then multilineBasicRest? .lineEnd rest else none
  | .blanks, '\r' :: '\n' :: rest => multilineBasicRest? .blanks rest
  | .blanks, '\n' :: rest => multilineBasicRest? .blanks rest
  | .blanks, ' ' :: rest => multilineBasicRest? .blanks rest
  | .blanks, '\t' :: rest => multilineBasicRest? .blanks rest
  | _, '"' :: '"' :: '"' :: '"' :: '"' :: rest => some (['"', '"'], rest)
  | _, '"' :: '"' :: '"' :: '"' :: rest => some (['"'], rest)
  | _, '"' :: '"' :: '"' :: rest => some ([], rest)
  | _, '\r' :: '\n' :: rest => (multilineBasicRest? .text rest).map (·.cons '\n')
  | _, '\n' :: rest => (multilineBasicRest? .text rest).map (·.cons '\n')
  | _, '\\' :: 'u' :: a :: b :: c :: d :: rest => do
    return (← multilineBasicRest? .text rest).cons (← codePoint? [a, b, c, d])
  | _, '\\' :: 'U' :: a :: b :: c :: d :: e :: f :: g :: h :: rest => do
    return (← multilineBasicRest? .text rest).cons (← codePoint? [a, b, c, d, e, f, g, h])
  | _, '\\' :: '\r' :: '\n' :: rest => multilineBasicRest? .blanks rest
  | _, '\\' :: c :: rest =>
    if c = '\n' then multilineBasicRest? .blanks rest
    else if isBlank c then multilineBasicRest? .lineEnd rest
    else do return (← multilineBasicRest? .text rest).cons (← escaped? c)
  | _, c :: rest => if isPlain c then (multilineBasicRest? .text rest).map (·.cons c) else none
  | _, [] => none

/-- The rest of a literal string over several lines. Up to two quotes may stand in front of the three that end it. -/
def multilineLiteralRest? : List Char → Option Piece
  | '\'' :: '\'' :: '\'' :: '\'' :: '\'' :: rest => some (['\'', '\''], rest)
  | '\'' :: '\'' :: '\'' :: '\'' :: rest => some (['\''], rest)
  | '\'' :: '\'' :: '\'' :: rest => some ([], rest)
  | '\r' :: '\n' :: rest => (multilineLiteralRest? rest).map (·.cons '\n')
  | '\n' :: rest => (multilineLiteralRest? rest).map (·.cons '\n')
  | c :: rest => if isPlain c then (multilineLiteralRest? rest).map (·.cons c) else none
  | [] => none

/-- The text without a line break at its start. -/
def dropLineBreak : List Char → List Char
  | '\r' :: '\n' :: rest => rest
  | '\n' :: rest => rest
  | cs => cs

/-- A string in any of its forms. -/
def readText? : List Char → Option Piece
  | '"' :: '"' :: '"' :: rest => multilineBasicRest? .text (dropLineBreak rest)
  | '"' :: rest => basicRest? rest
  | '\'' :: '\'' :: '\'' :: rest => multilineLiteralRest? (dropLineBreak rest)
  | '\'' :: rest => literalRest? rest
  | _ => none

/-! ## Progress -/

/-- A character in front of a string takes nothing from what stands after it. -/
theorem length_of_cons {read : Option Piece} {c? : Option Char} {p : Piece} {n : Nat}
    (h : (do return (← read).cons (← c?)) = some p) (short : ∀ {q : Piece}, read = some q → q.2.length < n) :
    p.2.length < n := by
  cases hr : read with
  | none => simp [hr] at h
  | some q =>
    cases hc : c? with
    | none => simp [hr, hc] at h
    | some c =>
      simp only [hr, hc] at h
      cases h
      exact short (q := q) hr

theorem length_of_map_cons {read : Option Piece} {c : Char} {p : Piece} {n : Nat}
    (h : read.map (·.cons c) = some p) (short : ∀ {q : Piece}, read = some q → q.2.length < n) : p.2.length < n := by
  obtain ⟨q, hq, rfl⟩ := Option.map_eq_some_iff.mp h
  exact short (q := q) hq

theorem length_of_basicRest? {cs : List Char} {p : Piece} (h : basicRest? cs = some p) : p.2.length < cs.length := by
  fun_induction basicRest? cs generalizing p with
  | case1 => cases h; simp
  | case2 _ _ _ _ _ ih | case3 _ _ _ _ _ _ _ _ _ ih | case4 _ _ _ _ ih =>
    have := length_of_cons h ih
    simp only [List.length_cons]
    omega
  | case5 _ _ _ _ _ _ _ ih =>
    have := length_of_map_cons h ih
    simp only [List.length_cons]
    omega
  | case6 | case7 => cases h

theorem length_of_literalRest? {cs : List Char} {p : Piece} (h : literalRest? cs = some p) : p.2.length < cs.length := by
  fun_induction literalRest? cs generalizing p with
  | case1 => cases h; simp
  | case2 _ _ _ _ ih =>
    have := length_of_map_cons h ih
    simp only [List.length_cons]
    omega
  | case3 | case4 => cases h

theorem length_of_multilineLiteralRest? {cs : List Char} {p : Piece} (h : multilineLiteralRest? cs = some p) :
    p.2.length < cs.length := by
  fun_induction multilineLiteralRest? cs generalizing p
  case case7 | case8 => cases h
  case case1 | case2 | case3 =>
    cases h
    simp only [List.length_cons]
    omega
  all_goals
    next ih =>
    have := length_of_map_cons h ih
    simp only [List.length_cons]
    omega

theorem length_of_multilineBasicRest? {fold : Fold} {cs : List Char} {p : Piece}
    (h : multilineBasicRest? fold cs = some p) : p.2.length < cs.length := by
  fun_induction multilineBasicRest? fold cs generalizing p
  case case4 | case21 | case22 => cases h
  case case9 | case10 | case11 =>
    cases h
    simp only [List.length_cons]
    omega
  case case12 | case13 | case20 =>
    next ih =>
    have := length_of_map_cons h ih
    simp only [List.length_cons]
    omega
  case case14 | case15 | case19 =>
    next ih =>
    have := length_of_cons h ih
    simp only [List.length_cons]
    omega
  all_goals
    next ih =>
    have := ih h
    simp only [List.length_cons]
    omega

theorem length_of_dropLineBreak (cs : List Char) : (dropLineBreak cs).length ≤ cs.length := by
  unfold dropLineBreak
  split
  · simp only [List.length_cons]; omega
  · simp
  · exact Nat.le_refl _

/-- A string takes at least its quotes. -/
theorem length_of_readText? {cs : List Char} {p : Piece} (h : readText? cs = some p) : p.2.length < cs.length := by
  unfold readText? at h
  split at h
  · next rest =>
    have := length_of_multilineBasicRest? h
    have := length_of_dropLineBreak rest
    simp only [List.length_cons]
    omega
  · have := length_of_basicRest? h
    simp only [List.length_cons]
    omega
  · next rest =>
    have := length_of_multilineLiteralRest? h
    have := length_of_dropLineBreak rest
    simp only [List.length_cons]
    omega
  · have := length_of_literalRest? h
    simp only [List.length_cons]
    omega
  · cases h

end StreamAuth.Toml
