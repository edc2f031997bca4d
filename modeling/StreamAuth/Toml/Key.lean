import StreamAuth.Toml.Layout

/-!
# TOML keys

A key is a name, bare or in quotes, or several of them with dots in between. A dotted key leads through tables to the name at
its end.
-/

namespace StreamAuth.Toml

/-- How deep values and dotted keys may nest. -/
def nestingLimit : Nat := 79

/-- Whether a character may stand in a key without quotes. -/
def isKeyChar (c : Char) : Bool :=
  c.isAlphanum || c == '_' || c == '-'

/-- One part of a key, with the blanks around it, and what stands after it. -/
def readKeyPart? (cs : List Char) : Option (String × List Char) :=
  match skipBlanks cs with
  | '"' :: rest => (basicRest? rest).map fun (key, after) => (String.ofList key, skipBlanks after)
  | '\'' :: rest => (literalRest? rest).map fun (key, after) => (String.ofList key, skipBlanks after)
  | rest =>
    let key := rest.takeWhile isKeyChar
    if key = [] then none else some (String.ofList key, skipBlanks (rest.dropWhile isKeyChar))

/-- A key of at most `limit` parts: the parts before the last, the last, and what stands after them. -/
def readKeyParts? : (limit : Nat) → List Char → Option (List String × String × List Char)
  | 0, _ => none
  | limit + 1, cs => do
    let (part, rest) ← readKeyPart? cs
    match rest with
    | '.' :: rest =>
      let (path, key, after) ← readKeyParts? limit rest
      return (part :: path, key, after)
    | _ => return ([], part, rest)

/-- A key, which may be dotted. -/
def readKey? (cs : List Char) : Option (List String × String × List Char) :=
  readKeyParts? nestingLimit cs

theorem length_of_readKeyPart? {cs after : List Char} {part : String} (h : readKeyPart? cs = some (part, after)) :
    after.length < cs.length := by
  have hb := length_of_skipBlanks cs
  unfold readKeyPart? at h
  split at h
  · next rest hr =>
    obtain ⟨p, hp, he⟩ := Option.map_eq_some_iff.mp h
    have := length_of_basicRest? hp
    have := length_of_skipBlanks p.2
    rw [hr, List.length_cons] at hb
    cases he
    omega
  · next rest hr =>
    obtain ⟨p, hp, he⟩ := Option.map_eq_some_iff.mp h
    have := length_of_literalRest? hp
    have := length_of_skipBlanks p.2
    rw [hr, List.length_cons] at hb
    cases he
    omega
  · simp only at h
    split at h
    · cases h
    · next hk =>
      have := length_of_dropWhile hk
      have := length_of_skipBlanks ((skipBlanks cs).dropWhile isKeyChar)
      cases h
      omega

theorem length_of_readKeyParts? {limit : Nat} {cs after : List Char} {path : List String} {key : String}
    (h : readKeyParts? limit cs = some (path, key, after)) : after.length < cs.length := by
  induction limit generalizing cs path with
  | zero => cases h
  | succ limit ih =>
    obtain ⟨⟨part, rest⟩, hp, h⟩ := Option.bind_eq_some_iff.mp h
    have hl := length_of_readKeyPart? hp
    simp only at h
    split at h
    · obtain ⟨⟨inner, key, after⟩, hi, he⟩ := Option.bind_eq_some_iff.mp h
      cases he
      have := ih hi
      rw [List.length_cons] at hl
      omega
    · cases h
      exact hl

end StreamAuth.Toml
