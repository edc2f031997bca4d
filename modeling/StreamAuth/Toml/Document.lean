import StreamAuth.Toml.Reader

/-!
# TOML documents

A document is a sequence of lines: headers that begin a table, and pairs that add a value to the table begun last.
-/

namespace StreamAuth.Toml

/-- What a line says. -/
inductive Line where
  /-- A value for a key of the current table. -/
  | pair (path : List String) (key : String) (v : Value)
  /-- The header of a table. -/
  | table (path : List String) (key : String)
  /-- The header of a further table of a row. -/
  | row (path : List String) (key : String)
  /-- Nothing. -/
  | blank

/-- A line, and what stands after it. -/
def readLine? (cs : List Char) : Option (Line × List Char) :=
  match skipBlanks cs with
  | '[' :: '[' :: rest => do
    let (path, key, rest) ← readKey? rest
    match rest with
    | ']' :: ']' :: rest => return (.row path key, ← endLine? rest)
    | _ => none
  | '[' :: rest => do
    let (path, key, rest) ← readKey? rest
    match rest with
    | ']' :: rest => return (.table path key, ← endLine? rest)
    | _ => none
  | [] => some (.blank, [])
  | c :: rest =>
    if c = '#' ∨ c = '\n' ∨ c = '\r' then (endLine? (c :: rest)).map fun after => (.blank, after)
    else do
      let ((path, key, v), after) ← readPair? (valueReader nestingLimit) (c :: rest)
      return (.pair path key v, ← endLine? after)

/-- A line takes at least one character, unless the input is at its end. -/
theorem length_of_readLine? {cs after : List Char} {line : Line} (h : readLine? cs = some (line, after)) :
    after.length < cs.length ∨ cs = [] := by
  have hb := length_of_skipBlanks cs
  unfold readLine? at h
  split at h
  · next rest hr =>
    rw [hr, List.length_cons, List.length_cons] at hb
    obtain ⟨⟨path, key, rest⟩, hk, h⟩ := Option.bind_eq_some_iff.mp h
    have hl := length_of_readKeyParts? hk
    simp only at h
    split at h
    · obtain ⟨last, he, hp⟩ := Option.bind_eq_some_iff.mp h
      cases hp
      have := length_of_endLine?_le he
      rw [List.length_cons, List.length_cons] at hl
      omega
    · cases h
  · next rest _ hr =>
    rw [hr, List.length_cons] at hb
    obtain ⟨⟨path, key, rest⟩, hk, h⟩ := Option.bind_eq_some_iff.mp h
    have hl := length_of_readKeyParts? hk
    simp only at h
    split at h
    · obtain ⟨last, he, hp⟩ := Option.bind_eq_some_iff.mp h
      cases hp
      have := length_of_endLine?_le he
      rw [List.length_cons] at hl
      omega
    · cases h
  · cases h
    cases cs with
    | nil => exact .inr rfl
    | cons c rest => simp
  · next c rest _ _ hr =>
    rw [hr] at hb
    split at h
    · obtain ⟨last, he, hp⟩ := Option.map_eq_some_iff.mp h
      cases hp
      rcases length_of_endLine? he with hl | hl
      · omega
      · cases hl
    · obtain ⟨⟨⟨path, key, v⟩, rest⟩, hp, h⟩ := Option.bind_eq_some_iff.mp h
      have hl := length_of_readPair? hp
      obtain ⟨last, he, hp⟩ := Option.bind_eq_some_iff.mp h
      cases hp
      have := length_of_endLine?_le he
      omega

/-- A document as far as it has been read. -/
structure Draft where
  /-- What the document's names stand for. -/
  entries : Entries := ∅
  /-- The names that lead to the current table. -/
  current : List String := []

/-- The document after a line. -/
def Draft.add? (d : Draft) : Line → Option Draft
  | .pair path key v => do
    let entries ← descend false (addPair path key v) .header d.entries d.current
    return { d with entries }
  | .table path key => do
    let entries ← descend false (fun _ => beginTable key) .header d.entries path
    return ⟨entries, path ++ [key]⟩
  | .row path key => do
    let entries ← descend false (fun _ => beginRow key) .header d.entries path
    return ⟨entries, path ++ [key]⟩
  | .blank => some d

/-- The document after all lines of a text. -/
def Draft.addLines? (d : Draft) (cs : List Char) : Option Draft :=
  if _h : cs = [] then some d
  else
    match _hl : readLine? cs with
    | none => none
    | some (line, rest) =>
      match d.add? line with
      | none => none
      | some d => d.addLines? rest
termination_by cs.length
decreasing_by
  rcases length_of_readLine? _hl with h | h
  · exact h
  · exact absurd h _h

/-- The values of a document by name. A byte order mark at its start is no part of it. -/
def parse? (s : String) : Option Entries := do
  let cs :=
    match s.toList with
    | '\uFEFF' :: rest => rest
    | cs => cs
  let d ← Draft.addLines? {} cs
  return d.entries

end StreamAuth.Toml
