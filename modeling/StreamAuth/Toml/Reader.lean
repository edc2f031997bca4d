import StreamAuth.Toml.Key
import StreamAuth.Toml.Scalar

/-!
# Reading TOML values

Texts and words stand for themselves; arrays and inline tables hold further values. Arrays may run over several lines, with
comments in between, and inline tables may not. Values nest to a limited depth, so a reader is built from the reader for what
lies one level deeper, and each takes at least one character of the text.
-/

namespace StreamAuth.Toml

/-- A reader of values. -/
structure ValueReader where
  /-- The value at the front of a text, and what stands after it. -/
  read? : List Char → Option (Value × List Char)
  /-- A value takes at least one character. -/
  length_of_read? : ∀ {cs after : List Char} {v : Value}, read? cs = some (v, after) → after.length < cs.length

/-- The rest of an array, with a reader for its items. -/
def readItems? (item : ValueReader) (cs : List Char) : Option (List Value × List Char) :=
  match _hs : skipLines cs with
  | [] => none
  | c :: rest =>
    if c = ']' then some ([], rest)
    else
      match _hi : item.read? (c :: rest) with
      | none => none
      | some (v, afterItem) =>
        match _ha : skipLines afterItem with
        | ']' :: after => some ([v], after)
        | ',' :: more => (readItems? item more).map fun (vs, after) => (v :: vs, after)
        | _ => none
termination_by cs.length
decreasing_by
  have hs := length_of_skipLines cs
  have hi := item.length_of_read? _hi
  have ha := length_of_skipLines afterItem
  rw [_hs] at hs
  rw [_ha, List.length_cons] at ha
  omega

theorem length_of_readItems? {item : ValueReader} {cs after : List Char} {vs : List Value}
    (h : readItems? item cs = some (vs, after)) : after.length < cs.length := by
  fun_induction readItems? item cs generalizing vs after with
  | case1 | case3 | case6 => cases h
  | case2 cs rest hs =>
    have := length_of_skipLines cs
    rw [hs, List.length_cons] at this
    cases h
    omega
  | case4 cs c rest hs hc v afterItem hi after' ha =>
    have hs' := length_of_skipLines cs
    have hi' := item.length_of_read? hi
    have ha' := length_of_skipLines afterItem
    rw [hs] at hs'
    rw [ha, List.length_cons] at ha'
    cases h
    omega
  | case5 cs c rest hs hc v afterItem hi more ha ih =>
    obtain ⟨⟨vs', after'⟩, hm, he⟩ := Option.map_eq_some_iff.mp h
    have hs' := length_of_skipLines cs
    have hi' := item.length_of_read? hi
    have ha' := length_of_skipLines afterItem
    have := ih hm
    rw [hs] at hs'
    rw [ha, List.length_cons] at ha'
    cases he
    omega

/-- A pair of a key and a value, and what stands after it. -/
def readPair? (item : ValueReader) (cs : List Char) : Option ((List String × String × Value) × List Char) := do
  let (path, key, rest) ← readKey? cs
  match rest with
  | '=' :: rest =>
    let (v, after) ← item.read? (skipBlanks rest)
    return ((path, key, v), after)
  | _ => none

theorem length_of_readPair? {item : ValueReader} {cs after : List Char} {pair : List String × String × Value}
    (h : readPair? item cs = some (pair, after)) : after.length < cs.length := by
  obtain ⟨⟨path, key, rest⟩, hk, h⟩ := Option.bind_eq_some_iff.mp h
  have hl := length_of_readKeyParts? hk
  simp only at h
  split at h
  · next rest =>
    obtain ⟨⟨v, after⟩, hi, he⟩ := Option.bind_eq_some_iff.mp h
    cases he
    have := item.length_of_read? hi
    have := length_of_skipBlanks rest
    rw [List.length_cons] at hl
    show after.length < cs.length
    omega
  · cases h

/-- The pairs of an inline table up to its end, with a reader for its values. -/
def readPairs? (item : ValueReader) (cs : List Char) : Option (List (List String × String × Value) × List Char) :=
  match _hp : readPair? item cs with
  | none => none
  | some (pair, rest) =>
    match _hr : skipBlanks rest with
    | '}' :: after => some ([pair], after)
    | ',' :: more => (readPairs? item more).map fun (pairs, after) => (pair :: pairs, after)
    | _ => none
termination_by cs.length
decreasing_by
  have hp := length_of_readPair? _hp
  have hr := length_of_skipBlanks rest
  rw [_hr, List.length_cons] at hr
  omega

theorem length_of_readPairs? {item : ValueReader} {cs after : List Char} {pairs : List (List String × String × Value)}
    (h : readPairs? item cs = some (pairs, after)) : after.length < cs.length := by
  fun_induction readPairs? item cs generalizing pairs after with
  | case1 | case4 => cases h
  | case2 cs pair rest hp after' hr =>
    have hp' := length_of_readPair? hp
    have hr' := length_of_skipBlanks rest
    rw [hr, List.length_cons] at hr'
    cases h
    omega
  | case3 cs pair rest hp more hr ih =>
    obtain ⟨⟨pairs', after'⟩, hm, he⟩ := Option.map_eq_some_iff.mp h
    have hp' := length_of_readPair? hp
    have hr' := length_of_skipBlanks rest
    have := ih hm
    rw [hr, List.length_cons] at hr'
    cases he
    omega

/-- The table of a row of pairs. -/
def inlineTable? (pairs : List (List String × String × Value)) : Option Value := do
  let entries ← pairs.foldlM (fun entries (path, key, v) => addPair path key v .header entries) (∅ : Entries)
  return .table .inline entries

/-- A text or a word, and what stands after it. -/
def readScalar? (cs : List Char) : Option (Value × List Char) :=
  match cs with
  | '"' :: _ | '\'' :: _ => (readText? cs).map fun (s, after) => (.text (String.ofList s), after)
  | _ => readWord? cs

theorem length_of_readScalar? {cs after : List Char} {v : Value} (h : readScalar? cs = some (v, after)) :
    after.length < cs.length := by
  unfold readScalar? at h
  split at h
  · obtain ⟨p, hp, he⟩ := Option.map_eq_some_iff.mp h
    cases he
    exact length_of_readText? hp
  · obtain ⟨p, hp, he⟩ := Option.map_eq_some_iff.mp h
    cases he
    exact length_of_readText? hp
  · exact length_of_readWord? h

/-- A value whose items, if it has any, another reader reads, and what stands after it. -/
def readNested? (item : ValueReader) (cs : List Char) : Option (Value × List Char) :=
  match cs with
  | '[' :: rest => (readItems? item rest).map fun (vs, after) => (.array vs, after)
  | '\x7b' :: rest =>
    match skipBlanks rest with
    | '\x7d' :: after => some (.table .inline ∅, after)
    | body => do
      let (pairs, after) ← readPairs? item body
      return (← inlineTable? pairs, after)
  | _ => readScalar? cs

theorem length_of_readNested? {item : ValueReader} {cs after : List Char} {v : Value}
    (h : readNested? item cs = some (v, after)) : after.length < cs.length := by
  unfold readNested? at h
  split at h
  · obtain ⟨p, hp, he⟩ := Option.map_eq_some_iff.mp h
    have := length_of_readItems? hp
    cases he
    rw [List.length_cons]
    omega
  · next rest =>
    have hb := length_of_skipBlanks rest
    split at h
    · next hr =>
      rw [hr, List.length_cons] at hb
      cases h
      rw [List.length_cons]
      omega
    · obtain ⟨⟨pairs, after⟩, hp, h⟩ := Option.bind_eq_some_iff.mp h
      obtain ⟨table, _, he⟩ := Option.bind_eq_some_iff.mp h
      have := length_of_readPairs? hp
      cases he
      rw [List.length_cons]
      omega
  · exact length_of_readScalar? h

/-- The reader of values in which arrays and inline tables nest to at most `depth`. -/
def valueReader : (depth : Nat) → ValueReader
  | 0 => ⟨readScalar?, length_of_readScalar?⟩
  | depth + 1 => ⟨readNested? (valueReader depth), length_of_readNested?⟩

end StreamAuth.Toml
