import Std.Data.TreeMap.Raw

/-!
# TOML values

A document of TOML is a table of values. Its tables are told apart by how they came to be, since that decides what may still be
added to them: a table with a header of its own, a table that a header or a dotted key only passes through, a table in braces,
which is complete, and a row of tables under one name.
-/

namespace StreamAuth.Toml

/-- How a table came to be. -/
inductive TableKind where
  /-- By a header of its own, or as the document itself. -/
  | header
  /-- On the way to a table with a header. -/
  | implied
  /-- On the way to a value with a dotted key. -/
  | dotted
  /-- In braces. -/
  | inline
  deriving DecidableEq, Repr

/-- A value. Fractions and times are kept by their kind alone, as no setting is one. -/
inductive Value where
  /-- A text. -/
  | text (s : String)
  /-- A whole number. -/
  | integer (n : Int)
  /-- A fraction. -/
  | float
  /-- True or false. -/
  | boolean (b : Bool)
  /-- A date, a time, or both. -/
  | time
  /-- Values in a row. -/
  | array (items : List Value)
  /-- Values by name. -/
  | table (kind : TableKind) (entries : Std.TreeMap.Raw String Value)
  /-- A row of tables, latest first. The latest may still grow. -/
  | tables (latestFirst : List (Std.TreeMap.Raw String Value))
  deriving Inhabited

/-- Values by name. -/
abbrev Entries := Std.TreeMap.Raw String Value

/-! ## Growing a document -/

/-- Changes the table at the end of `path`, which starts from a table of `kind`. Tables that are missing on the way are made:
dotted ones if `dotted`, implied ones otherwise. A dotted key does not reach into a table that has a header of its own, and
nothing reaches into a complete value. -/
def descend (dotted : Bool) (change : TableKind → Entries → Option Entries) :
    (kind : TableKind) → Entries → (path : List String) → Option Entries
  | kind, entries, [] => change kind entries
  | _, entries, key :: path =>
    match entries[key]? with
    | none => do
      let kind := if dotted then .dotted else .implied
      let inner ← descend dotted change kind ∅ path
      return entries.insert key (.table kind inner)
    | some (.table kind inner) =>
      if kind = .inline ∨ dotted ∧ kind = .header then none
      else do
        let inner ← descend dotted change kind inner path
        return entries.insert key (.table kind inner)
    | some (.tables (latest :: earlier)) => do
      let inner ← descend dotted change .header latest path
      return entries.insert key (.tables (inner :: earlier))
    | some _ => none

/-- Adds a value under a key that is not taken. A table with a header takes plain keys only, a dotted one dotted keys only. -/
def addValue (viaPath : Bool) (key : String) (v : Value) (kind : TableKind) (entries : Entries) : Option Entries :=
  if (kind = .dotted) ↔ viaPath then
    if entries.contains key then none else some (entries.insert key v)
  else none

/-- Adds the value of a key, which may be dotted, to a table. -/
def addPair (path : List String) (key : String) (v : Value) (kind : TableKind) (entries : Entries) : Option Entries :=
  descend true (addValue (!path.isEmpty) key v) kind entries path

/-- Begins a table under a header. The name may be taken only by a table that was passed through on the way to another. -/
def beginTable (key : String) (entries : Entries) : Option Entries :=
  match entries[key]? with
  | none => some (entries.insert key (.table .header ∅))
  | some (.table .implied inner) => some (entries.insert key (.table .header inner))
  | some _ => none

/-- Begins a further table of a row. -/
def beginRow (key : String) (entries : Entries) : Option Entries :=
  match entries[key]? with
  | none => some (entries.insert key (.tables [∅]))
  | some (.tables rows) => some (entries.insert key (.tables (∅ :: rows)))
  | some _ => none

end StreamAuth.Toml
