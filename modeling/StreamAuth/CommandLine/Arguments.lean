/-!
# Arguments

How the words of a command line are told apart. An option has a long name after two dashes, and may have a letter after one;
letters can be written together. A value follows its option as a word of its own or after an equals sign, and a letter's value
may follow it directly. A word that begins with a dash is no value by itself, unless it is the dash alone. After a word of two
dashes all words are plain.
-/

namespace StreamAuth.CommandLine

/-- An option of a command. -/
structure OptionSpec where
  /-- The long name. -/
  name : String
  /-- The letter. -/
  letter? : Option Char := none
  /-- Whether it has a value. -/
  takesValue : Bool := true
  deriving DecidableEq, Repr

/-- What is wrong with the words of a command line. -/
inductive UsageFault where
  /-- There is no such option. -/
  | unknownOption (word : String)
  /-- An option lacks its value. -/
  | missingValue (name : String)
  /-- An option is given a value that it does not take. -/
  | unexpectedValue (name : String)
  /-- An option is given twice. -/
  | repeated (name : String)
  /-- There is one plain word too many. -/
  | unexpectedWord (word : String)
  /-- A plain word is missing. -/
  | missingWord (name : String)
  /-- The name of a file is empty. -/
  | emptyPath (name : String)
  /-- A value is no number in the range of its option. -/
  | invalidNumber (name value : String)
  /-- There is no such command. -/
  | unknownCommand (word : String)
  /-- No command is given. -/
  | noCommand
  deriving DecidableEq, Repr

/-- A fault in words. -/
def UsageFault.message : UsageFault → String
  | unknownOption word => "unexpected argument '" ++ word ++ "'"
  | missingValue name => "a value is required for '--" ++ name ++ "'"
  | unexpectedValue name => "'--" ++ name ++ "' takes no value"
  | repeated name => "'--" ++ name ++ "' cannot be given twice"
  | unexpectedWord word => "unexpected argument '" ++ word ++ "'"
  | missingWord name => "the argument <" ++ name ++ "> is required"
  | emptyPath name => "'" ++ name ++ "' must name a file"
  | invalidNumber name value => "invalid value '" ++ value ++ "' for '--" ++ name ++ "'"
  | unknownCommand word => "unrecognized command '" ++ word ++ "'"
  | noCommand => "a command is required"

/-- The words of a command, told apart. -/
structure Arguments where
  /-- The options given, with their values, in order. -/
  options : List (String × String) := []
  /-- The plain words, in order. -/
  words : List String := []
  deriving DecidableEq, Repr

namespace Arguments

/-- Whether an option is given. -/
def has (a : Arguments) (name : String) : Bool :=
  a.options.any (·.1 == name)

/-- The value of an option, if it is given. -/
def value? (a : Arguments) (name : String) : Option String :=
  a.options.lookup name

/-- A further option, which must not have been given before. -/
def addOption (a : Arguments) (name value : String) : Except UsageFault Arguments :=
  if a.has name then .error (.repeated name) else .ok { a with options := a.options ++ [(name, value)] }

/-- A plain word in front of the others. -/
def withWord (word : String) (a : Arguments) : Arguments :=
  { a with words := word :: a.words }

/-- Whether a word can be a value by itself. -/
def isValue (word : String) : Bool :=
  word == "-" || !word.startsWith "-"

/-- What a word of letters says: the arguments with its options, and the option at its end that still lacks its value. -/
def addLetters (specs : List OptionSpec) (word : String) (a : Arguments) :
    List Char → Except UsageFault (Arguments × Option String)
  | [] => .ok (a, none)
  | c :: rest =>
    match specs.find? (·.letter? == some c) with
    | none => .error (.unknownOption word)
    | some spec =>
      if spec.takesValue then
        match rest with
        | [] => .ok (a, some spec.name)
        | '=' :: value => (·, none) <$> a.addOption spec.name (String.ofList value)
        | value => (·, none) <$> a.addOption spec.name (String.ofList value)
      else
        match a.addOption spec.name "" with
        | .error fault => .error fault
        | .ok a => addLetters specs word a rest

/-- What a long option says: the arguments with it, or the option that still lacks its value. `body` is what stands after the
two dashes. -/
def addLong (specs : List OptionSpec) (word : String) (a : Arguments) (body : List Char) :
    Except UsageFault (Arguments × Option String) :=
  let name := String.ofList (body.takeWhile (· != '='))
  match specs.find? (·.name == name) with
  | none => .error (.unknownOption word)
  | some spec =>
    match body.dropWhile (· != '='), spec.takesValue with
    | [], true => .ok (a, some name)
    | [], false => (·, none) <$> a.addOption name ""
    | _ :: value, true => (·, none) <$> a.addOption name (String.ofList value)
    | _ :: _, false => .error (.unexpectedValue name)

/-- Goes on reading words after the options of `a`. `lacking?` is the option whose value must come next. -/
def readFrom (specs : List OptionSpec) : Arguments → (lacking? : Option String) → List String →
    Except UsageFault Arguments
  | a, none, [] => .ok a
  | _, some name, [] => .error (.missingValue name)
  | a, some name, word :: rest => do
    if isValue word then
      let a ← a.addOption name word
      readFrom specs a none rest
    else throw (.missingValue name)
  | a, none, word :: rest =>
    match word.toList with
    | ['-', '-'] => .ok { a with words := rest }
    | '-' :: '-' :: body => do
      let (a, lacking?) ← addLong specs word a body
      readFrom specs a lacking? rest
    | '-' :: c :: letters => do
      let (a, lacking?) ← addLetters specs word a (c :: letters)
      readFrom specs a lacking? rest
    | _ => withWord word <$> readFrom specs a none rest

/-- The words of a command with these options, of which at most `limit` may be plain. -/
def read (specs : List OptionSpec) (limit? : Option Nat) (words : List String) : Except UsageFault Arguments := do
  let a ← readFrom specs {} none words
  match limit? with
  | none => return a
  | some limit =>
    match a.words.drop limit with
    | [] => return a
    | extra :: _ => throw (.unexpectedWord extra)

end Arguments

end StreamAuth.CommandLine
