import StreamAuth.Text.Numeral

/-!
# Faults of a document

Why a text is not the document it should be, one cause for each way of going wrong. Places are counted in bytes: from the
start of a text or value for a reference, from the start of a tag for an attribute.
-/

namespace StreamAuth.Xml

/-- Markup that is not closed before the input ends, or is of no known kind. -/
inductive MarkupFault where
  /-- No `>` ends a tag. -/
  | tag
  /-- `<!` is followed by nothing that is known. -/
  | unknown
  /-- No `]]>` ends a character data section. -/
  | characterData
  /-- No `-->` ends a comment. -/
  | comment
  /-- No `>` ends a document type declaration. -/
  | documentType
  /-- No `?>` ends a processing instruction or declaration. -/
  | instruction
  deriving DecidableEq, Repr

/-- A fault of markup in words. -/
def MarkupFault.message : MarkupFault → String
  | .tag => "tag not closed: `>` not found before end of input"
  | .unknown => "unknown or missed symbol in markup"
  | .characterData => "CDATA not closed: `]]>` not found before end of input"
  | .comment => "comment not closed: `-->` not found before end of input"
  | .documentType => "DOCTYPE not closed: `>` not found before end of input"
  | .instruction => "processing instruction or xml declaration not closed: `?>` not found before end of input"

/-- Why a character reference names no character. -/
inductive CharacterFault where
  /-- A sign stands in front of the number. -/
  | sign
  /-- The number cannot be read. -/
  | numeral (fault : Text.NumeralFault)
  /-- The number is zero. -/
  | zero
  /-- The number is that of no character. -/
  | noCharacter (code : Nat)
  deriving DecidableEq, Repr

/-- A fault of a character reference in words. -/
def CharacterFault.message : CharacterFault → String
  | .sign => "unexpected number sign"
  | .numeral .empty => "cannot parse integer from empty string"
  | .numeral .invalidDigit => "invalid digit found in string"
  | .numeral .tooLarge => "number too large to fit in target type"
  | .zero => "0x0 character is not permitted in XML"
  | .noCharacter code => s!"`{code}` is not a valid codepoint"

/-- Why the references of a text or an attribute value cannot be resolved. -/
inductive ReferenceFault where
  /-- The reference that begins at `start` has no end; the text is `size` bytes long. -/
  | unterminated (start size : Nat)
  /-- No entity has this name, which stands between the two places. -/
  | unknownEntity (start stop : Nat) (name : List Char)
  /-- A character reference names no character. -/
  | character (fault : CharacterFault)
  deriving DecidableEq, Repr

/-- A fault of a reference in words. -/
def ReferenceFault.message : ReferenceFault → String
  | .unterminated start size =>
    s!"Error while escaping character at range {start}..{size}: Cannot find ';' after '&'"
  | .unknownEntity start stop name => s!"at {start}..{stop}: unrecognized entity `" ++ String.ofList name ++ "`"
  | .character fault => "invalid character reference: " ++ fault.message

/-- Why the attributes of a tag cannot be read. Each place is the offset in the tag at which the fault shows. -/
inductive AttributeFault where
  /-- A key is followed by something other than `=`. -/
  | missingEquals (place : Nat)
  /-- The key has been given before, at `first`. -/
  | duplicate (place first : Nat)
  /-- Nothing follows the `=`. -/
  | missingValue (place : Nat)
  /-- The value is not in quotes. -/
  | unquoted (place : Nat)
  /-- The opening quote has no closing one. -/
  | unclosedQuote (place : Nat) (quote : Char)
  deriving DecidableEq, Repr

/-- A fault of an attribute in words. -/
def AttributeFault.message : AttributeFault → String
  | .missingEquals place => s!"position {place}: attribute key must be directly followed by `=` or space"
  | .duplicate place first =>
    s!"position {place}: duplicated attribute, previous declaration at position {first}"
  | .missingValue place => s!"position {place}: `=` must be followed by an attribute value"
  | .unquoted place => s!"position {place}: attribute value must be enclosed in `\"` or `'`"
  | .unclosedQuote place quote =>
    s!"position {place}: missing closing quote `" ++ String.singleton quote ++ "` in attribute value"

/-- Why a text is not a document. -/
inductive Error where
  /-- Markup is not closed or not known. -/
  | markup (fault : MarkupFault)
  /-- An end tag names another element than the innermost open one. -/
  | mismatchedEndTag (expected found : List Char)
  /-- An end tag stands where no element is open. -/
  | unmatchedEndTag (name : List Char)
  /-- A document type declaration names no type. -/
  | unnamedDocumentType
  /-- The attributes of a tag cannot be read. -/
  | attribute (fault : AttributeFault)
  /-- A reference cannot be resolved. -/
  | reference (fault : ReferenceFault)
  /-- There is no element. -/
  | noRootElement
  /-- The input ends inside an element. -/
  | unexpectedEnd
  /-- An end tag reached the tree with no element open. -/
  | strayEndTag
  deriving DecidableEq, Repr

/-- A fault of a document in words. -/
def Error.message : Error → String
  | .markup fault => "syntax error: " ++ fault.message
  | .mismatchedEndTag expected found =>
    "ill-formed document: expected `</" ++ String.ofList expected ++ ">`, but `</" ++ String.ofList found ++ ">` was found"
  | .unmatchedEndTag name =>
    "ill-formed document: close tag `</" ++ String.ofList name ++ ">` does not match any open tag"
  | .unnamedDocumentType =>
    "ill-formed document: `<!DOCTYPE>` declaration does not contain a name of a document type"
  | .attribute fault => "attribute: " ++ fault.message
  | .reference fault => fault.message
  | .noRootElement => "no root element"
  | .unexpectedEnd => "unexpected end of document"
  | .strayEndTag => "closing tag without opening tag"

end StreamAuth.Xml
