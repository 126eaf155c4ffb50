/-! Why a JSON text is refused, and where. Three categories tell a text that ends too early from
one that is not JSON and from JSON of the wrong shape. -/
namespace CredentialGate.Json

/-- A place in a text: lines from one, and the bytes of the line up to the place. -/
structure Position where
  line : Nat
  column : Nat
deriving DecidableEq, Repr

/-- How a well-formed text differs from the record that is asked for. -/
inductive Mismatch
  | wrongType
  | missingField
  | repeatedField
  | unknownVariant
  | wrongText
deriving DecidableEq, Repr

inductive Cause
  | endInValue
  | endInList
  | endInObject
  | endInString
  | expectedValue
  | expectedWord
  | expectedColon
  | expectedListEnd
  | expectedObjectEnd
  | trailingComma
  | trailingCharacters
  | keyNotString
  | invalidNumber
  | numberOutOfRange
  | invalidEscape
  | invalidCharacter
  | loneSurrogate
  | unfinishedSurrogate
  | controlCharacter
  | tooDeep
  | mismatch (kind : Mismatch)
  /-- A text inside the text, which stands for a value of its own, is refused there. -/
  | embedded (inner : Cause) (place : Position)
deriving DecidableEq, Repr

def Mismatch.message : Mismatch → String
  | wrongType => "invalid type"
  | missingField => "missing field"
  | repeatedField => "duplicate field"
  | unknownVariant => "unknown variant"
  | wrongText => "invalid value"

def Cause.message : Cause → String
  | endInValue => "EOF while parsing a value"
  | endInList => "EOF while parsing a list"
  | endInObject => "EOF while parsing an object"
  | endInString => "EOF while parsing a string"
  | expectedValue => "expected value"
  | expectedWord => "expected ident"
  | expectedColon => "expected `:`"
  | expectedListEnd => "expected `,` or `]`"
  | expectedObjectEnd => "expected `,` or `\x7d`"
  | trailingComma => "trailing comma"
  | trailingCharacters => "trailing characters"
  | keyNotString => "key must be a string"
  | invalidNumber => "invalid number"
  | numberOutOfRange => "number out of range"
  | invalidEscape => "invalid escape"
  | invalidCharacter => "invalid unicode code point"
  | loneSurrogate => "lone leading surrogate in hex escape"
  | unfinishedSurrogate => "unexpected end of hex escape"
  | controlCharacter => "control character (\\u0000-\\u001F) found while parsing a string"
  | tooDeep => "recursion limit exceeded"
  | mismatch kind => kind.message
  | embedded inner _ => inner.message

/-- A refusal at the place behind which `left` bytes of the text stand. -/
structure Failure where
  cause : Cause
  left : Nat
deriving DecidableEq, Repr

def lineFeed : UInt8 := 0x0A

def Position.behind (before : List UInt8) : Position where
  line := 1 + before.count lineFeed
  column := (before.reverse.takeWhile (· != lineFeed)).length

/-- The place of a failure in its text; one inside an embedded text is the place there. -/
def Failure.position (text : List UInt8) (failure : Failure) : Position :=
  match failure.cause with
  | .embedded _ place => place
  | _ => .behind (text.take (text.length - failure.left))

def Failure.message (text : List UInt8) (failure : Failure) : String :=
  let place := failure.position text
  s!"{failure.cause.message} at line {place.line} column {place.column}"

end CredentialGate.Json
