import CredentialGate.Text.Blank

/-! Filters of log output, as far as it matters whether a text is one. A filter is a list of
directives with commas between them: a level, or a target with a span in brackets, fields of it in
braces, and a level behind an equals sign. -/
namespace CredentialGate.CommandLine.LogFilter

def isNumber (s : List Char) : Bool :=
  let digits := match s with
    | '+' :: digits => digits
    | digits => digits
  !digits.isEmpty && digits.all Char.isDigit

/-- A level is a word, in any case, or a number up to five. An empty one stands for a level too. -/
def isLevel (s : List Char) : Bool :=
  if isNumber s then
    (s.filter Char.isDigit).foldl (fun n c => n * 10 + (c.toNat - '0'.toNat)) 0 ≤ 5
  else
    String.ofList (s.map Char.toLower) ∈ ["", "error", "warn", "info", "debug", "trace", "off"]

/-- The first character of a target. Characters beyond ASCII count as letters. -/
def startsTarget (c : Char) : Bool :=
  c.isAlphanum || c == '-' || c == ':' || c == '_' || 0x80 ≤ c.toNat

/-- What may stand behind a span: nothing, or an equals sign and a level. -/
def isSpanEnd : List Char → Bool
  | [] => true
  | '=' :: level => isLevel level
  | _ => false

/-- A span behind its opening bracket. Fields in braces are not empty, and nothing follows them
in the brackets. -/
def isSpan (s : List Char) : Bool :=
  match s.dropWhile fun c => c ≠ ']' ∧ c ≠ '\x7B' with
  | ']' :: rest => isSpanEnd rest
  | '\x7B' :: rest =>
    match rest.dropWhile (· ≠ '\x7D') with
    | '\x7D' :: ']' :: behind => rest.head? ≠ some '\x7D' && isSpanEnd behind
    | _ => false
  | _ => false

def isDirective (s : List Char) : Bool :=
  match Text.trimEnd (Text.trimStart s) with
  | [] => false
  | '[' :: span => isSpan span
  | first :: rest =>
    startsTarget first &&
      match rest.dropWhile fun c => c ≠ '=' ∧ c ≠ '[' with
      | '=' :: level => isLevel level
      | '[' :: span => isSpan span
      | _ => true

/-- Empty directives are passed over. -/
def accepts (s : String) : Bool :=
  ((s.splitOn ",").filter (· ≠ "")).all fun directive => isDirective directive.toList

end CredentialGate.CommandLine.LogFilter
