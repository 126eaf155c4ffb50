import CredentialGate.Http.Message
import CredentialGate.Text.Blank
import CredentialGate.Webhook

/-! Messages as bytes of a connection that carries one request and one response. A head of lines
comes first; a field of it tells where the body ends, and otherwise the connection does. -/
namespace CredentialGate.Http

open Json (Bytes)

def lineBreak : Bytes := [0x0D, 0x0A]

/-- A message that has arrived. Names of fields are in lower case. -/
structure Message where
  start : String
  fields : List (String × String)
  body : Bytes
  isComplete : Bool
deriving DecidableEq, Repr

namespace Message

/-- What stands before an empty line and what stands behind it. -/
def splitHead (head : Bytes) : Bytes → Option (Bytes × Bytes)
  | 0x0D :: 0x0A :: 0x0D :: 0x0A :: rest => some (head.reverse, rest)
  | b :: rest => splitHead (b :: head) rest
  | [] => none

def splitLine (line : Bytes) : Bytes → Option (Bytes × Bytes)
  | 0x0D :: 0x0A :: rest => some (line.reverse, rest)
  | b :: rest => splitLine (b :: line) rest
  | [] => none

theorem splitLine_shrinks {line input value rest : Bytes}
    (h : splitLine line input = some (value, rest)) : rest.length < input.length := by
  fun_induction splitLine line input with
  | case1 => cases h; simp only [List.length_cons]; omega
  | case2 _ _ _ _ ih => have := ih h; simp only [List.length_cons]; omega
  | case3 => cases h

def fieldOf (line : String) : String × String :=
  let name := line.toList.takeWhile (· ≠ ':')
  (String.ofList (name.map Char.toLower),
    Text.trim (String.ofList (line.toList.drop (name.length + 1))))

/-- The size in front of a chunk; what follows a semicolon does not count. -/
def chunkSize? (line : Bytes) : Option Nat :=
  let digits := (line.map fun b => Char.ofNat b.toNat).takeWhile fun c => c ≠ ';' ∧ c ≠ ' '
  if digits.isEmpty then none else Text.hexNumber? digits

/-- The body in chunks, and whether the last chunk, which is empty, has come. -/
def chunks (input : Bytes) : Bytes × Bool :=
  match _h : splitLine [] input with
  | none => ([], false)
  | some (line, rest) =>
    match chunkSize? line with
    | none => ([], false)
    | some 0 => ([], true)
    | some size =>
      let (more, isComplete) := chunks (rest.drop (size + 2))
      (rest.take size ++ more, isComplete)
termination_by input.length
decreasing_by
  have := splitLine_shrinks _h
  simp only [List.length_drop]
  omega

/-- The body behind a head. Without a field that tells its end it is whatever has come. -/
def bodyOf (fields : List (String × String)) (rest : Bytes) : Bytes × Bool :=
  if ((fields.lookup "transfer-encoding").getD "").toList.map Char.toLower = "chunked".toList then
    chunks rest
  else
    match (fields.lookup "content-length").bind String.toNat? with
    | some n => (rest.take n, n ≤ rest.length)
    | none => (rest, true)

/-- The message that bytes start with; none while its head is under way. -/
def read? (input : Bytes) : Option Message := do
  let (head, rest) ← splitHead [] input
  let lines := Text.lines (Text.ofUtf8Lossy (head ++ lineBreak))
  let fields := (lines.drop 1).map fieldOf
  let (body, isComplete) := bodyOf fields rest
  return ⟨lines.headD "", fields, body, isComplete⟩

def write (start : String) (fields : List (String × String)) (body : Bytes) : Bytes :=
  let lines := start :: fields.map fun (name, value) => name ++ ": " ++ value
  lines.flatMap (fun line => Text.utf8 line ++ lineBreak) ++ lineBreak ++ body

def words (m : Message) : List String := m.start.splitOn " "

end Message

/-- The host of a request, with its port unless the scheme implies it. -/
def Request.hostField (r : Request) : String :=
  match r.url.authority? with
  | some a => { a with user? := none }.text
  | none => ""

def Request.write (r : Request) : Bytes :=
  let length := if r.method = .post then [("content-length", toString r.body.length)] else []
  Message.write (r.method.name ++ " " ++ r.url.target ++ " HTTP/1.1")
    (("host", r.hostField) :: r.headers ++ length ++ [("connection", "close")]) r.body

/-- The response that has come before a connection ended. -/
def Response.read? (input : Bytes) : Option Response := do
  let m ← Message.read? input
  match m.words with
  | _ :: status :: _ =>
    return ⟨← status.toNat?, m.fields.lookup "location", m.body, m.isComplete⟩
  | _ => none

end CredentialGate.Http

namespace CredentialGate.Webhook

/-- The request that bytes hold; none while it is under way. A request has no body unless a field
tells its end. -/
def Request.read? (input : Json.Bytes) : Option Request := do
  let m ← Http.Message.read? input
  let hasBody :=
    (m.fields.lookup "content-length").isSome || (m.fields.lookup "transfer-encoding").isSome
  match m.words with
  | method :: target :: _ =>
    if m.isComplete then return ⟨method, target, if hasBody then m.body else []⟩ else none
  | _ => none

def Reply.write (r : Reply) : Json.Bytes :=
  let kind := (r.contentType?.map fun kind => ("content-type", kind)).toList
  let allow := (r.allow?.map fun methods => ("allow", methods)).toList
  Http.Message.write ("HTTP/1.1 " ++ toString r.status ++ " " ++ phraseOf r.status)
    (kind ++ allow ++ [("content-length", toString r.body.length), ("connection", "close")]) r.body

end CredentialGate.Webhook
