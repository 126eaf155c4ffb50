import CredentialGate.Url.Segments

/-! Reading addresses. Blanks around the text and line ends and tabs in it are passed over. The
scheme decides how the rest is read; a text without scheme is read against a base. -/
namespace CredentialGate.Url

def isOuterBlank (c : Char) : Bool := c.toNat ≤ 0x20

def cleaned (s : String) : List Char :=
  let inner := ((s.toList.dropWhile isOuterBlank).reverse.dropWhile isOuterBlank).reverse
  inner.filter (!isPassed ·)

def isSchemeChar (c : Char) : Bool :=
  c.isAlphanum || c == '+' || c == '-' || c == '.'

def takeScheme? (cs : List Char) : Option (String × List Char) :=
  match cs with
  | first :: _ =>
    if first.isAlpha then
      match cs.dropWhile isSchemeChar with
      | ':' :: rest => some (String.ofList ((cs.takeWhile isSchemeChar).map Char.toLower), rest)
      | _ => none
    else none
  | [] => none

/-- What ends the part with user, host and port. -/
def endsAuthority (kind : SchemeKind) (c : Char) : Bool :=
  c == '?' || c == '#' || isSlash kind c

def userOf (cs : List Char) : Option User :=
  let name := cs.takeWhile (· ≠ ':')
  let password := (cs.drop name.length).drop 1
  if name.isEmpty ∧ password.isEmpty then none
  else some ⟨encode userSet name, if password.isEmpty then none else some (encode userSet password)⟩

/-- The user and the rest behind the last `@` of an authority. -/
def takeUser (authority : List Char) : Option (List Char) × List Char :=
  if authority.contains '@' then
    let host := (authority.reverse.takeWhile (· ≠ '@')).reverse
    (some (authority.take (authority.length - host.length - 1)), host)
  else (none, authority)

/-- The host text, up to a colon outside brackets, and the rest. -/
def takeHost (inside : Bool) : List Char → List Char × List Char
  | [] => ([], [])
  | c :: rest =>
    if c = ':' ∧ !inside then ([], c :: rest)
    else
      let inside := if c = '[' then true else if c = ']' then false else inside
      let (host, rest) := takeHost inside rest
      (c :: host, rest)

/-- The port behind a colon; none when it is missing or implied. -/
def readPort (scheme : String) : List Char → Except Failure (Option Nat)
  | ':' :: digits =>
    if digits.all Char.isDigit then
      let port := digits.foldl (fun n c => n * 10 + (c.toNat - '0'.toNat)) 0
      if 65535 < port then .error .badPort
      else .ok (if digits.isEmpty ∨ impliedPort? scheme = some port then none else some port)
    else .error .badPort
  | _ => .ok none

/-- The user, host and port behind two slashes, up to what ends them. -/
def readAuthority (scheme : String) (cs : List Char) : Except Failure Authority := do
  let kind := schemeKind scheme
  let (user, rest) := takeUser cs
  let (hostText, portText) := takeHost false rest
  if kind.isSpecial then
    if hostText.isEmpty then .error .emptyHost
    else
      let host ← Host.read hostText
      let port? ← readPort scheme portText
      return ⟨user.bind userOf, host, port?⟩
  else
    let host ← Host.readOpaque hostText
    if host.isEmpty ∧ (!portText.isEmpty ∨ user.isSome) then .error .emptyHost
    else
      let port? ← readPort scheme portText
      return ⟨user.bind userOf, host, port?⟩

def readEnd (kind : SchemeKind) (cs : List Char) : Option String × Option String :=
  let fragment? (cs : List Char) : Option String :=
    match cs with
    | '#' :: rest => some (encode fragmentSet rest)
    | _ => none
  match cs with
  | '?' :: rest =>
    let query := rest.takeWhile (· ≠ '#')
    let set := if kind.isSpecial then specialQuerySet else querySet
    (some (encode set query), fragment? (rest.drop query.length))
  | cs => (none, fragment? cs)

/-- The address whose path is read behind the segments that are given. -/
def finish (scheme : String) (authority? : Option Authority) (done : List String)
    (cs : List Char) : Url :=
  let kind := schemeKind scheme
  let (parts, rest) := readSegments kind done [] cs
  let (query?, fragment?) := readEnd kind rest
  ⟨scheme, authority?, .segments (settle kind parts), query?, fragment?⟩

/-- The path behind a host. A special scheme always has one. -/
def finishBehindHost (scheme : String) (authority : Authority) (cs : List Char) : Url :=
  let kind := schemeKind scheme
  match cs with
  | c :: rest =>
    if isSlash kind c then finish scheme (some authority) [] rest
    else if kind.isSpecial then finish scheme (some authority) [] cs
    else
      let (query?, fragment?) := readEnd kind cs
      ⟨scheme, some authority, .segments [], query?, fragment?⟩
  | [] => ⟨scheme, some authority, .segments (if kind.isSpecial then [""] else []), none, none⟩

def readBehindSlashes (scheme : String) (cs : List Char) : Except Failure Url := do
  let kind := schemeKind scheme
  let authority ← readAuthority scheme (cs.takeWhile (!endsAuthority kind ·))
  return finishBehindHost scheme authority (cs.dropWhile (!endsAuthority kind ·))

/-- The path of a file. One that starts with a drive has no host. -/
def finishFile (host : String) (cs : List Char) : Url :=
  let behind := match cs with
    | c :: rest => if isSlash .file c then rest else cs
    | [] => []
  let (parts, rest) := readSegments .file [] [] behind
  let (query?, fragment?) := readEnd .file rest
  let host := if (parts.head?.map (isDrive ·.toList)).getD false then "" else host
  ⟨"file", some ⟨none, host, none⟩, .segments (settle .file parts), query?, fragment?⟩

/-- A file may name its host; the local one is left out, and a drive is none. -/
def readFile (cs : List Char) : Except Failure Url := do
  match cs with
  | a :: b :: rest =>
    if isSlash .file a ∧ isSlash .file b then
      let hostText := rest.takeWhile (!endsAuthority .file ·)
      if hostText.isEmpty ∨ isDrive hostText then return finishFile "" rest
      else
        let host ← Host.read hostText
        return finishFile (if host = "localhost" then "" else host) (rest.drop hostText.length)
    else return finishFile "" cs
  | _ => return finishFile "" cs

def readBehindScheme (scheme : String) (cs : List Char) : Except Failure Url :=
  match schemeKind scheme with
  | .file => readFile cs
  | .special => readBehindSlashes scheme (cs.dropWhile (isSlash .special ·))
  | .other =>
    match cs with
    | '/' :: '/' :: rest => readBehindSlashes scheme rest
    | '/' :: rest => .ok (finish scheme none [] rest)
    | cs =>
      let path := cs.takeWhile fun c => c ≠ '?' ∧ c ≠ '#'
      let (query?, fragment?) := readEnd .other (cs.drop path.length)
      .ok ⟨scheme, none, .opaqueText (encode controlSet path), query?, fragment?⟩

def read (s : String) : Except Failure Url :=
  match takeScheme? (cleaned s) with
  | some (scheme, rest) => readBehindScheme scheme rest
  | none => .error .relativeWithoutBase

/-- What is left of a base that a relative text replaces part of. -/
def readRelative (base : Url) (cs : List Char) : Except Failure Url :=
  let kind := schemeKind base.scheme
  match base.route with
  | .opaqueText _ =>
    match cs with
    | '#' :: rest => .ok { base with fragment? := some (encode fragmentSet rest) }
    | _ => .error .relativeToOpaque
  | .segments parts =>
    match cs with
    | [] => .ok { base with fragment? := none }
    | c :: rest =>
      if c = '#' then .ok { base with fragment? := some (encode fragmentSet rest) }
      else if c = '?' then
        let (query?, fragment?) := readEnd kind cs
        .ok { base with query? := query?, fragment? := fragment? }
      else if isSlash kind c then
        let inner := cs.dropWhile (isSlash kind ·)
        if 2 ≤ cs.length - inner.length then
          readBehindSlashes base.scheme (if kind.isSpecial then inner else rest.drop 1)
        else .ok (finish base.scheme base.authority? [] rest)
      else .ok (finish base.scheme base.authority? parts.dropLast cs)

def join (base : Url) (s : String) : Except Failure Url :=
  let cs := cleaned s
  match takeScheme? cs with
  | some (scheme, rest) =>
    let slashes := (rest.takeWhile (isSlash .special ·)).length
    if schemeKind scheme = .special ∧ scheme = base.scheme ∧ slashes < 2 then readRelative base rest
    else readBehindScheme scheme rest
  | none => readRelative base cs

end CredentialGate.Url
