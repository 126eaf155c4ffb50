import CredentialGate.Url.Host

/-! Addresses on the web and their text. The parts are kept encoded, as they stand in the text. -/
namespace CredentialGate

namespace Url

structure User where
  name : String
  password? : Option String
deriving DecidableEq, Repr

/-- The part behind two slashes. The port is absent where the scheme implies it. -/
structure Authority where
  user? : Option User
  host : String
  port? : Option Nat
deriving DecidableEq, Repr

/-- A path is a text that is not looked into, or segments with a slash before each. -/
inductive Route
  | opaqueText (text : String)
  | segments (parts : List String)
deriving DecidableEq, Repr

inductive SchemeKind
  | file
  | special
  | other
deriving DecidableEq, Repr

def SchemeKind.isSpecial : SchemeKind → Bool
  | other => false
  | _ => true

def schemeKind (scheme : String) : SchemeKind :=
  if scheme = "file" then .file
  else if scheme = "http" ∨ scheme = "https" ∨ scheme = "ws" ∨ scheme = "wss" ∨ scheme = "ftp" then
    .special
  else .other

def impliedPort? (scheme : String) : Option Nat :=
  if scheme = "http" ∨ scheme = "ws" then some 80
  else if scheme = "https" ∨ scheme = "wss" then some 443
  else if scheme = "ftp" then some 21
  else none

end Url

structure Url where
  scheme : String
  authority? : Option Url.Authority
  route : Url.Route
  query? : Option String
  fragment? : Option String
deriving DecidableEq, Repr

namespace Url

def User.text (u : User) : String :=
  match u.password? with
  | some password => u.name ++ ":" ++ password ++ "@"
  | none => u.name ++ "@"

def Authority.text (a : Authority) : String :=
  let user := (a.user?.map User.text).getD ""
  let port := match a.port? with
    | some port => ":" ++ toString port
    | none => ""
  user ++ a.host ++ port

def Route.text : Route → String
  | opaqueText text => text
  | segments parts => String.join (parts.map ("/" ++ ·))

/-- What stands between the host and the query. A path that starts with two slashes would be taken
for a host where there is none. -/
def pathText (u : Url) : String :=
  match u.authority?, u.route with
  | none, .segments ("" :: _ :: _) => "/." ++ u.route.text
  | _, route => route.text

def target (u : Url) : String :=
  u.pathText ++ match u.query? with
    | some query => "?" ++ query
    | none => ""

def text (u : Url) : String :=
  let authority := match u.authority? with
    | some a => "//" ++ a.text
    | none => ""
  let fragment := match u.fragment? with
    | some fragment => "#" ++ fragment
    | none => ""
  u.scheme ++ ":" ++ authority ++ u.target ++ fragment

def isWeb (u : Url) : Bool := u.scheme == "http" || u.scheme == "https"

def host? (u : Url) : Option String := (u.authority?.map (·.host)).filter (!·.isEmpty)

/-- The port that is used, whether it is written or implied. -/
def port? (u : Url) : Option Nat := (u.authority?.bind (·.port?)).or (impliedPort? u.scheme)

end Url

end CredentialGate
