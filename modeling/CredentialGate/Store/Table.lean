/-! Stores of users and their tokens: a table, in which an e-mail has at most one row and a token at
most one holder, and a fixed map, in which a user may have many tokens. A user of the table who has
no token stays in it. -/
namespace CredentialGate.Store

/-- The user that a token belongs to. -/
structure User where
  name : String
  email : String
  authority : String
deriving DecidableEq, Repr

inductive Failure
  | database (text : String)
  | lockPoisoned
  | userNotFound (email : String)
  | other (text : String)
deriving DecidableEq, Repr

def Failure.message : Failure → String
  | database text => "Database error: " ++ text
  | lockPoisoned => "Database lock poisoned"
  | userNotFound email => "User " ++ email ++ " not found"
  | other text => text

/-- What a store answers to a look-up: a user, no user, or a failure of its own. -/
abbrev Lookup := String → Except Failure (Option User)

structure Row where
  user : User
  token? : Option String
deriving DecidableEq, Repr

/-- Rows whose e-mails are distinct, and whose tokens are, where there are any. -/
structure Table where
  rows : List Row
  emails : (rows.map (·.user.email)).Nodup
  tokens : (rows.filterMap (·.token?)).Nodup
deriving DecidableEq, Repr

namespace Table

def empty : Table := ⟨[], .nil, .nil⟩

def emailTaken : Failure := .database "UNIQUE constraint failed: users.email"
def tokenTaken : Failure := .database "UNIQUE constraint failed: users.api_token"

/-- The table of rows, unless they repeat what must be unique. -/
def ofRows (rows : List Row) : Except Failure Table :=
  if emails : (rows.map (·.user.email)).Nodup then
    if tokens : (rows.filterMap (·.token?)).Nodup then .ok ⟨rows, emails, tokens⟩
    else .error tokenTaken
  else .error emailTaken

def hasEmail (t : Table) (email : String) : Bool := t.rows.any (·.user.email == email)

/-- The rows after a change of those that have the e-mail. -/
def changed (t : Table) (email : String) (change : Row → Row) : List Row :=
  t.rows.map fun r => if r.user.email = email then change r else r

/-- The rows after a user with a token has been inserted. A conflict of the e-mail turns the insert
into a change of the row that is there. -/
def inserted (t : Table) (user : User) (token : String) : List Row :=
  if t.hasEmail user.email then
    t.changed user.email fun r =>
      ⟨{ r.user with name := user.name, authority := user.authority }, some token⟩
  else t.rows ++ [⟨user, some token⟩]

/-- Inserts a user with a token, or replaces the user of the same e-mail. -/
def upsert (t : Table) (user : User) (token : String) : Except Failure Table :=
  ofRows (t.inserted user token)

/-- Takes its token from a user, who may have none. -/
def revoke (t : Table) (email : String) : Except Failure Table :=
  if t.hasEmail email then ofRows (t.changed email fun r => { r with token? := none })
  else .error (.userNotFound email)

def find? (t : Table) (token : String) : Option User :=
  (t.rows.find? fun r => r.token? = some token).map (·.user)

def lookup (t : Table) : Lookup := fun token => .ok (t.find? token)

end Table

/-- A fixed map from tokens to users. Two tokens may belong to users of the same e-mail. -/
structure TokenMap where
  entries : List (String × User)

namespace TokenMap

def empty : TokenMap := ⟨[]⟩

/-- Gives a token to a user. A former user of the token loses it. -/
def withUser (m : TokenMap) (token : String) (user : User) : TokenMap :=
  ⟨(token, user) :: m.entries.filter (·.1 ≠ token)⟩

def find? (m : TokenMap) (token : String) : Option User := m.entries.lookup token

def lookup (m : TokenMap) : Lookup := fun token => .ok (m.find? token)

end TokenMap

end CredentialGate.Store
