import CredentialGate.Text.Utf8
import CredentialGate.Toml.Quoted
import CredentialGate.Toml.Scalar
import CredentialGate.Toml.Table

/-! TOML documents. A document is a list of statements, one on a line: headers and assignments.
Its root table is what the statements build, one after the other. -/
namespace CredentialGate.Toml

open Reader

/-- How deep values nest, and how many parts a dotted key has at most. -/
def greatestDepth : Nat := 80

def isBareKeyChar (c : Char) : Bool := c.isAlphanum || c == '_' || c == '-'

/-- One part of a key: a bare word, or a text on one line. -/
def keyPart : Reader String := do
  match ← peek with
  | some '"' => shortText (← next)
  | some '\'' => shortText (← next)
  | _ =>
    let word ← takeWhile isBareKeyChar
    if word.isEmpty then fail else return String.ofList word

/-- A key of at most this many parts, and the blanks behind it. -/
def keyOf : Nat → Reader Key
  | 0 => fail
  | limit + 1 => do
    let part ← keyPart
    blanks
    if ← goesOn ['.'] then
      blanks
      let key ← keyOf limit
      return { key with path := part :: key.path }
    else return ⟨[], part⟩

def key : Reader Key := keyOf greatestDepth

/-- A key and what it is set to. -/
def assignment (value : Reader Value) : Reader (Key × Value) := do
  let key ← key
  if !(← goesOn ['=']) then fail
  blanks
  return (key, ← value)

/-- Items with commas between them, and perhaps one behind the last, up to the mark that closes
them. Items in `done` stand in reverse. -/
def itemsFrom (item : Reader α) (close : Char) (done : List α) (input : List Char) :
    Option (List α × List Char) :=
  match _hs : skipLines input with
  | [] => none
  | c :: rest =>
    if c = close then some (done.reverse, rest)
    else
      match _hi : item.run (c :: rest) with
      | none => none
      | some (a, rest) =>
        match _he : skipLines rest with
        | [] => none
        | c :: rest =>
          if c = ',' then itemsFrom item close (a :: done) rest
          else if c = close then some ((a :: done).reverse, rest)
          else none
termination_by input.length
decreasing_by
  rename_i before _ _ behind _
  have h₁ := length_skipLines input
  have h₂ := item.shrinks _hi
  have h₃ := length_skipLines behind
  rw [_hs] at h₁
  rw [_he] at h₃
  simp only [List.length_cons] at h₁ h₂ h₃
  omega

theorem itemsFrom_shrinks {item : Reader α} {close done input value rest}
    (h : itemsFrom item close done input = some (value, rest)) : rest.length ≤ input.length := by
  fun_induction itemsFrom item close done input with
  | case1 => cases h
  | case2 _ input more skipped =>
    cases h
    have := length_skipLines input
    rw [skipped] at this
    simp only [List.length_cons] at this
    omega
  | case3 => cases h
  | case4 => cases h
  | case5 _ input _ _ skipped _ _ behind taken _ gap ih =>
    have := ih h
    have h₁ := length_skipLines input
    have h₂ := item.shrinks taken
    have h₃ := length_skipLines behind
    rw [skipped] at h₁
    rw [gap] at h₃
    simp only [List.length_cons] at h₁ h₂ h₃
    omega
  | case6 _ input _ _ skipped _ _ behind taken _ gap =>
    cases h
    have h₁ := length_skipLines input
    have h₂ := item.shrinks taken
    have h₃ := length_skipLines behind
    rw [skipped] at h₁
    rw [gap] at h₃
    simp only [List.length_cons] at h₁ h₂ h₃
    omega
  | case7 => cases h

def items (item : Reader α) (close : Char) : Reader (List α) :=
  ⟨itemsFrom item close [], itemsFrom_shrinks⟩

/-- A value with no value inside. -/
def plainValue : Reader Value := do
  match ← peek with
  | some '"' => return .text (← text (← next))
  | some '\'' => return .text (← text (← next))
  | _ => scalar

/-- A value in which arrays and tables between braces nest at most this deep. -/
def valueOf : Nat → Reader Value
  | 0 => plainValue
  | depth + 1 => do
    match ← peek with
    | some '[' =>
      let _ ← next
      return .array (← items (valueOf depth) ']')
    | some '\x7B' =>
      let _ ← next
      ofOption (inlineTable? (← items (assignment (valueOf depth)) '\x7D'))
    | _ => plainValue

def value : Reader Value := valueOf greatestDepth

inductive Statement
  /-- The header of a table. -/
  | table (key : Key)
  /-- The header of one more element of an array of tables. -/
  | element (key : Key)
  | assign (key : Key) (value : Value)

/-- What a line says, if it says anything. -/
def statement : Reader (Option Statement) := do
  blanks
  match ← peek with
  | none => return none
  | some '#' => return none
  | some '\n' => return none
  | some '\r' => return none
  | some '[' =>
    if ← goesOn ['[', '['] then
      blanks
      let key ← key
      if ← goesOn [']', ']'] then return some (.element key) else fail
    else
      let _ ← next
      blanks
      let key ← key
      if ← goesOn [']'] then return some (.table key) else fail
  | some _ =>
    let (key, value) ← assignment value
    return some (.assign key value)

def line : Reader (Option Statement) := do
  let s ← statement
  lineEnd
  return s

/-- The statements of a text. Those in `done` stand in reverse. -/
def statementsFrom (done : List Statement) (input : List Char) : Option (List Statement) :=
  if input.isEmpty then some done.reverse
  else
    match line.run input with
    | none => none
    | some (s?, rest) =>
      if _h : rest.length < input.length then statementsFrom (s?.toList ++ done) rest else none
termination_by input.length

/-- A document under way: its root table and the path of the table that is open. -/
structure Draft where
  root : Entries
  current : List String

namespace Draft

def start : Draft := ⟨[], []⟩

def take? (d : Draft) : Statement → Option Draft
  | .table key => do return ⟨← d.root.openTable? key, key.parts⟩
  | .element key => do return ⟨← d.root.openElement? key, key.parts⟩
  | .assign key value => do
    let root ← Entries.along false (fun _ inner => inner.assign? key value) d.current .named d.root
    return { d with root := root }

end Draft

def byteOrderMark : Char := Char.ofNat 0xFEFF

/-- The root table of a text, which may start with a byte order mark. -/
def read? (s : String) : Option Entries := do
  let cs := s.toList
  let statements ← statementsFrom [] (if cs.head? = some byteOrderMark then cs.drop 1 else cs)
  let draft ← statements.foldlM Draft.take? Draft.start
  return draft.root

end CredentialGate.Toml
