import CredentialGate.Text.Hex
import CredentialGate.Toml.Reader

/-! Texts between quotation marks. Between double marks a backslash starts an escape; between single
ones every character stands for itself. Three marks on either side let line ends in. A text is
written in the first form of a fixed order that fits it. -/
namespace CredentialGate.Toml

open Reader

/-- The character that a letter behind a backslash stands for. -/
def unescape? : Char → Option Char
  | '"' => some '"'
  | '\\' => some '\\'
  | 'b' => some '\x08'
  | 't' => some '\t'
  | 'n' => some '\n'
  | 'f' => some '\x0C'
  | 'r' => some '\r'
  | 'e' => some '\x1B'
  | _ => none

/-- How many digits stand behind a letter that names a character by number. -/
def digitsBehind? : Char → Option Nat
  | 'x' => some 2
  | 'u' => some 4
  | 'U' => some 8
  | _ => none

def character? (n : Nat) : Option Char :=
  if h : n.isValidChar then some (Char.ofNatAux n h) else none

/-- The character that an escape stands for, behind its backslash. -/
def escape : Reader Char := do
  let letter ← next
  match digitsBehind? letter with
  | some n => ofOption ((Text.hexNumber? (← take n)).bind character?)
  | none => ofOption (unescape? letter)

/-- A text behind the double mark that opens it. `done` holds what has been read, in reverse. -/
def basicFrom (done : List Char) (input : List Char) : Option (String × List Char) :=
  match input with
  | [] => none
  | '"' :: rest => some (String.ofList done.reverse, rest)
  | '\\' :: rest =>
    match _h : escape.run rest with
    | none => none
    | some (c, rest) => basicFrom (c :: done) rest
  | c :: rest => if isPlain c then basicFrom (c :: done) rest else none
termination_by input.length
decreasing_by
  · have := escape.shrinks _h; simp only [List.length_cons]; omega
  · simp only [List.length_cons]; omega

theorem basicFrom_shrinks {done input value rest}
    (h : basicFrom done input = some (value, rest)) : rest.length ≤ input.length := by
  fun_induction basicFrom done input with
  | case1 => cases h
  | case2 => cases h; simp
  | case3 => cases h
  | case4 _ _ _ _ escaped ih =>
    have := ih h; have := escape.shrinks escaped; simp only [List.length_cons]; omega
  | case5 _ _ _ _ _ _ ih => have := ih h; simp only [List.length_cons]; omega
  | case6 => cases h

/-- A text behind the single mark that opens it. -/
def literal : Reader String := do
  let inner ← takeWhile fun c => isPlain c && c != '\''
  if (← next) = '\'' then return String.ofList inner else fail

/-- How many marks stand at the front behind one that has been seen, four at most. -/
def marks (mark : Char) (rest : List Char) : Nat := ((rest.take 4).takeWhile (· = mark)).length

/-- Whether a backslash stands before the end of a line, blanks apart. -/
def continuesLine (rest : List Char) : Bool :=
  match rest.dropWhile isBlank with
  | '\n' :: _ => true
  | '\r' :: '\n' :: _ => true
  | _ => false

/-- The rest behind blanks and line ends. -/
def skipBlankLines : List Char → List Char
  | ' ' :: rest => skipBlankLines rest
  | '\t' :: rest => skipBlankLines rest
  | '\n' :: rest => skipBlankLines rest
  | '\r' :: '\n' :: rest => skipBlankLines rest
  | input => input

theorem length_skipBlankLines (input : List Char) :
    (skipBlankLines input).length ≤ input.length := by
  fun_induction skipBlankLines input with
  | case1 => simp only [List.length_cons]; omega
  | case2 => simp only [List.length_cons]; omega
  | case3 => simp only [List.length_cons]; omega
  | case4 => simp only [List.length_cons]; omega
  | case5 => exact Nat.le_refl _

/-- A text that ends with marks; what stands before them is in reverse. -/
def withMarks (mark : Char) (n : Nat) (done : List Char) : String :=
  String.ofList (done.reverse ++ List.replicate n mark)

/-- A text behind the three marks that open it. Three marks close it, and of more than three up to
two belong to the text. -/
def longFrom (mark : Char) (escapes : Bool) (done : List Char) (input : List Char) :
    Option (String × List Char) :=
  match input with
  | [] => none
  | c :: rest =>
    if c = mark ∧ 2 ≤ marks mark rest then
      some (withMarks mark (marks mark rest - 2) done, rest.drop (marks mark rest))
    else if escapes ∧ c = '\\' then
      if continuesLine rest then longFrom mark escapes done (skipBlankLines rest)
      else
        match _h : escape.run rest with
        | none => none
        | some (c, rest) => longFrom mark escapes (c :: done) rest
    else if isPlain c ∨ c = '\n' then longFrom mark escapes (c :: done) rest
    else if c = '\r' ∧ rest.head? = some '\n' then longFrom mark escapes (c :: done) rest
    else none
termination_by input.length
decreasing_by
  · have := length_skipBlankLines rest; simp only [List.length_cons]; omega
  · have := escape.shrinks _h; simp only [List.length_cons]; omega
  all_goals simp only [List.length_cons]; omega

theorem longFrom_shrinks {mark escapes done input value rest}
    (h : longFrom mark escapes done input = some (value, rest)) : rest.length ≤ input.length := by
  fun_induction longFrom mark escapes done input with
  | case1 => cases h
  | case2 => cases h; simp only [List.length_drop, List.length_cons]; omega
  | case3 _ _ more _ _ _ ih =>
    have := ih h; have := length_skipBlankLines more; simp only [List.length_cons]; omega
  | case4 => cases h
  | case5 _ _ _ _ _ _ _ _ escaped ih =>
    have := ih h; have := escape.shrinks escaped; simp only [List.length_cons]; omega
  | case6 _ _ _ _ _ _ ih => have := ih h; simp only [List.length_cons]; omega
  | case7 _ _ _ _ _ _ _ ih => have := ih h; simp only [List.length_cons]; omega
  | case8 => cases h

def basic : Reader String := ⟨basicFrom [], basicFrom_shrinks⟩

/-- A text between three marks. A line end right behind the marks does not belong to it. -/
def long (mark : Char) (escapes : Bool) : Reader String := do
  if !(← goesOn ['\n']) then
    let _ ← goesOn ['\r', '\n']
  ⟨longFrom mark escapes [], longFrom_shrinks⟩

/-- A text between single or double marks, which stays on its line. -/
def shortText (opening : Char) : Reader String :=
  if opening = '"' then basic else literal

/-- A text of any form behind its first mark. -/
def text (opening : Char) : Reader String := do
  if ← goesOn [opening, opening] then long opening (opening = '"') else shortText opening

/-- What decides the form in which a text is written. -/
structure Traits where
  hasBackslash : Bool
  hasLineFeed : Bool
  hasControl : Bool
  doubleMarks : Nat
  singleMarks : Nat

/-- The length of the longest run of a mark; `current` of them stand in front. -/
def longestRun (mark : Char) (current : Nat) : List Char → Nat
  | [] => current
  | c :: rest =>
    if c = mark then longestRun mark (current + 1) rest
    else max current (longestRun mark 0 rest)

def isControl (c : Char) : Bool := !isPlain c && c != '\n'

def Traits.of (s : List Char) : Traits where
  hasBackslash := s.contains '\\'
  hasLineFeed := s.contains '\n'
  hasControl := s.any isControl
  doubleMarks := longestRun '"' 0 s
  singleMarks := longestRun '\'' 0 s

/-- The form of a text: which mark, and whether three of them on either side. -/
inductive Form
  | basic
  | literal
  | longBasic
  | longLiteral
deriving DecidableEq, Repr

/-- The first form that fits needs no escape, except for a tab. When none does, escapes are
written. -/
def Traits.form (t : Traits) : Form :=
  if !t.hasBackslash && !t.hasLineFeed && !t.hasControl && t.doubleMarks == 0 then .basic
  else if !t.hasLineFeed && !t.hasControl && t.singleMarks == 0 then .literal
  else if !t.hasBackslash && !t.hasControl && t.doubleMarks ≤ 2 then .longBasic
  else if !t.hasControl && t.singleMarks ≤ 2 then .longLiteral
  else if t.hasLineFeed then .longBasic
  else .basic

/-- The escape of a character that does not stand for itself between double marks. -/
def escaped? (c : Char) : Option (List Char) :=
  if c = '\\' then some ['\\', '\\']
  else if c = '\x08' then some ['\\', 'b']
  else if c = '\t' then some ['\\', 't']
  else if c = '\n' then some ['\\', 'n']
  else if c = '\x0C' then some ['\\', 'f']
  else if c = '\r' then some ['\\', 'r']
  else if isControl c then some (['\\', 'u', '0', '0'] ++ Text.upperHex c.toNat.toUInt8)
  else none

/-- The inner text between double marks. Of a run of marks `free` stand for themselves, and
`run` of them stand in front. -/
def writeInner (long : Bool) (run : Nat) : List Char → List Char
  | [] => []
  | c :: rest =>
    if c = '"' then
      if run < free then '"' :: writeInner long (run + 1) rest
      else '\\' :: '"' :: writeInner long 0 rest
    else if long ∧ c = '\n' then '\n' :: writeInner long 0 rest
    else (escaped? c).getD [c] ++ writeInner long 0 rest
where free : Nat := if long then 2 else 0

def Form.write (s : List Char) : Form → List Char
  | basic => '"' :: writeInner false 0 s ++ ['"']
  | literal => '\'' :: s ++ ['\'']
  | longBasic => thrice '"' ++ lineStart ++ writeInner true 0 s ++ thrice '"'
  | longLiteral => thrice '\'' ++ lineStart ++ s ++ thrice '\''
where
  thrice (mark : Char) : List Char := [mark, mark, mark]
  /-- A text with line ends starts on a line of its own. -/
  lineStart : List Char := if s.contains '\n' then ['\n'] else []

def quote (s : String) : List Char := (Traits.of s.toList).form.write s.toList

end CredentialGate.Toml
