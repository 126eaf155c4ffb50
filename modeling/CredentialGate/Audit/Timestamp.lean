import CredentialGate.Text.Blank

/-! Times of events, in universal time. They are written as RFC 3339 has it, with as many places
of a second as are needed in groups of three. Reading is more liberal: blanks may stand around the
parts, the separator may be a blank, and any offset of less than a day is taken off. A leap second
is a second 60 of any minute. -/
namespace CredentialGate.Audit

structure Date where
  year : Int
  month : Nat
  day : Nat
deriving DecidableEq, Repr

namespace Date

def isLeapYear (year : Int) : Bool :=
  year % 4 == 0 && (year % 100 != 0 || year % 400 == 0)

def monthLength (year : Int) (month : Nat) : Nat :=
  if month = 2 then (if isLeapYear year then 29 else 28)
  else if month = 4 ∨ month = 6 ∨ month = 9 ∨ month = 11 then 30
  else 31

def leastYear : Int := -262143
def greatestYear : Int := 262142

def isValid (d : Date) : Bool :=
  leastYear ≤ d.year && d.year ≤ greatestYear && 1 ≤ d.month && d.month ≤ 12 &&
    1 ≤ d.day && d.day ≤ monthLength d.year d.month

def next (d : Date) : Date :=
  if d.day < monthLength d.year d.month then { d with day := d.day + 1 }
  else if d.month < 12 then ⟨d.year, d.month + 1, 1⟩
  else ⟨d.year + 1, 1, 1⟩

def previous (d : Date) : Date :=
  if 1 < d.day then { d with day := d.day - 1 }
  else if 1 < d.month then ⟨d.year, d.month - 1, monthLength d.year (d.month - 1)⟩
  else ⟨d.year - 1, 12, 31⟩

/-- The date so many days after the first of January 1970. Counted from a first of March, the
leap day is the last of its year, and the months have their lengths in groups of five. -/
def ofDays (days : Int) : Date :=
  let shifted := days + 719468
  let era := shifted / 146097
  let dayOfEra := shifted % 146097
  let yearOfEra :=
    (dayOfEra - dayOfEra / 1460 + dayOfEra / 36524 - dayOfEra / 146096) / 365
  let dayOfYear := dayOfEra - (365 * yearOfEra + yearOfEra / 4 - yearOfEra / 100)
  let fromMarch := (5 * dayOfYear + 2) / 153
  let month := if fromMarch < 10 then fromMarch + 3 else fromMarch - 9
  let year := yearOfEra + era * 400 + if month ≤ 2 then 1 else 0
  ⟨year, month.toNat, (dayOfYear - (153 * fromMarch + 2) / 5 + 1).toNat⟩

end Date

/-- A leap second has a thousand million nanoseconds more than the second before it. -/
structure Timestamp where
  date : Date
  second : Nat
  nano : Nat
deriving DecidableEq, Repr

namespace Timestamp

def secondsPerDay : Nat := 86400
def nanosPerSecond : Nat := 1000000000

/-- The time so many seconds after the start of 1970, which are counted without leap seconds. -/
def ofUnix (seconds : Int) (nano : Nat) : Timestamp :=
  ⟨.ofDays (seconds / secondsPerDay), (seconds % secondsPerDay).toNat, nano⟩

def padded (width n : Nat) : List Char :=
  let digits := (toString n).toList
  List.replicate (width - digits.length) '0' ++ digits

/-- A year of four digits stands as it is, any other has its sign. -/
def writeYear (year : Int) : List Char :=
  if 0 ≤ year ∧ year ≤ 9999 then padded 4 year.toNat
  else (if 0 ≤ year then '+' else '-') :: padded 4 year.natAbs

def writeFraction (nano : Nat) : List Char :=
  if nano = 0 then []
  else if nano % 1000000 = 0 then '.' :: padded 3 (nano / 1000000)
  else if nano % 1000 = 0 then '.' :: padded 6 (nano / 1000)
  else '.' :: padded 9 nano

def write (t : Timestamp) : List Char :=
  let leap := nanosPerSecond ≤ t.nano
  let second := t.second % 60 + if leap then 1 else 0
  let nano := if leap then t.nano - nanosPerSecond else t.nano
  writeYear t.date.year ++ '-' :: padded 2 t.date.month ++ '-' :: padded 2 t.date.day ++
    'T' :: padded 2 (t.second / 3600) ++ ':' :: padded 2 (t.second / 60 % 60) ++
    ':' :: padded 2 second ++ writeFraction nano ++ ['Z']

def display (t : Timestamp) : String := String.ofList t.write

def ofDigits (digits : List Char) : Nat :=
  digits.foldl (fun n c => n * 10 + (c.toNat - '0'.toNat)) 0

/-- At least one digit and at most `width`, if a width is given. -/
def takeNumber? (width? : Option Nat) (text : List Char) : Option (Nat × List Char) :=
  let run := text.takeWhile Char.isDigit
  let digits := match width? with
    | some width => run.take width
    | none => run
  if digits.isEmpty then none else some (ofDigits digits, text.drop digits.length)

/-- A number of one or two digits within bounds, with blanks in front. -/
def takePart? (low high : Nat) (text : List Char) : Option (Nat × List Char) := do
  let (n, rest) ← takeNumber? (some 2) (Text.trimStart text)
  if low ≤ n ∧ n ≤ high then some (n, rest) else none

/-- A year has at most four digits unless it has a sign. -/
def takeYear? (text : List Char) : Option (Int × List Char) :=
  match Text.trimStart text with
  | '-' :: rest => (takeNumber? none rest).map fun (n, rest) => (-(n : Int), rest)
  | '+' :: rest => (takeNumber? none rest).map fun (n, rest) => ((n : Int), rest)
  | text => (takeNumber? (some 4) text).map fun (n, rest) => ((n : Int), rest)

def takeMark? (mark : Char) (text : List Char) : Option (List Char) :=
  match Text.trimStart text with
  | c :: rest => if c = mark then some rest else none
  | [] => none

/-- Nanoseconds from one to nine places of a second; further places are dropped. -/
def takeFraction? : List Char → Option (Nat × List Char)
  | '.' :: rest =>
    let places := rest.takeWhile Char.isDigit
    if places.isEmpty then none
    else
      let read := places.take 9
      some (ofDigits read * Nat.pow 10 (9 - read.length), rest.drop places.length)
  | rest => some (0, rest)

def takePair? (high : Nat) (text : List Char) : Option (Nat × List Char) :=
  match text with
  | a :: b :: rest =>
    let n := ofDigits [a, b]
    if a.isDigit && b.isDigit && n ≤ high then some (n, rest) else none
  | _ => none

/-- An offset of hours and minutes, in minutes; colons and blanks may stand between them. -/
def takeOffset? (text : List Char) : Option (Int × List Char) := do
  let (hours, rest) ← takePair? 99 text
  let rest := rest.dropWhile fun c => c == ':' || Text.isBlank c
  let (minutes, rest) ← takePair? 59 rest
  return (((hours * 60 + minutes : Nat) : Int), rest)

def minusSign : Char := Char.ofNat 0x2212

/-- The zone: the word for universal time in any case, its letter, or a signed offset. -/
def takeZone? (text : List Char) : Option (Int × List Char) :=
  if (text.take 3).map Char.toUpper = ['U', 'T', 'C'] then some (0, text.drop 3)
  else
    match text with
    | 'Z' :: rest | 'z' :: rest => some (0, rest)
    | '+' :: rest => takeOffset? rest
    | c :: rest =>
      if c = '-' ∨ c = minusSign then (takeOffset? rest).map fun (m, rest) => (-m, rest) else none
    | [] => none

/-- Local time less an offset in minutes. -/
def shift (date : Date) (second : Nat) (nano : Nat) (minutes : Int) : Timestamp :=
  let s : Int := second - minutes * 60
  if s < 0 then ⟨date.previous, (s + secondsPerDay).toNat, nano⟩
  else if secondsPerDay ≤ s then ⟨date.next, (s - secondsPerDay).toNat, nano⟩
  else ⟨date, s.toNat, nano⟩

def takeDate? (text : List Char) : Option (Date × List Char) := do
  let (year, rest) ← takeYear? text
  let rest ← takeMark? '-' rest
  let (month, rest) ← takePart? 1 12 rest
  let rest ← takeMark? '-' rest
  let (day, rest) ← takePart? 1 31 rest
  return (⟨year, month, day⟩, rest)

def takeTime? (text : List Char) : Option ((Nat × Nat) × List Char) := do
  let (hour, rest) ← takePart? 0 23 text
  let rest ← takeMark? ':' rest
  let (minute, rest) ← takePart? 0 59 rest
  let rest ← takeMark? ':' rest
  let (second, rest) ← takePart? 0 60 rest
  let (nano, rest) ← takeFraction? rest
  let start := hour * 3600 + minute * 60
  if second = 60 then return ((start + 59, nano + nanosPerSecond), rest)
  else return ((start + second, nano), rest)

def takeSeparator? : List Char → Option (List Char)
  | 'T' :: rest | 't' :: rest | ' ' :: rest => some rest
  | _ => none

def read? (s : String) : Option Timestamp := do
  let (date, rest) ← takeDate? s.toList
  let rest ← takeSeparator? rest
  let ((second, nano), rest) ← takeTime? rest
  let (minutes, rest) ← takeZone? (Text.trimStart rest)
  if (Text.trimStart rest).isEmpty ∧ date.isValid ∧ minutes.natAbs < 24 * 60 then
    let t := shift date second nano minutes
    if t.date.isValid then some t else none
  else none

end Timestamp

end CredentialGate.Audit
