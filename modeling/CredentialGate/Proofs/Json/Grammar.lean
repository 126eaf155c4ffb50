import CredentialGate.Json.Value

/-! Which texts stand for which values. There is more than one for each: blanks may stand around
the marks, a character may be escaped, and a number keeps the digits that it is written with.
Readers are held against these rules, which do not mention them. -/
namespace CredentialGate.Json

/-- A value as a text has it. A number is its numeral, of any size, and an object has its members
in their order, the repeated ones too. -/
inductive Datum
  | null
  | bool (b : Bool)
  | number (numeral : Bytes)
  | text (s : String)
  | list (items : List Datum)
  | object (members : List (String × Datum))

def Blanks (bytes : Bytes) : Prop := ∀ b ∈ bytes, isBlank b = true

/-- A mark with any blanks around it. -/
def Around (mark : UInt8) (bytes : Bytes) : Prop :=
  ∃ before after, Blanks before ∧ Blanks after ∧ bytes = before ++ mark :: after

/-! Numerals -/

def DigitRun (bytes : Bytes) : Prop := bytes ≠ [] ∧ ∀ b ∈ bytes, isDigit b = true

/-- A whole number does not begin with a zero, unless it is zero. -/
def IsWhole (bytes : Bytes) : Prop :=
  bytes = [zeroDigit] ∨ ∃ b more, bytes = b :: more ∧ b ≠ zeroDigit ∧ DigitRun bytes

def IsFraction (bytes : Bytes) : Prop :=
  bytes = [] ∨ ∃ digits, DigitRun digits ∧ bytes = pointMark :: digits

def IsExponent (bytes : Bytes) : Prop :=
  bytes = [] ∨ ∃ mark sign digits, isExponentMark mark = true ∧
    (sign = [] ∨ sign = [plusMark] ∨ sign = [minusMark]) ∧ DigitRun digits ∧
    bytes = mark :: (sign ++ digits)

def IsNumeral (bytes : Bytes) : Prop :=
  ∃ sign whole fraction exponent, (sign = [] ∨ sign = [minusMark]) ∧ IsWhole whole ∧
    IsFraction fraction ∧ IsExponent exponent ∧ bytes = sign ++ (whole ++ (fraction ++ exponent))

/-! Texts -/

/-- The letters behind a backslash that stand for one byte each. -/
def shortForms : List (UInt8 × UInt8) :=
  [(0x22, 0x22), (0x5C, 0x5C), (0x2F, 0x2F), (0x62, 0x08), (0x66, 0x0C), (0x6E, 0x0A),
    (0x72, 0x0D), (0x74, 0x09)]

/-- Four digits in base sixteen, in either case. -/
def FourDigits (n : Nat) (digits : Bytes) : Prop :=
  digits.length = 4 ∧ Text.hexNumber? (digits.map fun b => Char.ofNat b.toNat) = some n

/-- How bytes may be written between quotation marks. A character beyond four digits is escaped as
a pair of surrogates. -/
inductive Spelled : Bytes → Bytes → Prop
  | done : Spelled [] []
  | plain {b : UInt8} {bytes raw : Bytes} : ¬ b < 0x20 → b ≠ quoteMark → b ≠ escapeMark →
      Spelled bytes raw → Spelled (b :: bytes) (b :: raw)
  | short {letter b : UInt8} {bytes raw : Bytes} : (letter, b) ∈ shortForms →
      Spelled bytes raw → Spelled (b :: bytes) (escapeMark :: letter :: raw)
  | unicode {c : Char} {digits bytes raw : Bytes} : FourDigits c.toNat digits →
      Spelled bytes raw →
      Spelled (Text.utf8 (String.singleton c) ++ bytes)
        (escapeMark :: unicodeMark :: (digits ++ raw))
  | pair {c : Char} {leading trailing bytes raw : Bytes} : 0x10000 ≤ c.toNat →
      FourDigits (0xD800 + (c.toNat - 0x10000) / 0x400) leading →
      FourDigits (0xDC00 + (c.toNat - 0x10000) % 0x400) trailing → Spelled bytes raw →
      Spelled (Text.utf8 (String.singleton c) ++ bytes)
        (escapeMark :: unicodeMark :: (leading ++
          escapeMark :: unicodeMark :: (trailing ++ raw)))

def Quoted (s : String) (bytes : Bytes) : Prop :=
  ∃ raw, Spelled (Text.utf8 s) raw ∧ bytes = quoteMark :: (raw ++ [quoteMark])

/-! Values -/

/-- What stands in front of an item or a member: blanks, and a comma unless it is the first. -/
def Separates (first : Bool) (bytes : Bytes) : Prop :=
  if first then Blanks bytes else Around comma bytes

mutual

/-- The value may be written so. Items and members come with the mark that closes them. -/
inductive Renders : Datum → Bytes → Prop
  | null : Renders .null Value.nullWord
  | true : Renders (.bool .true) Value.trueWord
  | false : Renders (.bool .false) Value.falseWord
  | number {numeral : Bytes} : IsNumeral numeral → Renders (.number numeral) numeral
  | text {s : String} {bytes : Bytes} : Quoted s bytes → Renders (.text s) bytes
  | list {items : List Datum} {bytes : Bytes} : RendersItems .true items bytes →
      Renders (.list items) (openList :: bytes)
  | object {members : List (String × Datum)} {bytes : Bytes} :
      RendersMembers .true members bytes → Renders (.object members) (openObject :: bytes)

inductive RendersItems : Bool → List Datum → Bytes → Prop
  | close {first : Bool} {blanks : Bytes} : Blanks blanks →
      RendersItems first [] (blanks ++ [closeList])
  | item {first : Bool} {v : Datum} {more : List Datum} {separator bytes later : Bytes} :
      Separates first separator → Renders v bytes → RendersItems .false more later →
      RendersItems first (v :: more) (separator ++ (bytes ++ later))

inductive RendersMembers : Bool → List (String × Datum) → Bytes → Prop
  | close {first : Bool} {blanks : Bytes} : Blanks blanks →
      RendersMembers first [] (blanks ++ [closeObject])
  | member {first : Bool} {key : String} {v : Datum} {more : List (String × Datum)}
      {separator name sign bytes later : Bytes} :
      Separates first separator → Quoted key name → Around colonMark sign → Renders v bytes →
      RendersMembers .false more later →
      RendersMembers first ((key, v) :: more)
        (separator ++ (name ++ (sign ++ (bytes ++ later))))

end

/-- The text holds the value and nothing else but blanks. -/
def Holds (input : Bytes) (v : Datum) : Prop :=
  ∃ before bytes after, Blanks before ∧ Renders v bytes ∧ Blanks after ∧
    input = before ++ (bytes ++ after)

/-! How a value begins -/

/-- The bytes that a value of this kind may begin with. -/
def Datum.Begins : Datum → UInt8 → Prop
  | .null, b => b = 0x6E
  | .bool _, b => b = 0x74 ∨ b = 0x66
  | .number _, b => b = minusMark ∨ isDigit b = true
  | .text _, b => b = quoteMark
  | .list _, b => b = openList
  | .object _, b => b = openObject

theorem IsWhole.begins {bytes : Bytes} (whole : IsWhole bytes) :
    ∃ b more, bytes = b :: more ∧ isDigit b = true := by
  rcases whole with rfl | ⟨b, more, rfl, -, -, digits⟩
  · exact ⟨_, _, rfl, by decide⟩
  · exact ⟨b, more, rfl, digits b List.mem_cons_self⟩

theorem IsNumeral.begins {bytes : Bytes} (valid : IsNumeral bytes) :
    ∃ b more, bytes = b :: more ∧ (b = minusMark ∨ isDigit b = true) := by
  obtain ⟨sign, whole, fraction, exponent, rfl | rfl, valid, -, -, rfl⟩ := valid
  · obtain ⟨b, more, rfl, digit⟩ := valid.begins
    exact ⟨b, _, List.cons_append .., .inr digit⟩
  · exact ⟨_, _, List.cons_append .., .inl rfl⟩

theorem Renders.begins {v : Datum} {bytes : Bytes} (rendered : Renders v bytes) :
    ∃ b more, bytes = b :: more ∧ v.Begins b := by
  cases rendered with
  | null => exact ⟨_, _, rfl, rfl⟩
  | true => exact ⟨_, _, rfl, .inl rfl⟩
  | false => exact ⟨_, _, rfl, .inr rfl⟩
  | number valid => exact valid.begins
  | text quoted =>
    obtain ⟨raw, -, rfl⟩ := quoted
    exact ⟨_, _, rfl, rfl⟩
  | list | object => exact ⟨_, _, rfl, rfl⟩

/-- Only what is meant by a mark begins with it. -/
structure Datum.Marked (v : Datum) (b : UInt8) : Prop where
  visible : isBlank b = false
  inside : b ≠ closeList
  null : b = 0x6E → v = .null
  text : b = quoteMark → ∃ s, v = .text s
  list : b = openList → ∃ items, v = .list items
  object : b = openObject → ∃ members, v = .object members

theorem digit_cases {b : UInt8} (digit : isDigit b = true) :
    ∃ n < 10, b = UInt8.ofNat (0x30 + n) := by
  simp only [isDigit, Bool.and_eq_true, decide_eq_true_eq, UInt8.le_iff_toNat_le,
    UInt8.reduceToNat] at digit
  refine ⟨b.toNat - 0x30, by omega, ?_⟩
  rw [Nat.add_sub_cancel' digit.1, UInt8.ofNat_toNat]

theorem Datum.Begins.marked {v : Datum} {b : UInt8} (begins : v.Begins b) : v.Marked b := by
  cases v with
  | null | text | list | object =>
    cases begins
    constructor <;> simp +decide
  | bool =>
    rcases begins with rfl | rfl <;> constructor <;> simp +decide
  | number =>
    rcases begins with rfl | digit
    · constructor <;> simp +decide
    · obtain ⟨n, small, rfl⟩ := digit_cases digit
      have plain : ∀ n < 10, isBlank (UInt8.ofNat (0x30 + n)) = false ∧
          UInt8.ofNat (0x30 + n) ∉
            [closeList, 0x6E, quoteMark, openList, openObject] := by decide
      obtain ⟨visible, other⟩ := plain n small
      simp only [List.mem_cons, not_or, List.not_mem_nil, not_false_eq_true, and_true] at other
      obtain ⟨inside, notNull, notText, notList, notObject⟩ := other
      constructor <;> first | assumption | (intro same; contradiction)

end CredentialGate.Json
