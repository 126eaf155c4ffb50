/-! Text as UTF-8 bytes. Reading is strict (`ofUtf8?`) or lossy (`ofUtf8Lossy`): the lossy reader
puts one replacement character for each longest start of a character that cannot be completed. -/
namespace CredentialGate.Text

def utf8 (s : String) : List UInt8 := s.toByteArray.data.toList

def ofUtf8? (bytes : List UInt8) : Option String := String.fromUTF8? ⟨bytes.toArray⟩

def replacement : Char := Char.ofNat 0xFFFD

/-- What is owed after the first bytes of a character: the bits read so far and the range that
each further byte must lie in. -/
structure Partial where
  bits : Nat
  owed : List (Nat × Nat)

/-- The state of the lossy reader between two bytes. Finished characters stand in reverse. -/
structure LossyState where
  done : List Char
  open? : Option Partial

def tail : Nat × Nat := (0x80, 0xBF)

/-- A byte that stands where a character begins. -/
def LossyState.begin (done : List Char) (b : Nat) : LossyState :=
  if b ≤ 0x7F then ⟨Char.ofNat b :: done, none⟩
  else if 0xC2 ≤ b ∧ b ≤ 0xDF then ⟨done, some ⟨b - 0xC0, [tail]⟩⟩
  else if b = 0xE0 then ⟨done, some ⟨0, [(0xA0, 0xBF), tail]⟩⟩
  else if b = 0xED then ⟨done, some ⟨0xD, [(0x80, 0x9F), tail]⟩⟩
  else if 0xE1 ≤ b ∧ b ≤ 0xEF then ⟨done, some ⟨b - 0xE0, [tail, tail]⟩⟩
  else if b = 0xF0 then ⟨done, some ⟨0, [(0x90, 0xBF), tail, tail]⟩⟩
  else if 0xF1 ≤ b ∧ b ≤ 0xF3 then ⟨done, some ⟨b - 0xF0, [tail, tail, tail]⟩⟩
  else if b = 0xF4 then ⟨done, some ⟨4, [(0x80, 0x8F), tail, tail]⟩⟩
  else ⟨replacement :: done, none⟩

def LossyState.step (s : LossyState) (byte : UInt8) : LossyState :=
  let b := byte.toNat
  match s.open? with
  | none => .begin s.done b
  | some ⟨_, []⟩ => .begin s.done b
  | some ⟨bits, (low, high) :: owed⟩ =>
    if low ≤ b ∧ b ≤ high then
      let bits := bits * 64 + b % 64
      if owed.isEmpty then ⟨Char.ofNat bits :: s.done, none⟩ else ⟨s.done, some ⟨bits, owed⟩⟩
    else .begin (replacement :: s.done) b

def LossyState.finish (s : LossyState) : List Char :=
  match s.open? with
  | none => s.done.reverse
  | some _ => (replacement :: s.done).reverse

def ofUtf8Lossy (bytes : List UInt8) : String :=
  String.ofList (bytes.foldl LossyState.step ⟨[], none⟩).finish

end CredentialGate.Text
