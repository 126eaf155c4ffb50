/-! Readers of TOML text take a value off the front and leave the rest, which is never longer than
what they were given. A text that is no TOML is refused without a cause. -/
namespace CredentialGate.Toml

structure Reader (α : Type) where
  run : List Char → Option (α × List Char)
  shrinks : ∀ {input value rest}, run input = some (value, rest) → rest.length ≤ input.length

namespace Reader

def pure (a : α) : Reader α where
  run input := some (a, input)
  shrinks h := by cases h; exact Nat.le_refl _

def bind (r : Reader α) (f : α → Reader β) : Reader β where
  run input :=
    match r.run input with
    | some (a, rest) => (f a).run rest
    | none => none
  shrinks {input value rest} h := by
    cases first : r.run input with
    | none => simp [first] at h
    | some taken => rw [first] at h; exact Nat.le_trans ((f taken.1).shrinks h) (r.shrinks first)

instance : Monad Reader where
  pure := pure
  bind := bind

@[simp] theorem run_pure (a : α) (input : List Char) :
    (Pure.pure a : Reader α).run input = some (a, input) := rfl

theorem run_bind (r : Reader α) (f : α → Reader β) (input : List Char) :
    (r >>= f).run input = match r.run input with
      | some (a, rest) => (f a).run rest
      | none => none := rfl

def fail : Reader α where
  run _ := none
  shrinks h := by cases h

/-- A value that may be missing. -/
def ofOption (a? : Option α) : Reader α :=
  match a? with
  | some a => Pure.pure a
  | none => fail

def peek : Reader (Option Char) where
  run input := some (input.head?, input)
  shrinks h := by cases h; exact Nat.le_refl _

/-- The character that comes next. -/
def next : Reader Char where
  run
    | [] => none
    | c :: rest => some (c, rest)
  shrinks {input value rest} h := by cases input <;> cases h; simp

/-- The longest run of characters of a class. -/
def takeWhile (p : Char → Bool) : Reader (List Char) where
  run input := some (input.takeWhile p, input.dropWhile p)
  shrinks {input _ _} h := by cases h; exact (List.dropWhile_suffix p).length_le

/-- Whether the input goes on with a text, which is then taken. -/
def goesOn (expected : List Char) : Reader Bool where
  run input :=
    if expected.isPrefixOf input then some (true, input.drop expected.length)
    else some (false, input)
  shrinks {input _ _} h := by
    split at h <;> cases h
    · simp
    · exact Nat.le_refl _

/-- Exactly this many characters. -/
def take (n : Nat) : Reader (List Char) where
  run input := if n ≤ input.length then some (input.take n, input.drop n) else none
  shrinks {input _ _} h := by
    split at h <;> cases h
    simp

end Reader

open Reader

def isBlank (c : Char) : Bool := c == ' ' || c == '\t'

/-- Passes blanks on a line. -/
def blanks : Reader Unit := do
  let _ ← takeWhile isBlank

/-- Control characters do not occur in comments and texts, the tab excepted. -/
def isPlain (c : Char) : Bool := c == '\t' || (0x20 ≤ c.toNat && c.toNat ≠ 0x7F)

/-- The rest behind blanks, line ends and comments. -/
def skipLines (input : List Char) : List Char :=
  match input with
  | '#' :: rest => skipLines (rest.dropWhile isPlain)
  | '\r' :: '\n' :: rest => skipLines rest
  | ' ' :: rest => skipLines rest
  | '\t' :: rest => skipLines rest
  | '\n' :: rest => skipLines rest
  | _ => input
termination_by input.length
decreasing_by
  all_goals simp only [List.length_cons]
  · have := (List.dropWhile_suffix (l := rest) isPlain).length_le; omega
  all_goals omega

theorem length_skipLines (input : List Char) : (skipLines input).length ≤ input.length := by
  fun_induction skipLines input with
  | case1 rest ih =>
    have := (List.dropWhile_suffix (l := rest) isPlain).length_le
    simp only [List.length_cons]; omega
  | case2 rest ih => simp only [List.length_cons]; omega
  | case3 rest ih => simp only [List.length_cons]; omega
  | case4 rest ih => simp only [List.length_cons]; omega
  | case5 rest ih => simp only [List.length_cons]; omega
  | case6 => exact Nat.le_refl _

/-- Passes blanks, line ends and comments. -/
def lines : Reader Unit where
  run input := some ((), skipLines input)
  shrinks h := by cases h; exact length_skipLines _

/-- The end of a line, or of the text. -/
def lineBreak : Reader Unit where
  run
    | [] => some ((), [])
    | '\n' :: rest => some ((), rest)
    | '\r' :: '\n' :: rest => some ((), rest)
    | _ => none
  shrinks {input _ _} h := by
    split at h <;> cases h <;> simp only [List.length_nil, List.length_cons] <;> omega

/-- What may still stand on a line: blanks and a comment. -/
def lineEnd : Reader Unit := do
  blanks
  if (← peek) = some '#' then
    let _ ← takeWhile isPlain
  lineBreak

end CredentialGate.Toml
