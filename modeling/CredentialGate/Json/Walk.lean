import CredentialGate.Json.Quoted

/-! Walks over the items of a list and the members of an object. Every step reads at least one byte,
which bounds the walk. -/
namespace CredentialGate.Json

open Reader

@[simp] theorem run_token (input : Bytes) :
    token.run input = .ok ((input.dropWhile isBlank).head?, input.dropWhile isBlank) := rfl

@[simp] theorem run_next_cons (b : UInt8) (rest : Bytes) :
    next.run (b :: rest) = .ok (some b, rest) := rfl
@[simp] theorem run_failNext (cause : Cause) (input : Bytes) :
    (failNext cause : Reader α).run input = .error ⟨cause, input.length - 1⟩ := rfl
@[simp] theorem run_fail (cause : Cause) (input : Bytes) :
    (fail cause : Reader α).run input = .error ⟨cause, input.length⟩ := rfl

theorem dropBlanks_length (input : Bytes) :
    (input.dropWhile isBlank).length ≤ input.length := (List.dropWhile_suffix _).length_le

/-- Behind the first item a list goes on with a comma. -/
theorem moreItems_shrinks {input rest : Bytes}
    (h : (moreItems false).run input = .ok (true, rest)) : rest.length < input.length := by
  have passed := dropBlanks_length input
  simp only [moreItems, run_bind, run_token] at h
  cases left : input.dropWhile isBlank with
  | nil => simp [left] at h
  | cons b more =>
    have further := dropBlanks_length more
    rw [left] at passed
    simp only [left, List.head?_cons] at h
    split at h
    · cases h
    · simp only [Bool.false_eq_true, if_false] at h
      split at h
      · simp only [run_bind, run_next_cons, run_token] at h
        split at h
        · cases h
        · split at h
          · cases h
          · cases h
            simp only [List.length_cons] at passed
            omega
      · cases h

/-- A member starts with a quotation mark. -/
theorem moreMembers_shrinks {first : Bool} {input rest : Bytes}
    (h : (moreMembers first).run input = .ok (true, rest)) : rest.length < input.length := by
  have passed := dropBlanks_length input
  simp only [moreMembers, run_bind, run_token] at h
  cases left : input.dropWhile isBlank with
  | nil => simp [left] at h
  | cons b more =>
    have further := dropBlanks_length more
    rw [left] at passed
    simp only [List.length_cons] at passed
    simp only [left, List.head?_cons] at h
    split at h
    · cases h
    · split at h
      · split at h
        · simp only [run_bind, run_next_cons] at h
          cases h; omega
        · cases h
      · split at h
        · simp only [run_bind, run_next_cons, run_token] at h
          cases behind : more.dropWhile isBlank with
          | nil => simp [behind] at h
          | cons c beyond =>
            rw [behind] at further
            simp only [List.length_cons] at further
            simp only [behind, List.head?_cons] at h
            split at h
            · simp only [run_bind, run_next_cons] at h
              cases h; omega
            · split at h <;> cases h
        · cases h

def laterItems (item : σ → Reader σ) (s : σ) (input : Bytes) : Except Failure (σ × Bytes) :=
  match _more : (moreItems false).run input with
  | .error e => .error e
  | .ok (false, rest) => .ok (s, rest)
  | .ok (true, rest) =>
    match _taken : (item s).run rest with
    | .error e => .error e
    | .ok (further, rest) => laterItems item further rest
termination_by input.length
decreasing_by have := moreItems_shrinks _more; have := (item s).shrinks _taken; omega

theorem laterItems_shrinks {item : σ → Reader σ} {s : σ} {input : Bytes} {value rest}
    (h : laterItems item s input = .ok (value, rest)) : rest.length ≤ input.length := by
  fun_induction laterItems item s input with
  | case1 => cases h
  | case2 _ _ _ more => cases h; exact (moreItems false).shrinks more
  | case3 => cases h
  | case4 _ _ _ more _ _ taken ih =>
    have := ih h; have := moreItems_shrinks more; have := (item _).shrinks taken; omega

/-- Calls `item` for each item of a list that has been opened, up to its closing bracket. -/
def eachItem (item : σ → Reader σ) (s : σ) : Reader σ := do
  if ← moreItems true then
    let s ← item s
    ⟨laterItems item s, laterItems_shrinks⟩
  else return s

/-- The members from here on; `first` when none has been read. -/
def membersFrom (member : σ → String → Reader σ) (first : Bool) (s : σ) (input : Bytes) :
    Except Failure (σ × Bytes) :=
  match _more : (moreMembers first).run input with
  | .error e => .error e
  | .ok (false, rest) => .ok (s, rest)
  | .ok (true, rest) =>
    match _key : text.run rest with
    | .error e => .error e
    | .ok (key, rest) =>
      match _taken : (member s key).run rest with
      | .error e => .error e
      | .ok (further, rest) => membersFrom member false further rest
termination_by input.length
decreasing_by
  have := moreMembers_shrinks _more; have := text.shrinks _key
  have := (member s key).shrinks _taken; omega

theorem membersFrom_shrinks {member : σ → String → Reader σ} {first : Bool} {s : σ}
    {input : Bytes} {value rest}
    (h : membersFrom member first s input = .ok (value, rest)) : rest.length ≤ input.length := by
  fun_induction membersFrom member first s input with
  | case1 => cases h
  | case2 _ _ _ _ more => cases h; exact (moreMembers _).shrinks more
  | case3 => cases h
  | case4 => cases h
  | case5 _ _ _ _ more _ _ key _ _ taken ih =>
    have := ih h; have := moreMembers_shrinks more; have := text.shrinks key
    have := (member _ _).shrinks taken; omega

/-- Calls `member` for each key of an object that has been opened, up to its closing brace. What
stands behind the key, from the colon on, is left to `member`. -/
def eachMember (member : σ → String → Reader σ) (first : Bool) (s : σ) : Reader σ :=
  ⟨membersFrom member first s, membersFrom_shrinks⟩

end CredentialGate.Json
