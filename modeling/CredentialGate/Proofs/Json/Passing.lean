import CredentialGate.Json.Passing
import CredentialGate.Proofs.Json.Numeral

/-! A value is passed whole, in whatever form it is written and however deep it nests. The brackets
around it are a stack; behind the value the machine is where it would be had the value not been
there. -/
namespace CredentialGate.Json

open Reader

/-! Blanks -/

/-- A mark is found behind any blanks. -/
theorem run_token_mark {blanks : Bytes} (all : Blanks blanks) {b : UInt8}
    (visible : isBlank b = false) (rest : Bytes) :
    token.run (blanks ++ b :: rest) = .ok (some b, b :: rest) := by
  rw [run_token, dropBlanks_append all, dropBlanks_cons visible, List.head?_cons]

theorem delimited_blanks {blanks rest : Bytes} (all : Blanks blanks) (delimited : Delimited rest) :
    Delimited (blanks ++ rest) := by
  cases blanks with
  | nil => exact delimited
  | cons b more => exact .inr ⟨b, more ++ rest, rfl, .inl (all b List.mem_cons_self)⟩

theorem delimited_around {bytes : Bytes} (around : Around comma bytes) (rest : Bytes) :
    Delimited (bytes ++ rest) := by
  obtain ⟨before, after, blanks, -, rfl⟩ := around
  rw [List.append_assoc]
  exact delimited_blanks blanks (delimited_comma _)

theorem RendersItems.delimited {items : List Datum} {bytes : Bytes}
    (rendered : RendersItems .false items bytes) (rest : Bytes) : Delimited (bytes ++ rest) := by
  cases rendered with
  | close blanks =>
    rw [List.append_assoc]
    exact delimited_blanks blanks (.inr ⟨closeList, _, rfl, .inr (.inr (.inl rfl))⟩)
  | item separates _ _ =>
    rw [List.append_assoc]
    exact delimited_around separates _

theorem RendersMembers.delimited {members : List (String × Datum)} {bytes : Bytes}
    (rendered : RendersMembers .false members bytes) (rest : Bytes) :
    Delimited (bytes ++ rest) := by
  cases rendered with
  | close blanks =>
    rw [List.append_assoc]
    exact delimited_blanks blanks (.inr ⟨closeObject, _, rfl, .inr (.inr (.inr rfl))⟩)
  | member separates _ _ _ _ =>
    rw [List.append_assoc]
    exact delimited_around separates _

theorem run_colon_around {sign : Bytes} (around : Around colonMark sign) (rest : Bytes) :
    ∃ after, Blanks after ∧ colon.run (sign ++ rest) = .ok ((), after ++ rest) := by
  obtain ⟨before, after, first, second, rfl⟩ := around
  have visible : isBlank colonMark = false := by decide
  exact ⟨after, second, by simp [colon, run_bind, dropBlanks_append first, visible]⟩

/-! Values -/

/-- Where the machine goes on behind a value that stands inside brackets. -/
def resume (brackets : List Bracket) (input : Bytes) : Except Failure (Unit × Bytes) :=
  match leaveFrom brackets input with
  | .error e => .error e
  | .ok ([], rest) => .ok ((), rest)
  | .ok (bracket :: outer, rest) => passFrom (bracket :: outer) rest

theorem passFrom_leave {brackets : List Bracket} {input rest : Bytes}
    (step : (passStep brackets).run input = (leave brackets).run rest) :
    passFrom brackets input = resume brackets rest := by
  have left : (leave brackets).run rest = leaveFrom brackets rest := rfl
  rw [passFrom, step, left, resume]
  rcases leaveFrom brackets rest with e | ⟨_ | ⟨bracket, outer⟩, rest⟩ <;> rfl

/-- A scalar leaves the brackets as they are. -/
theorem passFrom_scalar {brackets : List Bracket} {input rest : Bytes}
    (taken : passStart.run input = .ok (none, rest)) :
    passFrom brackets input = resume brackets rest := by
  apply passFrom_leave
  rw [passStep, run_bind, taken]

theorem run_passStart_mark {blanks : Bytes} (all : Blanks blanks) {b : UInt8} {v : Datum}
    (begins : v.Begins b) (other : ∀ numeral, v ≠ .number numeral) (rest : Bytes) :
    passStart.run (blanks ++ b :: rest) = (passAfter b).run rest := by
  have visible := begins.marked.visible
  have noNumeral : ¬ (b = minusMark ∨ isDigit b = true) := by
    cases v with
    | number numeral => exact absurd rfl (other numeral)
    | null | text | list | object => cases begins; decide
    | bool => rcases begins with rfl | rfl <;> decide
  simp only [passStart, run_bind, run_token_mark all visible, if_neg noNumeral, run_next_cons]

theorem run_passKey {before name sign : Bytes} {key : String} (all : Blanks before)
    (quoted : Quoted key name) (around : Around colonMark sign) (rest : Bytes) :
    ∃ after, Blanks after ∧
      passKey.run (before ++ (name ++ (sign ++ rest))) = .ok ((), after ++ rest) := by
  obtain ⟨raw, spelled, rfl⟩ := quoted
  obtain ⟨after, blanks, behind⟩ := run_colon_around around rest
  have visible : isBlank quoteMark = false := by decide
  refine ⟨after, blanks, ?_⟩
  simp only [List.cons_append, List.append_assoc, List.nil_append]
  simp only [passKey, run_bind, run_token_mark all visible, if_true, run_next_cons]
  simp only [passText, passTextFrom_spelled spelled, behind]

/-! Brackets: whether one that has been opened holds a value, and whether it holds one more -/

theorem run_enter_close (bracket : Bracket) {blanks : Bytes} (all : Blanks blanks) (rest : Bytes) :
    (enter bracket).run (blanks ++ bracket.close :: rest) = .ok (false, rest) := by
  cases bracket with
  | list | object => simp +decide [enter, Bracket.close, run_bind, dropBlanks_append all]

theorem run_goOn_close (bracket : Bracket) {blanks : Bytes} (all : Blanks blanks) (rest : Bytes) :
    (goOn bracket).run (blanks ++ bracket.close :: rest) = .ok (false, rest) := by
  cases bracket with
  | list | object => simp +decide [goOn, Bracket.close, run_bind, dropBlanks_append all]

theorem run_enter_item {blanks : Bytes} (all : Blanks blanks) {b : UInt8} {v : Datum}
    (begins : v.Begins b) (rest : Bytes) :
    (enter .list).run (blanks ++ b :: rest) = .ok (true, b :: rest) := by
  have marked := begins.marked
  simp only [enter, run_bind, run_token_mark all marked.visible, if_neg marked.inside, run_pure]

theorem run_goOn_item {separator : Bytes} (around : Around comma separator) (rest : Bytes) :
    ∃ after, Blanks after ∧ (goOn .list).run (separator ++ rest) = .ok (true, after ++ rest) := by
  obtain ⟨before, after, first, second, rfl⟩ := around
  exact ⟨after, second, by simp +decide [goOn, run_bind, dropBlanks_append first]⟩

theorem run_enter_member {blanks name sign : Bytes} {key : String} (all : Blanks blanks)
    (quoted : Quoted key name) (around : Around colonMark sign) (rest : Bytes) :
    ∃ after, Blanks after ∧
      (enter .object).run (blanks ++ (name ++ (sign ++ rest))) = .ok (true, after ++ rest) := by
  obtain ⟨after, second, passed⟩ := run_passKey blanks_nil quoted around rest
  obtain ⟨raw, -, rfl⟩ := quoted
  have visible : isBlank quoteMark = false := by decide
  have other : quoteMark ≠ closeObject := by decide
  refine ⟨after, second, ?_⟩
  simp only [List.cons_append, List.append_assoc, List.nil_append] at passed ⊢
  simp only [enter, run_bind, run_token_mark all visible, if_neg other, passed, run_pure]

theorem run_goOn_member {separator name sign : Bytes} {key : String}
    (separates : Around comma separator) (quoted : Quoted key name)
    (around : Around colonMark sign) (rest : Bytes) :
    ∃ after, Blanks after ∧
      (goOn .object).run (separator ++ (name ++ (sign ++ rest))) = .ok (true, after ++ rest) := by
  obtain ⟨before, between, first, second, rfl⟩ := separates
  obtain ⟨after, third, passed⟩ := run_passKey second quoted around rest
  have visible : isBlank comma = false := by decide
  refine ⟨after, third, ?_⟩
  simp only [goOn, List.append_assoc, List.cons_append, run_bind, run_token_mark first visible,
    if_true, run_next_cons, passed, run_pure]

section

variable {bracket : Bracket} {brackets : List Bracket} {input inner rest : Bytes}

theorem passFrom_opened (started : passStart.run input = .ok (some bracket, inner))
    (entered : (enter bracket).run inner = .ok (true, rest)) :
    passFrom brackets input = passFrom (bracket :: brackets) rest := by
  have step : (passStep brackets).run input = .ok (bracket :: brackets, rest) := by
    simp only [passStep, run_bind, started, entered, if_true, run_pure]
  rw [passFrom, step]

theorem passFrom_empty (started : passStart.run input = .ok (some bracket, inner))
    (entered : (enter bracket).run inner = .ok (false, rest)) :
    passFrom brackets input = resume brackets rest := by
  apply passFrom_leave
  simp only [passStep, run_bind, started, entered, Bool.false_eq_true, if_false]

theorem resume_more (more : (goOn bracket).run input = .ok (true, rest)) :
    resume (bracket :: brackets) input = passFrom (bracket :: brackets) rest := by
  simp only [resume, leaveFrom, more]

theorem resume_closed (closed : (goOn bracket).run input = .ok (false, rest)) :
    resume (bracket :: brackets) input = resume brackets rest := by
  simp only [resume, leaveFrom, closed]

end

mutual

/-- However the value is written, the machine resumes behind it. -/
theorem passFrom_value (v : Datum) {bytes blanks rest : Bytes} (rendered : Renders v bytes)
    (all : Blanks blanks) (delimited : Delimited rest) (brackets : List Bracket) :
    passFrom brackets (blanks ++ (bytes ++ rest)) = resume brackets rest := by
  have mark {b : UInt8} (begins : v.Begins b) (other : ∀ numeral, v ≠ .number numeral)
      (more : Bytes) := run_passStart_mark all begins other more
  cases rendered with
  | null =>
    apply passFrom_scalar
    rw [Value.nullWord, List.cons_append, mark rfl (by simp)]
    simp +decide [passAfter, run_bind, run_word]
  | true =>
    apply passFrom_scalar
    rw [Value.trueWord, List.cons_append, mark (.inl rfl) (by simp)]
    simp +decide [passAfter, run_bind, run_word]
  | false =>
    apply passFrom_scalar
    rw [Value.falseWord, List.cons_append, mark (.inr rfl) (by simp)]
    simp +decide [passAfter, run_bind, run_word]
  | number valid =>
    have taken := valid.pass delimited
    obtain ⟨b, more, rfl, digit⟩ := valid.begins
    have visible : isBlank b = false := (Datum.Begins.marked (v := .number []) digit).visible
    apply passFrom_scalar
    simp only [List.cons_append] at taken ⊢
    simp only [passStart, run_bind, run_token_mark all visible, if_pos digit, taken, run_pure]
  | text quoted =>
    obtain ⟨raw, spelled, rfl⟩ := quoted
    apply passFrom_scalar
    rw [List.cons_append, mark rfl (by simp)]
    simp [passAfter, run_bind, passText, passTextFrom_spelled spelled]
  | @list items inner rendered =>
    have started := mark rfl (by simp) (inner ++ rest)
    cases rendered with
    | close blanks =>
      refine passFrom_empty started ?_
      rw [List.append_assoc]
      exact run_enter_close .list blanks rest
    | @item _ v more separator bytes later separates rendered following =>
      obtain ⟨b, tail, rfl, begins⟩ := rendered.begins
      have entered := run_enter_item separates begins (tail ++ (later ++ rest))
      simp only [List.append_assoc, List.cons_append] at started ⊢
      rw [passFrom_opened started entered]
      exact (passFrom_value v rendered blanks_nil (following.delimited rest) _).trans
        (resume_items more following brackets rest)
  | @object members inner rendered =>
    have started := mark rfl (by simp) (inner ++ rest)
    cases rendered with
    | close blanks =>
      refine passFrom_empty started ?_
      rw [List.append_assoc]
      exact run_enter_close .object blanks rest
    | @member _ key v more separator name sign bytes later separates quoted around rendered
        following =>
      obtain ⟨after, between, entered⟩ :=
        run_enter_member separates quoted around (bytes ++ (later ++ rest))
      simp only [List.append_assoc, List.cons_append] at started ⊢
      rw [passFrom_opened started entered]
      exact (passFrom_value v rendered between (following.delimited rest) _).trans
        (resume_members more following brackets rest)

theorem resume_items (items : List Datum) {bytes : Bytes}
    (rendered : RendersItems .false items bytes) (brackets : List Bracket) (rest : Bytes) :
    resume (.list :: brackets) (bytes ++ rest) = resume brackets rest := by
  cases rendered with
  | close blanks =>
    apply resume_closed
    rw [List.append_assoc]
    exact run_goOn_close .list blanks rest
  | @item _ v more separator bytes later separates rendered following =>
    obtain ⟨after, between, goesOn⟩ := run_goOn_item separates (bytes ++ (later ++ rest))
    simp only [List.append_assoc]
    rw [resume_more goesOn]
    exact (passFrom_value v rendered between (following.delimited rest) _).trans
      (resume_items more following brackets rest)

theorem resume_members (members : List (String × Datum)) {bytes : Bytes}
    (rendered : RendersMembers .false members bytes) (brackets : List Bracket) (rest : Bytes) :
    resume (.object :: brackets) (bytes ++ rest) = resume brackets rest := by
  cases rendered with
  | close blanks =>
    apply resume_closed
    rw [List.append_assoc]
    exact run_goOn_close .object blanks rest
  | @member _ key v more separator name sign bytes later separates quoted around rendered
      following =>
    obtain ⟨after, between, goesOn⟩ :=
      run_goOn_member separates quoted around (bytes ++ (later ++ rest))
    simp only [List.append_assoc]
    rw [resume_more goesOn]
    exact (passFrom_value v rendered between (following.delimited rest) _).trans
      (resume_members more following brackets rest)

end

end CredentialGate.Json
