import CredentialGate.Proofs.Toml.Reader
import CredentialGate.Toml.Quoted
import Mathlib.Tactic.SplitIfs

/-! A written text is read back in whichever form it is written. The reader of a long text has to
tell the marks of the text from those that close it: no more than two of the former stand in a row,
so three in a row close the text, and marks in front of the last three belong to it. -/
namespace CredentialGate.Toml

open Reader

/-! Escapes -/

/-- The letters name the character behind a backslash, and do not carry a line over its end. -/
structure Names (letters : List Char) (c : Char) : Prop where
  read : ∀ rest, escape.run (letters ++ rest) = some (c, rest)
  stays : ∀ rest, continuesLine (letters ++ rest) = false

theorem names_letter {letter c : Char} (known : unescape? letter = some c)
    (single : digitsBehind? letter = none)
    (visible : isBlank letter = false ∧ letter ≠ '\n' ∧ letter ≠ '\r') : Names [letter] c where
  read rest := by simp [escape, run_bind, single, known]
  stays rest := by
    obtain ⟨dark, noFeed, noReturn⟩ := visible
    simp only [continuesLine, List.singleton_append, List.dropWhile_cons, dark]
    split
    · rename_i same
      exact absurd (List.cons.inj same).1 noFeed
    · rename_i same
      exact absurd (List.cons.inj same).1 noReturn
    · rfl

/-- The digits of a control character. -/
def controlLetters (n : Nat) : List Char := ['u', '0', '0'] ++ Text.upperHex n.toUInt8

theorem controlLetters_value : ∀ n < 0x80,
    (Text.hexNumber? (['0', '0'] ++ Text.upperHex n.toUInt8)).bind character? =
      some (Char.ofNat n) := by
  decide

theorem names_control {c : Char} (small : c.toNat < 0x80) : Names (controlLetters c.toNat) c where
  read rest := by
    have value := controlLetters_value c.toNat small
    rw [Char.ofNat_toNat] at value
    have four := @run_take (['0', '0'] ++ Text.upperHex c.toNat.toUInt8) 4 rfl rest
    have letters : controlLetters c.toNat ++ rest =
        'u' :: (['0', '0'] ++ Text.upperHex c.toNat.toUInt8 ++ rest) := rfl
    simp only [letters, escape, run_bind, run_next_cons, digitsBehind?, four, value, run_ofOption]
  stays rest := by simp +decide [continuesLine, controlLetters]

theorem isControl_small {c : Char} (control : isControl c = true) : c.toNat < 0x80 := by
  simp only [isControl, isPlain, Bool.and_eq_true, Bool.not_eq_true', Bool.or_eq_false_iff,
    Bool.and_eq_false_iff, decide_eq_false_iff_not] at control
  omega

theorem escaped?_names {c : Char} {written : List Char} (escaped : escaped? c = some written) :
    ∃ letters, written = '\\' :: letters ∧ Names letters c := by
  unfold escaped? at escaped
  split_ifs at escaped with backslash backspace tab feed page back control
  all_goals obtain rfl := Option.some.inj escaped
  · subst backslash
    exact ⟨_, rfl, names_letter rfl rfl (by decide)⟩
  · subst backspace
    exact ⟨_, rfl, names_letter rfl rfl (by decide)⟩
  · subst tab
    exact ⟨_, rfl, names_letter rfl rfl (by decide)⟩
  · subst feed
    exact ⟨_, rfl, names_letter rfl rfl (by decide)⟩
  · subst page
    exact ⟨_, rfl, names_letter rfl rfl (by decide)⟩
  · subst back
    exact ⟨_, rfl, names_letter rfl rfl (by decide)⟩
  · exact ⟨_, rfl, names_control (isControl_small control)⟩

/-- What has no escape stands for itself. -/
theorem plain_of_unescaped {c : Char} (unescaped : escaped? c = none) :
    c ≠ '\\' ∧ isPlain c = true := by
  unfold escaped? at unescaped
  split_ifs at unescaped with backslash _ _ feed _ _ control
  refine ⟨backslash, ?_⟩
  simpa [isControl, feed] using control

theorem names_mark : Names ['"'] '"' := names_letter rfl rfl (by decide)

/-! Texts between single marks -/

theorem basicFrom_names {letters : List Char} {c : Char} (names : Names letters c)
    (done rest : List Char) :
    basicFrom done ('\\' :: (letters ++ rest)) = basicFrom (c :: done) rest := by
  rw [basicFrom, names.read rest]

theorem basicFrom_plain {c : Char} (plain : isPlain c = true) (noMark : c ≠ '"')
    (noEscape : c ≠ '\\') (done rest : List Char) :
    basicFrom done (c :: rest) = basicFrom (c :: done) rest := by
  rw [basicFrom]
  · rw [if_pos plain]
  · exact noMark
  · exact noEscape

theorem basicFrom_written (run : Nat) (s done rest : List Char) :
    basicFrom done (writeInner false run s ++ '"' :: rest) =
      some (String.ofList (done.reverse ++ s), rest) := by
  induction s generalizing run done with
  | nil => rw [writeInner, List.nil_append, basicFrom, List.append_nil]
  | cons c s ih =>
    rw [writeInner]
    split_ifs with mark free line
    · exact absurd free (by simp [writeInner.free])
    · subst mark
      have read := basicFrom_names names_mark done (writeInner false 0 s ++ '"' :: rest)
      rw [List.cons_append, List.cons_append]
      refine read.trans ?_
      rw [ih]
      simp
    · exact absurd line.1 (by simp)
    · cases escaped : escaped? c with
      | none =>
        obtain ⟨noEscape, plain⟩ := plain_of_unescaped escaped
        rw [Option.getD_none, List.singleton_append, List.cons_append,
          basicFrom_plain plain mark noEscape, ih]
        simp
      | some written =>
        obtain ⟨letters, rfl, names⟩ := escaped?_names escaped
        rw [Option.getD_some, List.cons_append, List.cons_append, List.append_assoc,
          basicFrom_names names, ih]
        simp

/-! Texts between three marks -/

/-- A mark as it stands in a text: a character of a line that starts no escape. -/
structure IsMark (mark : Char) : Prop where
  plain : isPlain mark = true
  noFeed : mark ≠ '\n'
  noReturn : mark ≠ '\r'
  noEscape : mark ≠ '\\'

theorem isMark_double : IsMark '"' := ⟨by decide, by decide, by decide, by decide⟩

theorem isMark_single : IsMark '\'' := ⟨by decide, by decide, by decide, by decide⟩

/-- How a text is written between three marks, with `run` of its own marks in front: no more than
two in a row stand for themselves. -/
inductive Inner (mark : Char) (escapes : Bool) : Nat → List Char → List Char → Prop
  | done {run : Nat} : Inner mark escapes run [] []
  | mark {run : Nat} {s raw : List Char} :
      run < 2 → Inner mark escapes (run + 1) s raw →
      Inner mark escapes run (mark :: s) (mark :: raw)
  | plain {run : Nat} {c : Char} {s raw : List Char} :
      c ≠ mark → (escapes = true → c ≠ '\\') → (isPlain c = true ∨ c = '\n') →
      Inner mark escapes 0 s raw → Inner mark escapes run (c :: s) (c :: raw)
  | named {run : Nat} {c : Char} {letters s raw : List Char} :
      escapes = true → Names letters c → Inner mark escapes 0 s raw →
      Inner mark escapes run (c :: s) ('\\' :: (letters ++ raw))

section

variable {mark : Char} {escapes : Bool}

/-- The marks that close a text, at the end of a line. -/
def closing (mark : Char) (rest : List Char) : List Char := mark :: mark :: mark :: '\n' :: rest

theorem longFrom_close {k : Nat} (few : k ≤ 2) (isMark : IsMark mark) (done rest : List Char) :
    longFrom mark escapes done (List.replicate k mark ++ closing mark rest) =
      some (String.ofList (done.reverse ++ List.replicate k mark), '\n' :: rest) := by
  have noFeed := isMark.noFeed.symm
  match k, few with
  | 0, _ | 1, _ | 2, _ =>
    simp [closing, longFrom, marks, noFeed, withMarks, List.replicate]

theorem marks_other {c : Char} (other : c ≠ mark) (rest : List Char) :
    marks mark (c :: rest) = 0 := by
  simp [marks, other]

theorem marks_one {c : Char} (other : c ≠ mark) (rest : List Char) :
    marks mark (mark :: c :: rest) = 1 := by
  simp [marks, other]

/-- Behind a mark of its own a text has at most one more in a row, unless it ends with them. -/
theorem Inner.marks_lt {run : Nat} {s raw : List Char} (inner : Inner mark escapes (run + 1) s raw)
    (room : run < 2) (isMark : IsMark mark) (rest : List Char) :
    (∃ k, k + run + 1 ≤ 2 ∧ s = List.replicate k mark ∧ raw = List.replicate k mark) ∨
      marks mark (raw ++ rest) < 2 := by
  cases inner with
  | done => exact .inl ⟨0, by omega, rfl, rfl⟩
  | plain other =>
    rw [List.cons_append, marks_other other]
    exact .inr (by decide)
  | named =>
    rw [List.cons_append, marks_other isMark.noEscape.symm]
    exact .inr (by decide)
  | mark more inner =>
    cases inner with
    | done => exact .inl ⟨1, by omega, rfl, rfl⟩
    | mark further => omega
    | plain other =>
      rw [List.cons_append, List.cons_append, marks_one other]
      exact .inr (by decide)
    | named =>
      rw [List.cons_append, List.cons_append, marks_one isMark.noEscape.symm]
      exact .inr (by decide)

theorem longFrom_inner {run : Nat} {s raw : List Char} (inner : Inner mark escapes run s raw)
    (isMark : IsMark mark) (done rest : List Char) :
    longFrom mark escapes done (raw ++ closing mark rest) =
      some (String.ofList (done.reverse ++ s), '\n' :: rest) := by
  induction inner generalizing done with
  | done =>
    have closed := @longFrom_close mark escapes 0 (by decide) isMark done rest
    simpa using closed
  | @mark run s raw room inner ih =>
    rcases inner.marks_lt room isMark (closing mark rest) with ⟨k, few, rfl, rfl⟩ | goesOn
    · have closed := @longFrom_close mark escapes (k + 1) (by omega) isMark done rest
      simpa [List.replicate_succ] using closed
    · rw [List.cons_append, longFrom, if_neg, if_neg, if_pos, ih]
      · simp
      · exact .inl isMark.plain
      · exact fun both => isMark.noEscape both.2
      · exact fun both => Nat.not_le_of_lt goesOn both.2
  | @plain run c s raw other noEscape plain _ ih =>
    rw [List.cons_append, longFrom, if_neg, if_neg, if_pos plain, ih]
    · simp
    · exact fun both => noEscape both.1 both.2
    · exact fun both => other both.1
  | @named run c letters s raw allowed names _ ih =>
    have stays := names.stays (raw ++ closing mark rest)
    have read := names.read (raw ++ closing mark rest)
    rw [List.cons_append, List.append_assoc, longFrom, if_neg, if_pos ⟨allowed, rfl⟩, if_neg, read]
    · exact (ih (c :: done)).trans (by simp)
    · simp [stays]
    · exact fun both => isMark.noEscape both.1.symm

end

theorem inner_written {run : Nat} (s : List Char) (few : run ≤ 2) :
    Inner '"' true run s (writeInner true run s) := by
  induction s generalizing run with
  | nil => exact .done
  | cons c s ih =>
    rw [writeInner]
    split_ifs with mark free line
    · subst mark
      exact .mark free (ih free)
    · subst mark
      exact .named rfl names_mark (ih (by decide))
    · obtain ⟨-, rfl⟩ := line
      exact .plain mark (fun _ => by decide) (.inr rfl) (ih (by decide))
    · cases escaped : escaped? c with
      | none =>
        obtain ⟨noEscape, plain⟩ := plain_of_unescaped escaped
        exact .plain mark (fun _ => noEscape) (.inl plain) (ih (by decide))
      | some written =>
        obtain ⟨letters, rfl, names⟩ := escaped?_names escaped
        exact .named rfl names (ih (by decide))

theorem le_longestRun (mark : Char) (run : Nat) (s : List Char) : run ≤ longestRun mark run s := by
  induction s generalizing run with
  | nil => exact Nat.le_refl _
  | cons c s ih =>
    rw [longestRun]
    split_ifs
    · exact Nat.le_trans (Nat.le_succ run) (ih (run + 1))
    · exact Nat.le_max_left ..

/-- A text without control characters and with few marks in a row stands for itself. -/
theorem inner_raw {mark : Char} {run : Nat} {s : List Char} (few : longestRun mark run s ≤ 2)
    (visible : ∀ c ∈ s, isControl c = false) : Inner mark false run s s := by
  induction s generalizing run with
  | nil => exact .done
  | cons c s ih =>
    rw [List.forall_mem_cons] at visible
    rw [longestRun] at few
    split_ifs at few with same
    · subst same
      exact .mark (Nat.le_trans (le_longestRun c (run + 1) s) few) (ih few visible.2)
    · have plain : isPlain c = true ∨ c = '\n' := by
        have shown := visible.1
        simp only [isControl, Bool.and_eq_false_iff, Bool.not_eq_false', bne_eq_false_iff_eq]
          at shown
        exact shown
      refine .plain same (by simp) plain (ih ?_ visible.2)
      exact Nat.le_trans (Nat.le_max_right ..) few

/-- A line end in front of a long text is passed over. -/
theorem run_long {mark : Char} {escapes : Bool} {s raw : List Char}
    (inner : Inner mark escapes 0 s raw) (isMark : IsMark mark)
    (starts : '\n' ∉ s → raw.head? ≠ some '\n' ∧ raw.head? ≠ some '\r') (rest : List Char) :
    (long mark escapes).run (Form.write.lineStart s ++ (raw ++ closing mark rest)) =
      some (String.ofList s, '\n' :: rest) := by
  have read := longFrom_inner inner isMark [] rest
  rw [List.reverse_nil, List.nil_append] at read
  by_cases feed : '\n' ∈ s
  · have first := run_goesOn ['\n'] (raw ++ closing mark rest)
    rw [List.singleton_append] at first
    simp [long, Form.write.lineStart, feed, run_bind, first, read]
  · obtain ⟨noFeed, noReturn⟩ := starts feed
    have other (c : Char) (differs : raw.head? ≠ some c) (apart : mark ≠ c) :
        (raw ++ closing mark rest).head? ≠ some c := by
      cases raw with
      | nil => simpa [closing] using apart
      | cons d raw => simpa using differs
    have first := run_goesOn_head (other '\n' noFeed isMark.noFeed) []
    have second := run_goesOn_head (other '\r' noReturn isMark.noReturn) ['\n']
    simp [long, Form.write.lineStart, feed, run_bind, first, second, read]

/-! Texts in every form -/

theorem run_text_long {mark : Char} (isMark : IsMark mark) {s raw : List Char}
    (inner : Inner mark (mark = '"') 0 s raw)
    (starts : '\n' ∉ s → raw.head? ≠ some '\n' ∧ raw.head? ≠ some '\r') (rest : List Char) :
    (text mark).run (mark :: mark :: (Form.write.lineStart s ++ (raw ++ closing mark rest))) =
      some (String.ofList s, '\n' :: rest) := by
  have opened := run_goesOn [mark, mark] (Form.write.lineStart s ++ (raw ++ closing mark rest))
  rw [text, run_bind]
  simp only [List.cons_append, List.nil_append] at opened
  simp only [opened, if_true]
  exact run_long inner isMark starts rest

/-- What is written between double marks starts with no mark. -/
theorem head_writeInner (run : Nat) (c : Char) (s rest : List Char) :
    (writeInner false run (c :: s) ++ rest).head? ≠ some '"' := by
  rw [writeInner]
  split_ifs with mark free line
  · exact absurd free (by simp [writeInner.free])
  · simp
  · exact absurd line.1 (by simp)
  · cases escaped : escaped? c with
    | none => simpa using mark
    | some written =>
      obtain ⟨letters, rfl, -⟩ := escaped?_names escaped
      simp

theorem run_text_basic (s rest : List Char) :
    (text '"').run (writeInner false 0 s ++ '"' :: '\n' :: rest) =
      some (String.ofList s, '\n' :: rest) := by
  have short : (goesOn ['"', '"']).run (writeInner false 0 s ++ '"' :: '\n' :: rest) =
      some (false, writeInner false 0 s ++ '"' :: '\n' :: rest) := by
    cases s with
    | nil => exact run_goesOn_other (by simp [writeInner])
    | cons c s => exact run_goesOn_head (head_writeInner 0 c s _) ['"']
  rw [text, run_bind, short]
  exact basicFrom_written 0 s [] ('\n' :: rest)

theorem run_text_literal {s : List Char} (visible : ∀ c ∈ s, isPlain c = true ∧ c ≠ '\'')
    (rest : List Char) :
    (text '\'').run (s ++ '\'' :: '\n' :: rest) = some (String.ofList s, '\n' :: rest) := by
  have short : (goesOn ['\'', '\'']).run (s ++ '\'' :: '\n' :: rest) =
      some (false, s ++ '\'' :: '\n' :: rest) := by
    cases s with
    | nil => exact run_goesOn_other (by simp)
    | cons c s => exact run_goesOn_head (by simpa using (visible c List.mem_cons_self).2) ['\'']
  have inner : (takeWhile fun c => isPlain c && c != '\'').run (s ++ '\'' :: '\n' :: rest) =
      some (s, '\'' :: '\n' :: rest) :=
    run_takeWhile (fun c member => by simpa using visible c member) (by simp [StopsAt])
  rw [text, run_bind, short]
  simp [shortText, literal, run_bind, inner]

theorem longestRun_pos {mark : Char} {s : List Char} (member : mark ∈ s) (run : Nat) :
    0 < longestRun mark run s := by
  induction s generalizing run with
  | nil => cases member
  | cons c s ih =>
    rw [longestRun]
    split_ifs with same
    · exact Nat.lt_of_lt_of_le (Nat.succ_pos run) (le_longestRun mark (run + 1) s)
    · have later : mark ∈ s := (List.mem_cons.1 member).resolve_left (Ne.symm same)
      exact Nat.lt_of_lt_of_le (ih later 0) (Nat.le_max_right ..)

/-- A long text on one line is written without a line end in front. -/
theorem writeInner_starts (s : List Char) (single : '\n' ∉ s) :
    (writeInner true 0 s).head? ≠ some '\n' ∧ (writeInner true 0 s).head? ≠ some '\r' := by
  cases s with
  | nil => simp [writeInner]
  | cons c s =>
    rw [List.mem_cons, not_or] at single
    rw [writeInner]
    split_ifs with mark free line
    · simp
    · simp
    · exact absurd line.2.symm single.1
    · cases escaped : escaped? c with
      | none =>
        have plain := (plain_of_unescaped escaped).2
        have noReturn : c ≠ '\r' := by
          rintro rfl
          exact absurd plain (by decide)
        simpa using ⟨Ne.symm single.1, noReturn⟩
      | some written =>
        obtain ⟨letters, rfl, -⟩ := escaped?_names escaped
        simp

/-- A written text is one behind a mark, and is read back at the end of a line. -/
structure ReadsQuoted (s : String) (written : List Char) (mark : Char) (inner : List Char) :
    Prop where
  quoted : mark = '"' ∨ mark = '\''
  shape : written = mark :: inner
  read : ∀ rest, (text mark).run (inner ++ '\n' :: rest) = some (s, '\n' :: rest)

theorem readsQuoted_basic (s : List Char) :
    ∃ inner, ReadsQuoted (String.ofList s) (Form.write s .basic) '"' inner := by
  refine ⟨_, .inl rfl, List.cons_append .., fun rest => ?_⟩
  rw [List.append_assoc]
  exact run_text_basic s rest

theorem readsQuoted_longBasic (s : List Char) :
    ∃ inner, ReadsQuoted (String.ofList s) (Form.write s .longBasic) '"' inner := by
  refine ⟨_, .inl rfl, by simp only [Form.write, Form.write.thrice, List.cons_append]; rfl,
    fun rest => ?_⟩
  have read := run_text_long isMark_double (inner_written s (Nat.zero_le 2)) (writeInner_starts s)
    rest
  simpa [closing] using read

theorem readsQuoted_literal {s : List Char} (visible : ∀ c ∈ s, isPlain c = true ∧ c ≠ '\'') :
    ∃ inner, ReadsQuoted (String.ofList s) (Form.write s .literal) '\'' inner := by
  refine ⟨_, .inr rfl, List.cons_append .., fun rest => ?_⟩
  rw [List.append_assoc]
  exact run_text_literal visible rest

theorem readsQuoted_longLiteral {s : List Char} (few : longestRun '\'' 0 s ≤ 2)
    (visible : ∀ c ∈ s, isControl c = false) :
    ∃ inner, ReadsQuoted (String.ofList s) (Form.write s .longLiteral) '\'' inner := by
  refine ⟨_, .inr rfl, by simp only [Form.write, Form.write.thrice, List.cons_append]; rfl,
    fun rest => ?_⟩
  have starts : '\n' ∉ s → s.head? ≠ some '\n' ∧ s.head? ≠ some '\r' := by
    intro single
    refine ⟨fun head => single (List.mem_of_head? head), fun head => ?_⟩
    exact absurd (visible '\r' (List.mem_of_head? head)) (by decide)
  have read := run_text_long isMark_single (inner_raw few visible) starts rest
  simpa [closing] using read

theorem reads_form (s : List Char) :
    ∃ mark inner, ReadsQuoted (String.ofList s) ((Traits.of s).form.write s) mark inner := by
  have controls (free : (Traits.of s).hasControl = false) : ∀ c ∈ s, isControl c = false := by
    simpa [Traits.of] using free
  unfold Traits.form
  split_ifs with basic literal longBasic longLiteral feed
  · exact ⟨'"', readsQuoted_basic s⟩
  · simp only [Bool.and_eq_true, Bool.not_eq_true', beq_iff_eq] at literal
    refine ⟨'\'', readsQuoted_literal fun c member => ⟨?_, ?_⟩⟩
    · have noFeed : '\n' ∉ s := by simpa [Traits.of] using literal.1.1
      have other : c ≠ '\n' := ne_of_mem_of_not_mem member noFeed
      simpa [isControl, other] using controls literal.1.2 c member
    · rintro rfl
      exact absurd literal.2 (Nat.ne_of_gt (longestRun_pos member 0))
  · exact ⟨'"', readsQuoted_longBasic s⟩
  · simp only [Bool.and_eq_true, Bool.not_eq_true', decide_eq_true_eq] at longLiteral
    exact ⟨'\'', readsQuoted_longLiteral longLiteral.2 (controls longLiteral.1)⟩
  · exact ⟨'"', readsQuoted_longBasic s⟩
  · exact ⟨'"', readsQuoted_basic s⟩

/-- Every text is read back from the form that it is written in. -/
theorem reads_quote (s : String) : ∃ mark inner, ReadsQuoted s (quote s) mark inner := by
  have read := reads_form s.toList
  rwa [String.ofList_toList] at read

end CredentialGate.Toml
