import CredentialGate.Proofs.Toml.Quoted
import CredentialGate.Proofs.Toml.Scalar
import CredentialGate.Toml.Writer

/-! A document of flat sections is read as the statements of its sections. Each line is read as
what it says, whatever stands behind it. -/
namespace CredentialGate.Toml

open Reader

/-! Values -/

theorem valueOf_plain {input : List Char}
    (flat : input.head? ≠ some '[' ∧ input.head? ≠ some '\x7B') (depth : Nat) :
    (valueOf depth).run input = plainValue.run input := by
  cases depth with
  | zero => rfl
  | succ depth =>
    rw [valueOf, run_bind, run_peek]
    dsimp only
    split
    · rename_i array
      exact absurd array flat.1
    · rename_i table
      exact absurd table flat.2
    · rfl

theorem plainValue_quoted {s : String} {written inner : List Char} {mark : Char}
    (quoted : ReadsQuoted s written mark inner) (rest : List Char) :
    plainValue.run (written ++ '\n' :: rest) = some (.text s, '\n' :: rest) := by
  obtain ⟨mark, rfl, read⟩ := quoted
  rcases mark with rfl | rfl
  · simp [plainValue, run_bind, read rest]
  · simp [plainValue, run_bind, read rest]

theorem isDigit_isWordChar {c : Char} (digit : c.isDigit = true) : isWordChar c = true := by
  simp [isWordChar, Char.isAlphanum, digit]

theorem run_word {digits : List Char} (all : IsDigits digits) (rest : List Char) :
    word.run (digits ++ '\n' :: rest) = some (digits, '\n' :: rest) := by
  have taken := @run_takeWhile isWordChar digits ('\n' :: rest)
    (fun c member => isDigit_isWordChar (all.all c member)) rfl
  simp only [takeWhile, Option.some_inj, Prod.mk.injEq] at taken
  simp [word, taken.1, taken.2, continuesDate]

theorem plainValue_scalar {c : Char} (noMark : c ≠ '"' ∧ c ≠ '\'') (rest : List Char) :
    plainValue.run (c :: rest) = scalar.run (c :: rest) := by
  rw [plainValue, run_bind, run_peek]
  dsimp only
  split
  · rename_i double
    exact absurd (Option.some.inj double) noMark.1
  · rename_i single
    exact absurd (Option.some.inj single) noMark.2
  · rfl

theorem run_scalar (n : Nat) (rest : List Char) :
    scalar.run (Nat.toDigits 10 n ++ '\n' :: rest) = some (.integer n, '\n' :: rest) := by
  rw [scalar, run_bind, run_word (isDigits_toDigits n)]
  simp [scalar?_toDigits]

theorem toDigits_starts (n : Nat) :
    ∃ c more, Nat.toDigits 10 n = c :: more ∧ c.isDigit = true := by
  have digits := isDigits_toDigits n
  obtain ⟨c, more, spelled⟩ := List.exists_cons_of_ne_nil digits.filled
  exact ⟨c, more, spelled, digits.all c (by simp [spelled])⟩

/-- No value starts with a blank or with a mark of an array or a table. -/
theorem Datum.write_starts (datum : Datum) : ∃ c more, datum.write = c :: more ∧
    isBlank c = false ∧ c ≠ '[' ∧ c ≠ '\x7B' := by
  cases datum with
  | text s =>
    obtain ⟨mark, inner, read⟩ := reads_quote s
    refine ⟨mark, inner, read.shape, ?_⟩
    rcases read.quoted with rfl | rfl <;> decide
  | natural n =>
    obtain ⟨c, more, spelled, digit⟩ := toDigits_starts n
    refine ⟨c, more, spelled, ?_⟩
    have other (d : Char) (mark : d.isDigit = false) : c ≠ d := by
      rintro rfl
      simp [digit] at mark
    simp [isBlank, other ' ' rfl, other '\t' rfl, other '[' rfl, other '\x7B' rfl]

theorem Datum.write_visible (datum : Datum) (rest : List Char) :
    StopsAt isBlank (datum.write ++ rest) := by
  obtain ⟨c, more, spelled, visible, -⟩ := datum.write_starts
  simp [StopsAt, spelled, visible]

/-- A written value is read back at the end of its line. -/
theorem run_value (datum : Datum) (rest : List Char) :
    value.run (datum.write ++ '\n' :: rest) = some (datum.value, '\n' :: rest) := by
  have flat : (datum.write ++ '\n' :: rest).head? ≠ some '[' ∧
      (datum.write ++ '\n' :: rest).head? ≠ some '\x7B' := by
    obtain ⟨c, more, spelled, -, noArray, noTable⟩ := datum.write_starts
    simp [spelled, noArray, noTable]
  rw [value, valueOf_plain flat]
  cases datum with
  | text s =>
    obtain ⟨mark, inner, read⟩ := reads_quote s
    exact plainValue_quoted read rest
  | natural n =>
    obtain ⟨c, more, spelled, digit⟩ := toDigits_starts n
    have noMark : c ≠ '"' ∧ c ≠ '\'' := by
      constructor <;> rintro rfl <;> exact absurd digit (by decide)
    have read := run_scalar n rest
    rw [spelled, List.cons_append] at read
    rw [Datum.write, spelled, List.cons_append, plainValue_scalar noMark, read]
    rfl

/-! Keys -/

/-- A word that stands as a part of a key without marks. -/
structure Bare (s : String) : Prop where
  filled : s ≠ ""
  all : ∀ c ∈ s.toList, isBareKeyChar c = true

instance (s : String) : Decidable (Bare s) :=
  decidable_of_iff (s ≠ "" ∧ s.toList.all isBareKeyChar = true)
    ⟨fun ⟨filled, all⟩ => ⟨filled, List.all_eq_true.1 all⟩,
      fun ⟨filled, all⟩ => ⟨filled, List.all_eq_true.2 all⟩⟩

theorem isBareKeyChar_other {c d : Char} (bare : isBareKeyChar c = true)
    (other : isBareKeyChar d = false) : c ≠ d := by
  rintro rfl
  simp [bare] at other

theorem Bare.starts {s : String} (bare : Bare s) :
    ∃ c more, s.toList = c :: more ∧ isBareKeyChar c = true := by
  obtain ⟨c, more, spelled⟩ := List.exists_cons_of_ne_nil
    (mt String.toList_eq_nil_iff.1 bare.filled)
  exact ⟨c, more, spelled, bare.all c (by simp [spelled])⟩

theorem run_keyPart {s : String} (bare : Bare s) {rest : List Char}
    (stops : StopsAt isBareKeyChar rest) : keyPart.run (s.toList ++ rest) = some (s, rest) := by
  have taken := run_takeWhile bare.all stops
  obtain ⟨c, more, spelled, first⟩ := bare.starts
  rw [keyPart, run_bind, run_peek]
  dsimp only
  split
  · rename_i double
    simp only [spelled, List.cons_append, List.head?_cons, Option.some_inj] at double
    exact absurd double (isBareKeyChar_other first rfl)
  · rename_i single
    simp only [spelled, List.cons_append, List.head?_cons, Option.some_inj] at single
    exact absurd single (isBareKeyChar_other first rfl)
  · simp [run_bind, taken, bare.filled]

/-- What may stand behind a key: blanks, and then nothing that could belong to it. -/
structure EndsKey (pad rest : List Char) : Prop where
  blank : ∀ c ∈ pad, isBlank c = true
  visible : StopsAt isBlank rest
  noKey : StopsAt isBareKeyChar (pad ++ rest)
  noDot : rest.head? ≠ some '.'

/-- The parts of a key with a dot between two of them. -/
def dotted : List String → String → List Char
  | [], last => last.toList
  | part :: path, last => part.toList ++ '.' :: dotted path last

theorem joined_dotted (path : List String) (last : String) :
    (".".intercalate (path ++ [last])).toList = dotted path last := by
  rw [String.toList_intercalate]
  induction path with
  | nil => simp [dotted, List.intercalate]
  | cons part path ih =>
    obtain ⟨next, more, behind⟩ := List.exists_cons_of_ne_nil (List.concat_ne_nil last path)
    rw [List.cons_append, List.map_cons, dotted, ← ih, behind, List.map_cons,
      List.intercalate_cons_cons, List.append_assoc]
    rfl

theorem dotted_starts {path : List String} {last : String} (bare : ∀ s ∈ path ++ [last], Bare s) :
    ∃ c more, dotted path last = c :: more ∧ isBareKeyChar c = true := by
  cases path with
  | nil => exact (bare last (by simp)).starts
  | cons part path =>
    obtain ⟨c, more, spelled, first⟩ := (bare part (by simp)).starts
    exact ⟨c, _, by rw [dotted, spelled, List.cons_append], first⟩

theorem visible_bare {c : Char} (bare : isBareKeyChar c = true) : isBlank c = false := by
  have noSpace := @isBareKeyChar_other c ' ' bare rfl
  have noTab := @isBareKeyChar_other c '\t' bare rfl
  simp [isBlank, noSpace, noTab]

theorem dotted_visible {path : List String} {last : String} (bare : ∀ s ∈ path ++ [last], Bare s)
    (rest : List Char) : StopsAt isBlank (dotted path last ++ rest) := by
  obtain ⟨c, more, spelled, first⟩ := dotted_starts bare
  simp [StopsAt, spelled, visible_bare first]

theorem run_keyOf {path : List String} {last : String} (bare : ∀ s ∈ path ++ [last], Bare s)
    {limit : Nat} (short : path.length < limit) {pad rest : List Char} (ends : EndsKey pad rest) :
    (keyOf limit).run (dotted path last ++ (pad ++ rest)) = some (⟨path, last⟩, rest) := by
  induction path generalizing limit with
  | nil =>
    obtain ⟨limit, rfl⟩ := Nat.exists_eq_add_one_of_ne_zero (Nat.ne_zero_of_lt short)
    have part := run_keyPart (bare last (by simp)) ends.noKey
    have passed := run_blanks ends.blank ends.visible
    simp [keyOf, run_bind, dotted, part, passed, run_goesOn_head ends.noDot]
  | cons part path ih =>
    obtain ⟨limit, rfl⟩ := Nat.exists_eq_add_one_of_ne_zero (Nat.ne_zero_of_lt short)
    rw [List.cons_append, List.forall_mem_cons] at bare
    have part := @run_keyPart part bare.1 ('.' :: (dotted path last ++ (pad ++ rest))) rfl
    have read := ih bare.2 (Nat.lt_of_succ_lt_succ short)
    have before := @run_blanks_none ('.' :: (dotted path last ++ (pad ++ rest))) rfl
    have dot : (goesOn ['.']).run ('.' :: (dotted path last ++ (pad ++ rest))) = _ :=
      run_goesOn ['.'] _
    have behind := run_blanks_none (dotted_visible bare.2 (pad ++ rest))
    simp [keyOf, run_bind, dotted, part, before, dot, behind, read]

/-! Lines -/

theorem run_lineEnd (rest : List Char) : lineEnd.run ('\n' :: rest) = some ((), rest) := by
  have passed := @run_blanks_none ('\n' :: rest) rfl
  simp [lineEnd, run_bind, passed, lineBreak]

/-- A line that is read as what it says, whatever stands behind it. -/
structure Says (written : List Char) (said? : Option Statement) : Prop where
  filled : written ≠ []
  read : ∀ rest, line.run (written ++ rest) = some (said?, rest)

theorem Says.of_statement {written : List Char} {said? : Option Statement}
    (read : ∀ rest, statement.run (written ++ '\n' :: rest) = some (said?, '\n' :: rest)) :
    Says (written ++ ['\n']) said? where
  filled := by simp
  read rest := by
    rw [List.append_assoc, List.singleton_append, line, run_bind, read rest]
    simp [run_bind, run_lineEnd]

theorem says_nothing : Says ['\n'] none := by
  refine @Says.of_statement [] none fun rest => ?_
  have passed := @run_blanks_none ('\n' :: rest) rfl
  simp [statement, run_bind, passed]

theorem run_assignment {key : String} (bare : Bare key) (datum : Datum) (rest : List Char) :
    (assignment value).run (key.toList ++ ' ' :: '=' :: ' ' :: (datum.write ++ '\n' :: rest)) =
      some ((⟨[], key⟩, datum.value), '\n' :: rest) := by
  have ends : EndsKey [' '] ('=' :: ' ' :: (datum.write ++ '\n' :: rest)) :=
    ⟨by simp [isBlank], rfl, rfl, by simp⟩
  have name := @run_keyOf [] key (by simpa using bare) greatestDepth (by decide) _ _ ends
  have sign : (goesOn ['=']).run ('=' :: ' ' :: (datum.write ++ '\n' :: rest)) = _ :=
    run_goesOn ['='] _
  have passed := @run_blanks [' '] (datum.write ++ '\n' :: rest) (by simp [isBlank])
    (datum.write_visible _)
  rw [dotted, List.singleton_append] at name
  rw [List.singleton_append] at passed
  simp [assignment, run_bind, Toml.key, name, sign, passed, run_value]

/-- A line that starts with a bare key is an assignment. -/
theorem run_statement_bare {c : Char} {more rest : List Char} (bare : isBareKeyChar c = true)
    {key : Key} {v : Value} (read : (assignment value).run (c :: more) = some ((key, v), rest)) :
    statement.run (c :: more) = some (some (.assign key v), rest) := by
  have passed := @run_blanks_none (c :: more) (visible_bare bare)
  have other (d : Char) (mark : isBareKeyChar d = false) : ¬ some c = some d := fun same =>
    isBareKeyChar_other bare mark (Option.some.inj same)
  rw [statement, run_bind, passed]
  dsimp only
  rw [run_bind, run_peek]
  dsimp only [List.head?_cons]
  split
  · contradiction
  · exact absurd ‹_› (other '#' rfl)
  · exact absurd ‹_› (other '\n' rfl)
  · exact absurd ‹_› (other '\r' rfl)
  · exact absurd ‹_› (other '[' rfl)
  · rw [run_bind, read]
    rfl

theorem says_entry {key : String} (bare : Bare key) (datum : Datum) :
    Says (Section.writeEntry key datum) (some (.assign ⟨[], key⟩ datum.value)) := by
  refine Says.of_statement fun rest => ?_
  obtain ⟨c, more, spelled, first⟩ := bare.starts
  have read := run_assignment bare datum rest
  simp only [spelled, List.cons_append, List.nil_append, List.append_assoc] at read ⊢
  exact run_statement_bare first read

/-- What a header may be: bare words, no more of them than a key may have. -/
structure Key.Plain (key : Key) : Prop where
  bare : ∀ part ∈ key.parts, Bare part
  short : key.path.length < greatestDepth

/-- A line that starts with one bracket and a bare key is the header of a table. -/
theorem run_statement_header {c : Char} {more rest : List Char} {key : Key}
    (bare : isBareKeyChar c = true)
    (read : Toml.key.run (c :: more) = some (key, ']' :: rest)) :
    statement.run ('[' :: c :: more) = some (some (.table key), rest) := by
  have bracket := @run_blanks_none ('[' :: c :: more) rfl
  have passed := @run_blanks_none (c :: more) (visible_bare bare)
  have single : (goesOn ['[', '[']).run ('[' :: c :: more) = some (false, '[' :: c :: more) := by
    have other : '[' ≠ c := (isBareKeyChar_other bare rfl).symm
    exact run_goesOn_other (by simp [other])
  have close : (goesOn [']']).run (']' :: rest) = some (true, rest) := run_goesOn [']'] rest
  simp [statement, run_bind, bracket, single, passed, read, close]

theorem says_header {s : Section} (plain : s.header.Plain) :
    Says s.writeHeader (some (.table s.header)) := by
  have bracketed :
      s.writeHeader = '[' :: dotted s.header.path s.header.last ++ [']'] ++ ['\n'] := by
    rw [← joined_dotted]
    simp [Section.writeHeader, Key.parts]
  rw [bracketed]
  refine Says.of_statement fun rest => ?_
  have ends : EndsKey [] (']' :: '\n' :: rest) := ⟨by simp, rfl, rfl, by simp⟩
  have read := run_keyOf plain.bare plain.short ends
  obtain ⟨c, more, spelled, first⟩ := dotted_starts plain.bare
  simp only [spelled, List.cons_append, List.nil_append, List.append_assoc] at read ⊢
  exact run_statement_header first read

/-! Documents -/

theorem statementsFrom_nil (done : List Statement) :
    statementsFrom done [] = some done.reverse := by
  rw [statementsFrom]
  rfl

theorem Says.step {written : List Char} {said? : Option Statement} (reads : Says written said?)
    (done : List Statement) (rest : List Char) :
    statementsFrom done (written ++ rest) = statementsFrom (said?.toList ++ done) rest := by
  have filled : ¬ (written ++ rest).isEmpty := by simp [reads.filled]
  have shorter : rest.length < (written ++ rest).length := by
    simpa using List.length_pos_iff.2 reads.filled
  rw [statementsFrom, if_neg filled, reads.read rest]
  exact dif_pos shorter

theorem statementsFrom_entries {entries : List (String × Datum)}
    (bare : ∀ e ∈ entries, Bare e.1) (done : List Statement) (rest : List Char) :
    statementsFrom done
        (entries.flatMap (fun (key, datum) => Section.writeEntry key datum) ++ rest) =
      statementsFrom
        ((entries.map fun (key, datum) => .assign ⟨[], key⟩ datum.value).reverse ++ done) rest := by
  induction entries generalizing done with
  | nil => rfl
  | cons e entries ih =>
    rw [List.forall_mem_cons] at bare
    rw [List.flatMap_cons, List.append_assoc, (says_entry bare.1 e.2).step, ih bare.2]
    simp

/-- A section that is written without marks about its words. -/
structure Section.Plain (s : Section) : Prop where
  header : s.header.Plain
  entries : ∀ e ∈ s.entries, Bare e.1

theorem statementsFrom_section {s : Section} (plain : s.Plain) (done : List Statement)
    (rest : List Char) :
    statementsFrom done (s.write ++ rest) = statementsFrom (s.statements.reverse ++ done) rest := by
  rw [Section.write, List.append_assoc, (says_header plain.header).step,
    statementsFrom_entries plain.entries]
  simp [Section.statements]

theorem statementsFrom_sections {sections : List Section} (plain : ∀ s ∈ sections, s.Plain)
    (done : List Statement) :
    statementsFrom done (writeSections sections) =
      some (done.reverse ++ sections.flatMap Section.statements) := by
  fun_induction writeSections sections generalizing done with
  | case1 => simp [statementsFrom_nil]
  | case2 s =>
    have read := statementsFrom_section (plain s (by simp)) done []
    rw [List.append_nil, statementsFrom_nil] at read
    simpa using read
  | case3 s more several ih =>
    rw [List.forall_mem_cons] at plain
    rw [statementsFrom_section plain.1, ← List.singleton_append, says_nothing.step, ih plain.2]
    simp

theorem writeSections_unmarked (sections : List Section) :
    (writeSections sections).head? ≠ some byteOrderMark := by
  have other : '[' ≠ byteOrderMark := by decide
  fun_cases writeSections sections with
  | case1 => simp
  | case2 s => simpa [Section.write, Section.writeHeader] using other
  | case3 s more several => simpa [Section.write, Section.writeHeader] using other

/-- A written document is read as what its sections say. -/
theorem read?_writeSections {sections : List Section} (plain : ∀ s ∈ sections, s.Plain)
    {draft : Draft}
    (built : (sections.flatMap Section.statements).foldlM Draft.take? Draft.start = some draft) :
    read? (String.ofList (writeSections sections)) = some draft.root := by
  have read := statementsFrom_sections plain []
  rw [List.reverse_nil, List.nil_append] at read
  simp [read?, writeSections_unmarked, read, built]

end CredentialGate.Toml
