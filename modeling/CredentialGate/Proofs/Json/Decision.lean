import CredentialGate.Json.Record
import CredentialGate.Proofs.Json.Passing

/-! What a reader makes of a value, in whatever text the value stands. It takes every such text or
it refuses every one; so a record may be said to take an object, member by member. -/
namespace CredentialGate.Json

open Reader

/-- Of every text of the value the reader makes this, and leaves what stands behind the value. If it
makes nothing, it refuses every one. -/
def Decides (r : Reader α) (v : Datum) (a? : Option α) : Prop :=
  ∀ blanks bytes rest, Blanks blanks → Renders v bytes → Delimited rest →
    (r.run (blanks ++ (bytes ++ rest))).toOption = a?.map (·, rest)

/-- The same of a reader that is given a member from behind its key. -/
def DecidesMember (r : Reader α) (v : Datum) (a? : Option α) : Prop :=
  ∀ sign bytes rest, Around colonMark sign → Renders v bytes → Delimited rest →
    (r.run (sign ++ (bytes ++ rest))).toOption = a?.map (·, rest)

theorem toOption_bind (r : Reader α) (f : α → Reader β) (input : Bytes) :
    ((r >>= f).run input).toOption =
      (r.run input).toOption.bind fun taken => ((f taken.1).run taken.2).toOption := by
  rw [run_bind]
  cases r.run input <;> rfl

theorem Decides.map {r : Reader α} {v : Datum} {a? : Option α} (decides : Decides r v a?)
    (f : α → β) : Decides (do return f (← r)) v (a?.map f) := by
  intro blanks bytes rest all rendered delimited
  rw [toOption_bind, decides blanks bytes rest all rendered delimited]
  cases a? <;> rfl

theorem whole_toOption {r : Reader α} {v : Datum} {a? : Option α} {input : Bytes}
    (decides : Decides r v a?) (holds : Holds input v) : (whole r input).toOption = a? := by
  obtain ⟨before, bytes, after, first, rendered, second, rfl⟩ := holds
  have delimited : Delimited after := by
    have := delimited_blanks second (.inl rfl)
    rwa [List.append_nil] at this
  have ended : after.dropWhile isBlank = [] := by
    have := dropBlanks_append second []
    rwa [List.append_nil, List.dropWhile_nil] at this
  have taken := decides before bytes after first rendered delimited
  rw [whole, run_bind]
  cases read : r.run (before ++ (bytes ++ after)) with
  | error e =>
    rw [read] at taken
    cases a? with
    | none => rfl
    | some a => cases taken
  | ok out =>
    rw [read] at taken
    cases a? with
    | none => cases taken
    | some a =>
      obtain rfl : out = (a, after) := Option.some.inj taken
      simp [run_bind, ended, Except.map, Except.toOption]

theorem decides_pass (v : Datum) : Decides pass v (some ()) := by
  intro blanks bytes rest all rendered delimited
  rw [show pass.run = passFrom [] from rfl, passFrom_value v rendered all delimited]
  rfl

/-! Values of one kind -/

theorem wrongType_none (input : Bytes) : ((wrongType : Reader α).run input).toOption = none := by
  rw [wrongType, toOption_bind, Option.bind_eq_none_iff]
  intro taken _
  rfl

def Datum.text? : Datum → Option String
  | .text s => some s
  | _ => none

theorem decides_textValue (v : Datum) : Decides textValue v v.text? := by
  intro blanks bytes rest all rendered delimited
  obtain ⟨b, more, shape, begins⟩ := rendered.begins
  have visible := begins.marked.visible
  by_cases quote : b = quoteMark
  · obtain ⟨s, rfl⟩ := begins.marked.text quote
    cases rendered with
    | text quoted =>
      obtain ⟨raw, spelled, rfl⟩ := quoted
      simp [textValue, run_bind, dropBlanks_append all, show isBlank quoteMark = false by decide,
        run_text_spelled spelled, Datum.text?, Except.toOption]
  · subst shape
    have refused : v.text? = none := by
      cases v with
      | text s => exact absurd begins quote
      | _ => rfl
    simp only [textValue, List.cons_append, run_bind, run_token_mark all visible,
      Option.some_inj, if_neg quote, wrongType_none, refused, Option.map_none]

/-- A value that may be null, which stands for none. -/
def Datum.option (means : Datum → Option α) : Datum → Option (Option α)
  | .null => some none
  | v => (means v).map some

theorem Datum.option_of_ne_null {v : Datum} (other : v ≠ .null) (means : Datum → Option α) :
    v.option means = (means v).map some := by
  cases v with
  | null => contradiction
  | _ => rfl

theorem Datum.option_isSome (v : Datum) (means : Datum → Option α) :
    (v.option means).isSome ↔ v = .null ∨ (means v).isSome := by
  by_cases null : v = .null
  · simp [null, option]
  · simp [null, option_of_ne_null null]

/-- Null is not among the values of the option. -/
theorem Datum.option_eq_some {v : Datum} {means : Datum → Option α} (refuses : means .null = none)
    (a : α) : v.option means = some (some a) ↔ means v = some a := by
  by_cases null : v = .null
  · simp [null, option, refuses]
  · simp [option_of_ne_null null]

theorem Datum.text?_eq_some {v : Datum} {s : String} : v.text? = some s ↔ v = .text s := by
  cases v <;> simp [text?]

theorem decides_optionalValue {r : Reader α} {v : Datum} {means : Datum → Option α}
    (decides : v ≠ .null → Decides r v (means v)) :
    Decides (optionalValue r) v (v.option means) := by
  intro blanks bytes rest all rendered delimited
  obtain ⟨b, more, rfl, begins⟩ := rendered.begins
  have visible := begins.marked.visible
  -- The reader looks at one byte only, and no other value begins with that of null.
  by_cases null : b = 0x6E
  · obtain rfl := begins.marked.null null
    have first : isBlank 0x6E = false := by decide
    cases rendered
    simp only [optionalValue, List.cons_append, run_bind, run_token_mark all first, if_true,
      run_next_cons, run_word]
    rfl
  · have other : v ≠ .null := by
      rintro rfl
      exact null begins
    have taken := (decides other).map some [] _ rest blanks_nil rendered delimited
    rw [Datum.option_of_ne_null other, ← taken]
    simp only [optionalValue, List.cons_append, run_bind, run_token_mark all visible,
      Option.some_inj, if_neg null, List.nil_append]

/-- A record is no scalar. -/
theorem decides_record_scalar {fields : List (RecordField σ)} {draft : σ}
    {finish : σ → Except Mismatch α} {v : Datum} (noObject : ∀ members, v ≠ .object members)
    (noList : ∀ items, v ≠ .list items) : Decides (record fields draft finish) v none := by
  intro blanks bytes rest all rendered delimited
  obtain ⟨b, more, rfl, begins⟩ := rendered.begins
  have marked := begins.marked
  have other : b ≠ openObject ∧ b ≠ openList := by
    constructor
    · intro mark
      obtain ⟨members, same⟩ := marked.object mark
      exact noObject members same
    · intro mark
      obtain ⟨items, same⟩ := marked.list mark
      exact noList items same
  simp only [record, List.cons_append, run_bind, run_token_mark all marked.visible,
    if_neg other.1, if_neg other.2, wrongType_none, Option.map_none]

/-! Objects -/

theorem membersFrom_toOption {member : σ → String → Reader σ}
    {step : σ → String × Datum → Option σ} {members : List (String × Datum)}
    (decides : ∀ m ∈ members, ∀ s, DecidesMember (member s m.1) m.2 (step s m)) {first : Bool}
    {bytes : Bytes} (rendered : RendersMembers first members bytes) (s : σ) (rest : Bytes) :
    (membersFrom member first s (bytes ++ rest)).toOption =
      (members.foldlM step s).map (·, closeObject :: rest) := by
  induction members generalizing first bytes s with
  | nil =>
    cases rendered with
    | close all =>
      rw [List.append_assoc, List.singleton_append, membersFrom, run_moreMembers_end first all]
      rfl
  | cons m members ih =>
    cases rendered with
    | @member _ key v _ separator name sign raw later separates quoted around rendered following =>
      obtain ⟨spelling, spelled, rfl⟩ := quoted
      have taken := decides _ List.mem_cons_self s sign raw (later ++ rest) around rendered
        (following.delimited rest)
      simp only [List.append_assoc, List.cons_append, List.nil_append]
      rw [membersFrom, run_moreMembers separates]
      dsimp only
      rw [run_text_spelled spelled]
      dsimp only
      rw [List.foldlM_cons]
      cases next : step s (key, v) with
      | none =>
        rw [next] at taken
        cases read : (member s key).run (sign ++ (raw ++ (later ++ rest))) with
        | error e => rfl
        | ok out => simp [read, Except.toOption] at taken
      | some after =>
        rw [next] at taken
        cases read : (member s key).run (sign ++ (raw ++ (later ++ rest))) with
        | error e => simp [read, Except.toOption] at taken
        | ok out =>
          rw [read] at taken
          -- The member has been read to its end, where the next separator delimits it.
          obtain rfl : out = (after, later ++ rest) := Option.some.inj taken
          exact ih (fun m member => decides m (.tail _ member)) following after

theorem decides_record {fields : List (RecordField σ)} {draft : σ}
    {finish : σ → Except Mismatch α} {step : σ → String × Datum → Option σ}
    {members : List (String × Datum)}
    (decides : ∀ m ∈ members, ∀ s, DecidesMember (readMember fields s m.1) m.2 (step s m)) :
    Decides (record fields draft finish) (.object members)
      ((members.foldlM step draft).bind fun last => (finish last).toOption) := by
  intro blanks bytes rest all rendered delimited
  cases rendered with
  | @object _ inner rendered =>
    have visible : isBlank openObject = false := by decide
    have walked : ((eachMember (readMember fields) true draft).run (inner ++ rest)).toOption =
        (members.foldlM step draft).map (·, closeObject :: rest) :=
      membersFrom_toOption decides rendered draft rest
    rw [record, List.cons_append, run_bind, run_token_mark all visible]
    dsimp only
    rw [if_pos rfl, run_bind, run_next_cons]
    dsimp only
    rw [toOption_bind, walked]
    cases members.foldlM step draft with
    | none => rfl
    | some last =>
      simp only [Option.map_some, Option.bind_some, toOption_bind]
      cases finish last with
      | error kind => rfl
      | ok a => simp [complete, run_endObject, Except.toOption]

end CredentialGate.Json
