import CredentialGate.Proofs.Json.Positional
import CredentialGate.Proofs.Json.Written

/-! Values that are kept as they are written. Whatever its text, a value is read to its end and
kept, unless it nests too deep. -/
namespace CredentialGate.Json

open Reader

/-- The value opens brackets inside each other at most so often. -/
def Datum.fits : Nat → Datum → Bool
  | 0, .list _ | 0, .object _ => false
  | n + 1, .list items => items.all (fits n)
  | n + 1, .object members => members.all fun m => fits n m.2
  | _, _ => true

mutual

/-- What a value stands for if its numbers are integers and the members of its objects, whose values
have been taken first, are put together by `gather`. -/
def Datum.value (gather : Members → Members) : Datum → Value
  | .null => .null
  | .bool b => .bool b
  | .number numeral => .number (.integer (integerOf numeral))
  | .text s => .text s
  | .list items => .list (itemValues gather items)
  | .object members => .object (gather (memberValues gather members))

def itemValues (gather : Members → Members) : List Datum → List Value
  | [] => []
  | v :: more => v.value gather :: itemValues gather more

def memberValues (gather : Members → Members) : List (String × Datum) → Members
  | [] => []
  | (key, v) :: more => (key, v.value gather) :: memberValues gather more

end

theorem itemValues_eq (gather : Members → Members) (items : List Datum) :
    itemValues gather items = items.map (Datum.value gather) := by
  induction items with
  | nil => rfl
  | cons v items ih => rw [itemValues, ih, List.map_cons]

theorem memberValues_eq (gather : Members → Members) (members : List (String × Datum)) :
    memberValues gather members = members.map fun m => (m.1, m.2.value gather) := by
  induction members with
  | nil => rfl
  | cons m members ih => rw [memberValues, ih, List.map_cons]

/-- The value with its members in the order of the text. -/
abbrev Datum.written : Datum → Value := value id

/-! Walks -/

theorem laterItems_toOption {item : σ → Reader σ} {step : σ → Datum → Option σ}
    {items : List Datum} (decides : ∀ v ∈ items, ∀ s, Decides (item s) v (step s v)) {bytes : Bytes}
    (rendered : RendersItems false items bytes) (s : σ) (rest : Bytes) :
    (laterItems item s (bytes ++ rest)).toOption =
      (items.foldlM step s).map (·, closeList :: rest) := by
  induction items generalizing bytes s with
  | nil =>
    cases rendered with
    | close all =>
      rw [List.append_assoc, List.singleton_append, laterItems, run_moreItems_end false all]
      rfl
  | cons v items ih =>
    cases rendered with
    | @item _ _ _ separator raw later separates rendered following =>
      have taken := decides v List.mem_cons_self s [] raw (later ++ rest) blanks_nil rendered
        (following.delimited rest)
      simp only [List.append_assoc, List.nil_append] at taken ⊢
      rw [laterItems, run_moreItems separates rendered.opens]
      dsimp only
      rw [List.foldlM_cons]
      cases next : step s v with
      | none =>
        rw [next] at taken
        cases read : (item s).run (raw ++ (later ++ rest)) with
        | error e => rfl
        | ok out => simp [read, Except.toOption] at taken
      | some after =>
        rw [next] at taken
        cases read : (item s).run (raw ++ (later ++ rest)) with
        | error e => simp [read, Except.toOption] at taken
        | ok out =>
          rw [read] at taken
          obtain rfl : out = (after, later ++ rest) := Option.some.inj taken
          exact ih (fun w member => decides w (.tail _ member)) following after

theorem eachItem_toOption {item : σ → Reader σ} {step : σ → Datum → Option σ}
    {items : List Datum} (decides : ∀ v ∈ items, ∀ s, Decides (item s) v (step s v)) {bytes : Bytes}
    (rendered : RendersItems true items bytes) (s : σ) (rest : Bytes) :
    ((eachItem item s).run (bytes ++ rest)).toOption =
      (items.foldlM step s).map (·, closeList :: rest) := by
  cases rendered with
  | close all =>
    rw [List.append_assoc, List.singleton_append, eachItem, run_bind, run_moreItems_end true all]
    rfl
  | @item _ v more separator raw later separates rendered following =>
    have taken := decides v List.mem_cons_self s [] raw (later ++ rest) blanks_nil rendered
      (following.delimited rest)
    have walked (after : σ) : (laterItems item after (later ++ rest)).toOption =
        (more.foldlM step after).map (·, closeList :: rest) :=
      laterItems_toOption (fun w member => decides w (.tail _ member)) following after rest
    simp only [List.append_assoc, List.nil_append] at taken ⊢
    rw [eachItem, run_bind, run_moreItems separates rendered.opens]
    dsimp only
    rw [if_pos rfl, toOption_bind, taken, List.foldlM_cons]
    cases step s v with
    | none => rfl
    | some after => exact walked after

theorem Decides.behindColon {r : Reader α} {v : Datum} {a? : Option α} (decides : Decides r v a?) :
    DecidesMember (do colon; r) v a? := by
  intro sign bytes rest around rendered delimited
  obtain ⟨after, blanks, behind⟩ := run_colon_around around (bytes ++ rest)
  rw [toOption_bind, behind]
  exact decides after bytes rest blanks rendered delimited

/-- A walk that keeps everything, unless there is something that it must not keep. -/
theorem foldlM_keep (p : α → Bool) (f : α → β) (all : List α) (done : List β) :
    all.foldlM (fun done a => if p a then some (f a :: done) else none) done =
      if all.all p then some ((all.map f).reverse ++ done) else none := by
  induction all generalizing done with
  | nil => rfl
  | cons a all ih =>
    rw [List.foldlM_cons]
    cases kept : p a with
    | false => simp [kept]
    | true => simp [kept, ih]

/-! Values -/

section

variable {list object : Reader Value} {v : Datum}

/-- Scalars are kept whatever brackets would be read. -/
theorem decides_scalarOr (integral : v.Integral) (noList : ∀ items, v ≠ .list items)
    (noObject : ∀ members, v ≠ .object members) :
    Decides (scalarOr list object) v (some v.written) := by
  intro blanks bytes rest all rendered delimited
  cases rendered with
  | list => exact absurd rfl (noList _)
  | object => exact absurd rfl (noObject _)
  | null =>
    simp +decide [scalarOr, Value.nullWord, run_bind, dropBlanks_append all, run_word,
      Datum.value, Except.toOption]
  | true =>
    simp +decide [scalarOr, Value.trueWord, run_bind, dropBlanks_append all, run_word,
      Datum.value, Except.toOption]
  | false =>
    simp +decide [scalarOr, Value.falseWord, run_bind, dropBlanks_append all, run_word,
      Datum.value, Except.toOption]
  | number valid =>
    obtain ⟨n, bits, rfl⟩ := Datum.integral_number.1 integral
    have read := bits.run delimited
    obtain ⟨b, more, begun, begins⟩ := valid.begins
    have marked : Datum.Marked _ b := Datum.Begins.marked (v := .number (Number.integer n).write)
      begins
    have noBracket : b ≠ openList ∧ b ≠ openObject :=
      ⟨fun mark => by simpa using marked.list mark, fun mark => by simpa using marked.object mark⟩
    rw [show (Datum.number (Number.integer n).write).written = .number (.integer n) by
      simp [Datum.value, integerOf_write], begun]
    rw [begun, List.cons_append] at read
    simp [scalarOr, run_bind, dropBlanks_append all, marked.visible, noBracket, begins, read,
      Except.toOption]
  | text quoted =>
    obtain ⟨raw, spelled, rfl⟩ := quoted
    simp +decide [scalarOr, run_bind, dropBlanks_append all, run_text_spelled spelled, Datum.value,
      Except.toOption]

theorem run_scalarOr_list {blanks : Bytes} (all : Blanks blanks) (rest : Bytes) :
    (scalarOr list object).run (blanks ++ openList :: rest) = list.run (openList :: rest) := by
  simp +decide [scalarOr, run_bind, dropBlanks_append all]

theorem run_scalarOr_object {blanks : Bytes} (all : Blanks blanks) (rest : Bytes) :
    (scalarOr list object).run (blanks ++ openObject :: rest) =
      object.run (openObject :: rest) := by
  simp +decide [scalarOr, run_bind, dropBlanks_append all]

end

theorem decides_listValue {item : Reader Value} {items : List Datum} {p : Datum → Bool}
    {object : Reader Value}
    (decides : ∀ v ∈ items, Decides item v (if p v then some v.written else none)) :
    Decides (scalarOr (listValue item) object) (.list items)
      (if items.all p then some (Datum.list items).written else none) := by
  intro blanks bytes rest all rendered delimited
  cases rendered with
  | @list _ inner rendered =>
    have steps : ∀ v ∈ items, ∀ done : List Value, Decides (do return (← item) :: done) v
        (if p v then some (v.written :: done) else none) := by
      intro v member done
      have kept := (decides v member).map (· :: done)
      rwa [apply_ite (Option.map _)] at kept
    have walked := eachItem_toOption steps rendered [] rest
    rw [foldlM_keep p Datum.written] at walked
    rw [List.cons_append, run_scalarOr_list all, listValue, run_bind, run_next_cons]
    dsimp only
    rw [toOption_bind, walked]
    have closed := run_endList blanks_nil rest
    rw [List.nil_append] at closed
    split
    · simp [run_bind, closed, Datum.value, itemValues_eq, Except.toOption]
    · rfl

theorem decides_asWritten {item list : Reader Value} {members : List (String × Datum)}
    {p : Datum → Bool}
    (decides : ∀ m ∈ members, Decides item m.2 (if p m.2 then some m.2.written else none)) :
    Decides (scalarOr list (do let _ ← next; asWritten item)) (.object members)
      (if members.all (p ·.2) then some (Datum.object members).written else none) := by
  intro blanks bytes rest all rendered delimited
  cases rendered with
  | @object _ inner rendered =>
    have steps : ∀ m ∈ members, ∀ done : Members,
        DecidesMember (do colon; return (m.1, ← item) :: done) m.2
          (if p m.2 then some ((m.1, m.2.written) :: done) else none) := by
      intro m member done
      have kept := ((decides m member).map fun v => (m.1, v) :: done).behindColon
      rwa [apply_ite (Option.map _)] at kept
    have walked : ((eachMember (fun done key => do
        colon
        return (key, ← item) :: done) true []).run (inner ++ rest)).toOption = _ :=
      membersFrom_toOption steps rendered [] rest
    rw [foldlM_keep (fun m : String × Datum => p m.2) fun m => (m.1, m.2.written)] at walked
    rw [List.cons_append, run_scalarOr_object all, run_bind, run_next_cons]
    dsimp only
    rw [asWritten, toOption_bind, walked]
    split
    · simp [run_bind, run_endObject, Datum.value, memberValues_eq, Except.toOption]
    · rfl

theorem decides_value (n : Nat) {v : Datum} (integral : v.Integral) :
    Decides (value asWritten n) v (if v.fits n then some v.written else none) := by
  induction n generalizing v with
  | zero =>
    cases v with
    | list items =>
      intro blanks bytes rest all rendered delimited
      cases rendered with
      | list =>
        rw [List.cons_append, value, run_scalarOr_list all]
        rfl
    | object members =>
      intro blanks bytes rest all rendered delimited
      cases rendered with
      | object =>
        rw [List.cons_append, value, run_scalarOr_object all]
        rfl
    | _ => exact decides_scalarOr integral (by simp) (by simp)
  | succ n ih =>
    cases v with
    | list items =>
      exact decides_listValue fun v member => ih (Datum.integral_list.1 integral v member)
    | object members =>
      exact decides_asWritten fun m member => ih (Datum.integral_object.1 integral m member)
    | _ => exact decides_scalarOr integral (by simp) (by simp)

end CredentialGate.Json
