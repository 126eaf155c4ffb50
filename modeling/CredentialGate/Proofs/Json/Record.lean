import CredentialGate.Json.Record
import CredentialGate.Proofs.Json.Walk

/-! Values and records are read back from their written forms. A record that is written as an
object is read back as soon as each of its members is known and sets a field of its own. -/
namespace CredentialGate.Json

open Reader

theorem whole_of_reads {r : Reader α} {bytes : Bytes} {a : α} (taken : Reads r bytes a) :
    whole r bytes = .ok a := by
  have h := taken [] (.inl rfl)
  rw [List.append_nil] at h
  simp [whole, run_bind, h, Except.map]

theorem reads_textValue (s : String) : Reads textValue (quote s) s := by
  intro rest _
  have visible : isBlank quoteMark = false := by decide
  simp only [textValue, quote, run_bind, List.cons_append, List.append_assoc, List.nil_append,
    run_token, dropBlanks_cons visible, List.head?_cons, if_true, run_next_cons, run_text]

theorem opens_quote (s : String) : Opens (quote s) :=
  ⟨quoteMark, _, by simp only [quote, List.cons_append]; rfl, by decide, by decide⟩

theorem reads_boolValue (b : Bool) : Reads boolValue (Value.bool b).write b := by
  intro rest _
  cases b
  · simp +decide [boolValue, Value.write, Value.falseWord, run_bind, run_word]
  · simp +decide [boolValue, Value.write, Value.trueWord, run_bind, run_word]

theorem reads_optionalValue_null (r : Reader α) :
    Reads (optionalValue r) Value.null.write none := by
  intro rest _
  simp +decide [optionalValue, Value.write, Value.nullWord, run_bind, run_word]

theorem reads_optionalValue {r : Reader α} {b : UInt8} {more bytes : Bytes} {a : α}
    (shape : bytes = b :: more) (visible : isBlank b = false) (notNull : b ≠ 0x6E)
    (taken : Reads r bytes a) : Reads (optionalValue r) bytes (some a) := by
  subst shape
  intro rest delimited
  have h := taken rest delimited
  rw [List.cons_append] at h
  simp [optionalValue, run_bind, visible, notNull, h]

theorem reads_optionalText (s? : Option String) :
    Reads (optionalValue textValue) (Value.optional s?).write s? := by
  cases s? with
  | none => exact reads_optionalValue_null textValue
  | some s =>
    exact reads_optionalValue (List.cons_append ..) (by decide) (by decide) (reads_textValue s)

/-- A text or null is read as it is written, whatever brackets would be read. -/
theorem reads_scalarOr (list object : Reader Value) (s? : Option String) :
    Reads (scalarOr list object) (Value.optional s?).write (.optional s?) := by
  intro rest _
  cases s? with
  | none => simp +decide [scalarOr, Value.optional, Value.write, Value.nullWord, run_bind, run_word]
  | some s =>
    simp +decide [scalarOr, Value.optional, Value.write, quote, run_bind, run_text]

theorem reads_value (rule : ObjectRule) (depth : Nat) (s? : Option String) :
    Reads (value rule depth) (Value.optional s?).write (.optional s?) := by
  cases depth with
  | zero => exact reads_scalarOr _ _ s?
  | succ depth => exact reads_scalarOr _ _ s?

theorem reads_optionalObject {r : Reader α} {members : Members} {a : α}
    (taken : Reads r (Value.object members).write a) :
    Reads (optionalValue r) (Value.object members).write (some a) :=
  reads_optionalValue rfl (by decide) (by decide) taken

theorem readsItems_collect {item : Reader α} {write : α → Value} {items : List α}
    (taken : ∀ a ∈ items, Opens (write a).write ∧ Reads item (write a).write a) (done : List α) :
    ReadsItems (fun done => do return (← item) :: done) done (items.map write)
      (items.reverse ++ done) := by
  induction items generalizing done with
  | nil => exact .nil done
  | cons a items ih =>
    obtain ⟨opens, head⟩ := taken a List.mem_cons_self
    have later := ih (fun b member => taken b (List.mem_cons_of_mem a member)) (a :: done)
    rw [List.map_cons, List.reverse_cons, List.append_assoc, List.singleton_append]
    exact .cons opens (head.map (· :: done)) later

theorem reads_listOf {item : Reader α} {write : α → Value} {items : List α}
    (taken : ∀ a ∈ items, Opens (write a).write ∧ Reads item (write a).write a) :
    Reads (listOf item) (Value.list (items.map write)).write items := by
  intro rest _
  have visible : isBlank openList = false := by decide
  have walked := run_eachItem (readsItems_collect taken []) rest
  have closed := run_endList blanks_nil rest
  rw [List.nil_append] at closed
  simp only [listOf, Value.write, List.cons_append, run_bind, run_token, dropBlanks_cons visible,
    List.head?_cons, if_true, run_next_cons, walked, closed, run_pure, List.append_nil,
    List.reverse_reverse]

theorem reads_knownMember {fields : List (RecordField σ)} {field : RecordField σ}
    {draft next : σ} {key : String} {bytes : Bytes}
    (found : fields.find? (·.name = key) = some field) (unset : field.isSet draft = false)
    (taken : Reads (field.read draft) bytes next) :
    Reads (readMember fields draft key) (colonMark :: bytes) next := by
  intro rest delimited
  simp [readMember, found, unset, run_bind, run_colon, taken rest delimited]

theorem run_complete (result : Except Mismatch α) {a : α} (finished : result = .ok a)
    (rest : Bytes) : (complete result).run rest = .ok (a, rest) := by
  subst finished
  rfl

/-- A record is read back from the object of its members. -/
theorem reads_record {fields : List (RecordField σ)} {draft last : σ}
    {finish : σ → Except Mismatch α} {members : Members} {a : α}
    (taken : ReadsMembers (readMember fields) draft members last) (finished : finish last = .ok a) :
    Reads (record fields draft finish) (Value.object members).write a := by
  intro rest _
  have visible : isBlank openObject = false := by decide
  have walked := run_membersFrom taken true rest
  simp [record, Value.write, run_bind, visible, eachMember, walked,
    run_complete _ finished, run_endObject]

end CredentialGate.Json
