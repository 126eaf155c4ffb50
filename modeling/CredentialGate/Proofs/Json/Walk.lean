import CredentialGate.Json.Document
import CredentialGate.Proofs.Json.Quoted

/-! Walks over written lists and objects. A walk needs to know of each item or member only that
its own reader takes the written form and no more; it then ends at the closing bracket. -/
namespace CredentialGate.Json

open Reader

/-- What may stand behind a value inside a text. -/
def Delimited (rest : Bytes) : Prop :=
  rest = [] ∨ ∃ b more, rest = b :: more ∧
    (isBlank b = true ∨ b = comma ∨ b = closeList ∨ b = closeObject)

/-- The reader takes exactly these bytes, whatever delimits them. -/
def Reads (r : Reader α) (bytes : Bytes) (a : α) : Prop :=
  ∀ rest, Delimited rest → r.run (bytes ++ rest) = .ok (a, rest)

/-- The bytes begin with one that may begin a value. -/
def Opens (bytes : Bytes) : Prop :=
  ∃ b more, bytes = b :: more ∧ isBlank b = false ∧ b ≠ closeList

@[simp] theorem dropBlanks_cons {b : UInt8} (visible : isBlank b = false) (rest : Bytes) :
    (b :: rest).dropWhile isBlank = b :: rest := by
  simp [visible]

theorem delimited_comma (rest : Bytes) : Delimited (comma :: rest) :=
  .inr ⟨comma, rest, rfl, .inr (.inl rfl)⟩

theorem delimited_writeItems (items : List Value) (rest : Bytes) :
    Delimited (Value.writeItems false items ++ rest) := by
  cases items with
  | nil => exact .inr ⟨closeList, rest, by simp [Value.writeItems], .inr (.inr (.inl rfl))⟩
  | cons v more => simpa [Value.writeItems] using delimited_comma _

theorem delimited_writeMembers (members : Members) (rest : Bytes) :
    Delimited (Value.writeMembers false members ++ rest) := by
  cases members with
  | nil => exact .inr ⟨closeObject, rest, by simp [Value.writeMembers], .inr (.inr (.inr rfl))⟩
  | cons m more => simpa [Value.writeMembers] using delimited_comma _

theorem Reads.map {r : Reader α} {bytes : Bytes} {a : α} (taken : Reads r bytes a) (f : α → β) :
    Reads (do return f (← r)) bytes (f a) := by
  intro rest delimited
  simp only [run_bind, taken rest delimited, run_pure]

theorem run_word (letters rest : Bytes) :
    (word letters).run (letters ++ rest) = .ok ((), rest) := by
  induction letters with
  | nil => rfl
  | cons b letters ih => simp only [word, List.cons_append, run_bind, run_next_cons, if_true, ih]

/-- The walk takes the items from `s` to the last state. -/
inductive ReadsItems (item : σ → Reader σ) : σ → List Value → σ → Prop
  | nil (s : σ) : ReadsItems item s [] s
  | cons {s next last : σ} {v : Value} {more : List Value} :
      Opens v.write → Reads (item s) v.write next → ReadsItems item next more last →
      ReadsItems item s (v :: more) last

theorem dropBlanks_append {blanks : Bytes} (all : Blanks blanks) (rest : Bytes) :
    (blanks ++ rest).dropWhile isBlank = rest.dropWhile isBlank :=
  List.dropWhile_append_of_pos all

theorem blanks_nil : Blanks [] := by simp [Blanks]

theorem separates_compact (first : Bool) : Separates first (if first then [] else [comma]) := by
  cases first with
  | true => exact blanks_nil
  | false => exact ⟨[], [], blanks_nil, blanks_nil, rfl⟩

theorem run_moreItems_end (first : Bool) {blanks : Bytes} (all : Blanks blanks) (rest : Bytes) :
    (moreItems first).run (blanks ++ closeList :: rest) = .ok (false, closeList :: rest) := by
  simp +decide [moreItems, run_bind, dropBlanks_append all]

theorem run_moreItems {first : Bool} {separator bytes : Bytes}
    (separates : Separates first separator) (opens : Opens bytes) (rest : Bytes) :
    (moreItems first).run (separator ++ (bytes ++ rest)) = .ok (true, bytes ++ rest) := by
  obtain ⟨b, more, rfl, visible, goesOn⟩ := opens
  cases first with
  | true => simp [moreItems, run_bind, dropBlanks_append separates, visible, goesOn]
  | false =>
    obtain ⟨before, after, first, second, rfl⟩ := separates
    simp +decide [moreItems, run_bind, dropBlanks_append first, dropBlanks_append second, visible,
      goesOn]

theorem run_laterItems {item : σ → Reader σ} {s last : σ} {items : List Value}
    (taken : ReadsItems item s items last) (rest : Bytes) :
    laterItems item s (Value.writeItems false items ++ rest) = .ok (last, closeList :: rest) := by
  induction taken with
  | nil =>
    have closed := run_moreItems_end false blanks_nil rest
    rw [List.nil_append] at closed
    rw [Value.writeItems, List.singleton_append, laterItems, closed]
  | @cons s next last v more opens head _ ih =>
    have first := head _ (delimited_writeItems more rest)
    rw [Value.writeItems, List.append_assoc, List.append_assoc, laterItems,
      run_moreItems (separates_compact false) opens]
    dsimp only
    rw [first]
    exact ih

theorem run_eachItem {item : σ → Reader σ} {s last : σ} {items : List Value}
    (taken : ReadsItems item s items last) (rest : Bytes) :
    (eachItem item s).run (Value.writeItems true items ++ rest) =
      .ok (last, closeList :: rest) := by
  cases taken with
  | nil =>
    have closed := run_moreItems_end true blanks_nil rest
    rw [List.nil_append] at closed
    simp [eachItem, Value.writeItems, run_bind, closed]
  | @cons _ next _ v more opens head later =>
    have first := head _ (delimited_writeItems more rest)
    rw [eachItem, Value.writeItems, List.append_assoc, List.append_assoc, run_bind,
      run_moreItems (separates_compact true) opens]
    simp only [if_true, run_bind, first, run_laterItems later]

theorem run_endList {blanks : Bytes} (all : Blanks blanks) (rest : Bytes) :
    endList.run (blanks ++ closeList :: rest) = .ok ((), rest) := by
  simp +decide [endList, run_bind, dropBlanks_append all]

/-- The walk takes the members from `s` to the last state. -/
inductive ReadsMembers (member : σ → String → Reader σ) : σ → Members → σ → Prop
  | nil (s : σ) : ReadsMembers member s [] s
  | cons {s next last : σ} {key : String} {v : Value} {more : Members} :
      Reads (member s key) (colonMark :: v.write) next → ReadsMembers member next more last →
      ReadsMembers member s ((key, v) :: more) last

theorem run_moreMembers_end (first : Bool) {blanks : Bytes} (all : Blanks blanks) (rest : Bytes) :
    (moreMembers first).run (blanks ++ closeObject :: rest) = .ok (false, closeObject :: rest) := by
  simp +decide [moreMembers, run_bind, dropBlanks_append all]

theorem run_moreMembers {first : Bool} {separator : Bytes} (separates : Separates first separator)
    (rest : Bytes) :
    (moreMembers first).run (separator ++ quoteMark :: rest) = .ok (true, rest) := by
  cases first with
  | true => simp +decide [moreMembers, run_bind, dropBlanks_append separates]
  | false =>
    obtain ⟨before, after, first, second, rfl⟩ := separates
    simp +decide [moreMembers, run_bind, dropBlanks_append first, dropBlanks_append second]

theorem run_membersFrom {member : σ → String → Reader σ} {s last : σ} {members : Members}
    (taken : ReadsMembers member s members last) (first : Bool) (rest : Bytes) :
    membersFrom member first s (Value.writeMembers first members ++ rest) =
      .ok (last, closeObject :: rest) := by
  induction taken generalizing first with
  | nil =>
    have closed := run_moreMembers_end first blanks_nil rest
    rw [List.nil_append] at closed
    rw [Value.writeMembers, List.singleton_append, membersFrom, closed]
  | @cons s next last key v more head _ ih =>
    have value := head _ (delimited_writeMembers more rest)
    have shape : Value.writeMembers first ((key, v) :: more) ++ rest =
        (if first then [] else [comma]) ++ quoteMark ::
          ((Text.utf8 key).flatMap escapeByte ++ quoteMark ::
            (colonMark :: v.write ++ (Value.writeMembers false more ++ rest))) := by
      simp [Value.writeMembers, quote]
    rw [shape, membersFrom, run_moreMembers (separates_compact first)]
    dsimp only
    rw [run_text]
    dsimp only
    rw [value]
    exact ih false

theorem run_endObject (rest : Bytes) : endObject.run (closeObject :: rest) = .ok ((), rest) := by
  simp +decide [endObject, run_bind]

theorem run_colon (rest : Bytes) : colon.run (colonMark :: rest) = .ok ((), rest) := by
  simp +decide [colon, run_bind]

end CredentialGate.Json
