import CredentialGate.Proofs.Json.Attribute

/-! Records that are written as arrays. The fields take the items one after the other; there may be
fewer items than fields, but not more. -/
namespace CredentialGate.Json

open Reader

/-- A list does not end where another byte than its bracket is next. -/
theorem endList_refused {input : Bytes}
    (other : (input.dropWhile isBlank).head? ≠ some closeList) :
    (endList.run input).toOption = none := by
  rw [endList, run_bind, run_token]
  dsimp only
  cases next : (input.dropWhile isBlank).head? with
  | none => rfl
  | some b =>
    have goesOn : b ≠ closeList := by
      rintro rfl
      exact other next
    dsimp only
    rw [if_neg goesOn]
    split
    · simp only [toOption_bind, Option.bind_eq_none_iff]
      intro _ _ _ _
      split <;> rfl
    · rfl

theorem Renders.opens {v : Datum} {bytes : Bytes} (rendered : Renders v bytes) : Opens bytes := by
  obtain ⟨b, more, rfl, begins⟩ := rendered.begins
  exact ⟨b, more, rfl, begins.marked.visible, begins.marked.inside⟩

namespace Attribute

/-- What the items make of the draft, unless one is refused. -/
def takeItems : List (Attribute σ) → List Datum → σ → Option σ
  | _, [], draft => some draft
  | [], _ :: _, _ => none
  | a :: more, v :: items, draft => (a.means v).bind fun x => takeItems more items (a.set x draft)

/-- What is left to read behind the fields of a record. -/
def closing (finish : σ → Except Mismatch α) (draft : σ) : Reader α := do
  let a ← complete (finish draft)
  endList
  return a

theorem closing_end (finish : σ → Except Mismatch α) (draft : σ) {blanks : Bytes}
    (all : Blanks blanks) (rest : Bytes) :
    ((closing finish draft).run (blanks ++ closeList :: rest)).toOption =
      (finish draft).toOption.map (·, rest) := by
  cases finished : finish draft with
  | error kind => simp [closing, complete, finished, run_bind, Except.toOption]
  | ok a => simp [closing, complete, finished, run_bind, run_endList all, Except.toOption]

/-- An item more is refused at the end, if not before. -/
theorem closing_item (finish : σ → Except Mismatch α) (draft : σ) {first : Bool} {v : Datum}
    {separator bytes : Bytes} (separates : Separates first separator) (rendered : Renders v bytes)
    (rest : Bytes) :
    ((closing finish draft).run (separator ++ (bytes ++ rest))).toOption = none := by
  have refused : (endList.run (separator ++ (bytes ++ rest))).toOption = none := by
    apply endList_refused
    cases first with
    | true =>
      obtain ⟨b, more, rfl, begins⟩ := rendered.begins
      have marked := begins.marked
      rw [dropBlanks_append separates, List.cons_append, dropBlanks_cons marked.visible]
      simpa using marked.inside
    | false =>
      obtain ⟨before, after, blanks, -, rfl⟩ := separates
      have visible : isBlank comma = false := by decide
      rw [List.append_assoc, dropBlanks_append blanks, List.cons_append, dropBlanks_cons visible,
        List.head?_cons]
      decide
  rw [closing, toOption_bind]
  cases finish draft with
  | error kind => rfl
  | ok a =>
    change ((endList >>= fun _ => (Pure.pure a : Reader α)).run _).toOption = none
    rw [toOption_bind, refused]
    rfl

variable {attributes : List (Attribute σ)}

theorem readFields_toOption {items : List Datum} {bytes : Bytes} {first : Bool}
    (decides : ∀ a ∈ attributes, ∀ v ∈ items, Decides a.reader v (a.means v))
    (rendered : RendersItems first items bytes) (draft : σ) (finish : σ → Except Mismatch α)
    (rest : Bytes) :
    ((readFields (attributes.map field) first draft >>= closing finish).run
        (bytes ++ rest)).toOption =
      ((takeItems attributes items draft).bind fun last =>
        (finish last).toOption).map (·, rest) := by
  -- On the fields, since the reader stops with them; the items may end before or go on.
  induction attributes generalizing items bytes first draft with
  | nil =>
    rw [toOption_bind]
    cases rendered with
    | close blanks =>
      rw [List.append_assoc]
      exact closing_end finish draft blanks rest
    | item separates rendered following =>
      simp only [List.append_assoc]
      exact closing_item finish draft separates rendered _
  | cons a attributes ih =>
    cases rendered with
    | close blanks =>
      rw [List.append_assoc, List.singleton_append, List.map_cons, readFields, toOption_bind,
        toOption_bind, run_moreItems_end first blanks rest]
      exact closing_end finish draft blanks_nil rest
    | @item _ v items separator bytes later separates rendered following =>
      have taken : ((a.field.read draft).run (bytes ++ (later ++ rest))).toOption =
          ((a.means v).map (a.set · draft)).map (·, later ++ rest) :=
        (decides a List.mem_cons_self v List.mem_cons_self).map (a.set · draft) [] bytes
          (later ++ rest) blanks_nil rendered (following.delimited rest)
      have later_decides : ∀ b ∈ attributes, ∀ w ∈ items, Decides b.reader w (b.means w) :=
        fun b member w listed => decides b (.tail _ member) w (.tail _ listed)
      simp only [List.append_assoc]
      rw [List.map_cons, readFields, toOption_bind, toOption_bind,
        run_moreItems separates rendered.opens]
      change ((((a.field.read draft) >>= readFields (attributes.map field) false).run
        (bytes ++ (later ++ rest))).toOption.bind _) = _
      rw [toOption_bind, taken, takeItems]
      cases a.means v with
      | none => rfl
      | some x =>
        have further := ih later_decides following (a.set x draft)
        rwa [toOption_bind] at further

theorem decides_record_list {items : List Datum} {draft : σ} {finish : σ → Except Mismatch α}
    (decides : ∀ a ∈ attributes, ∀ v ∈ items, Decides a.reader v (a.means v)) :
    Decides (record (attributes.map field) draft finish) (.list items)
      ((takeItems attributes items draft).bind fun last => (finish last).toOption) := by
  intro blanks bytes rest all rendered delimited
  cases rendered with
  | @list _ inner rendered =>
    have visible : isBlank openList = false := by decide
    have other : openList ≠ openObject := by decide
    rw [record, List.cons_append, run_bind, run_token_mark all visible]
    dsimp only
    rw [if_neg other, if_pos rfl, run_bind, run_next_cons]
    exact readFields_toOption decides rendered draft finish rest

/-- The items are taken if there are not too many, and each is taken by the field in its place. -/
theorem takeItems_isSome (attributes : List (Attribute σ)) (items : List Datum) (draft : σ) :
    (takeItems attributes items draft).isSome ↔ items.length ≤ attributes.length ∧
      ∀ (i : Nat) (a : Attribute σ) (v : Datum), attributes[i]? = some a → items[i]? = some v →
        (a.means v).isSome := by
  induction attributes generalizing items draft with
  | nil => cases items <;> simp [takeItems]
  | cons a attributes ih =>
    cases items with
    | nil => simp [takeItems]
    | cons v items =>
      cases meant : a.means v with
      | none =>
        simp only [takeItems, meant, Option.bind_none, Option.isSome_none, Bool.false_eq_true,
          false_iff, not_and]
        intro _ all
        simpa [meant] using all 0 a v rfl rfl
      | some x =>
        simp only [takeItems, meant, Option.bind_some, ih, List.length_cons,
          Nat.add_le_add_iff_right]
        refine and_congr_right fun _ => ⟨fun all i => ?_, fun all i => all (i + 1)⟩
        cases i with
        | zero =>
          rintro _ _ ⟨⟩ ⟨⟩
          rw [meant]
          rfl
        | succ i => exact all i

theorem Independent.tail {a : Attribute σ} (independent : Independent (a :: attributes)) :
    Independent attributes where
  distinct := (List.nodup_cons.1 independent.distinct).2
  own b member := independent.own b (.tail _ member)
  other b member c listed := independent.other b (.tail _ member) c (.tail _ listed)

theorem takeItems_other {b : Attribute σ} {items : List Datum} {draft last : σ}
    (apart : ∀ a ∈ attributes, ∀ x draft, b.get (a.set x draft) = b.get draft)
    (taken : takeItems attributes items draft = some last) : b.get last = b.get draft := by
  induction attributes generalizing items draft with
  | nil =>
    cases items with
    | nil => rw [Option.some.inj taken]
    | cons v items => cases taken
  | cons a attributes ih =>
    cases items with
    | nil => rw [Option.some.inj taken]
    | cons v items =>
      obtain ⟨x, -, later⟩ := Option.bind_eq_some_iff.1 taken
      rw [ih (fun c member => apart c (.tail _ member)) later]
      exact apart a (.head _) x draft

/-- A field then holds what the item in its place stands for. -/
theorem takeItems_get (independent : Independent attributes) {items : List Datum} {draft last : σ}
    (taken : takeItems attributes items draft = some last) {i : Nat} {a : Attribute σ}
    (place : attributes[i]? = some a) :
    a.get last = match items[i]? with
      | none => a.get draft
      | some v => a.means v := by
  induction attributes generalizing items draft i with
  | nil => simp at place
  | cons b attributes ih =>
    cases items with
    | nil => rw [Option.some.inj taken, List.getElem?_nil]
    | cons v items =>
      obtain ⟨x, meant, later⟩ := Option.bind_eq_some_iff.1 taken
      cases i with
      | zero =>
        obtain rfl : b = a := Option.some.inj place
        have apart : ∀ c ∈ attributes, ∀ y draft, b.get (c.set y draft) = b.get draft :=
          fun c member => independent.other c (.tail _ member) b (.head _) fun same =>
            (List.nodup_cons.1 independent.distinct).1 (same ▸ List.mem_map_of_mem member)
        rw [takeItems_other apart later, independent.own b (.head _)]
        exact meant.symm
      | succ i =>
        have placed : attributes[i]? = some a := place
        have kept : a.get (b.set x draft) = a.get draft :=
          independent.other b (.head _) a (.tail _ (List.mem_of_getElem? placed)) (fun same =>
            (List.nodup_cons.1 independent.distinct).1
              (same ▸ List.mem_map_of_mem (List.mem_of_getElem? placed))) x draft
        rw [ih independent.tail later placed, kept]
        rfl

theorem placed_optional {name : String} {get : σ → Option (Option β)} {set : Option β → σ → σ}
    {r : Reader β} {means : Datum → Option β} (refuses : means .null = none)
    (independent : Independent attributes) {items : List Datum} {draft last : σ}
    (taken : takeItems attributes items draft = some last) {i : Nat}
    (place : attributes[i]? = some (optional name get set r means)) (unset : get draft = none)
    (x : β) : (get last).join = some x ↔ ∃ v, items[i]? = some v ∧ means v = some x := by
  have held : get last = match items[i]? with
    | none => get draft
    | some v => v.option means := takeItems_get independent taken place
  rw [Option.join_eq_some_iff, held]
  cases items[i]? with
  | none => simp [unset]
  | some v => simpa using Datum.option_eq_some refuses x

end Attribute

end CredentialGate.Json
