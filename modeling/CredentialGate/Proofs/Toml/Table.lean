import CredentialGate.Toml.Writer

/-! The tables that a document of sections builds. A section stands behind all that has been read:
the table that it opens is the last of its outer table, and so is that one. -/
namespace CredentialGate.Toml

namespace Entries

theorem lookup_last {before : Entries} {name : String} (fresh : before.lookup name = none)
    (v : Value) : (before ++ [(name, v)]).lookup name = some v := by
  simp [List.lookup_append, fresh]

theorem replace_last {before : Entries} {name : String} (fresh : before.lookup name = none)
    (old new : Value) :
    replace name new (before ++ [(name, old)]) = before ++ [(name, new)] := by
  have others : replace name new before = before := by
    refine (List.map_congr_left fun e member => ?_).trans (List.map_id before)
    have other : name ≠ e.1 := by simpa using List.lookup_eq_none_iff.1 fresh e member
    simp [other.symm]
  rw [replace, List.map_append, ← replace, others]
  simp

/-- Tables in one another, each behind the entries of the outer one under a name. -/
def nest : List (Entries × String) → Entries → Entries
  | [], inner => inner
  | (before, name) :: way, inner => before ++ [(name, .table .named (nest way inner))]

theorem nest_append (way more : List (Entries × String)) (inner : Entries) :
    nest (way ++ more) inner = nest way (nest more inner) := by
  induction way with
  | nil => rfl
  | cons step way ih => simp [nest, ih]

/-- No name on the way has been given before in its table. -/
def Fresh (way : List (Entries × String)) : Prop := ∀ step ∈ way, step.1.lookup step.2 = none

/-- The names on the way lead to the innermost table. -/
theorem along_nest {way : List (Entries × String)} (fresh : Fresh way)
    (change : TableForm → Entries → Option Entries) (inner : Entries) :
    along false change (way.map (·.2)) .named (nest way inner) =
      (change .named inner).map (nest way) := by
  induction way with
  | nil => simp [along, nest]
  | cons step way ih =>
    obtain ⟨before, name⟩ := step
    obtain ⟨new, fresh⟩ := List.forall_mem_cons.1 fresh
    rw [List.map_cons, nest, along, lookup_last new]
    dsimp only
    rw [if_neg (by simp), ih fresh]
    cases change .named inner with
    | none => rfl
    | some inner => simp [replace_last new, nest]

theorem assign?_new {key : String} {entries : Entries} (new : entries.lookup key = none)
    (v : Value) : assign? ⟨[], key⟩ v entries = some (entries ++ [(key, v)]) := by
  simp [assign?, along, insertNew?, new]

end Entries

open Entries

/-- The entries of a section as those of a table. -/
def Section.values (s : Section) : Entries := s.entries.map fun (key, datum) => (key, datum.value)

section

variable {way : List (Entries × String)} {inner : Entries}

theorem take?_header (fresh : Fresh way) {name : String} (new : inner.lookup name = none)
    (current : List String) :
    Draft.take? ⟨nest way inner, current⟩ (.table ⟨way.map (·.2), name⟩) =
      some ⟨nest (way ++ [(inner, name)]) [], (way ++ [(inner, name)]).map (·.2)⟩ := by
  simp [Draft.take?, openTable?, along_nest fresh, new, nest_append, nest, Key.parts]

theorem take?_entry (fresh : Fresh way) {key : String} (new : inner.lookup key = none)
    (v : Value) :
    Draft.take? ⟨nest way inner, way.map (·.2)⟩ (.assign ⟨[], key⟩ v) =
      some ⟨nest way (inner ++ [(key, v)]), way.map (·.2)⟩ := by
  simp [Draft.take?, along_nest fresh, assign?_new new]

theorem take?_entries (fresh : Fresh way) {entries : List (String × Datum)}
    (distinct : (entries.map (·.1)).Nodup) (new : ∀ e ∈ entries, inner.lookup e.1 = none) :
    (entries.map fun (key, datum) => Statement.assign ⟨[], key⟩ datum.value).foldlM Draft.take?
        ⟨nest way inner, way.map (·.2)⟩ =
      some ⟨nest way (inner ++ entries.map fun (key, datum) => (key, datum.value)),
        way.map (·.2)⟩ := by
  induction entries generalizing inner with
  | nil => simp
  | cons e entries ih =>
    rw [List.map_cons, List.nodup_cons] at distinct
    rw [List.forall_mem_cons] at new
    have later : ∀ f ∈ entries, (inner ++ [(e.1, e.2.value)]).lookup f.1 = none := by
      intro f member
      have other : f.1 ≠ e.1 := fun same => distinct.1 (same ▸ List.mem_map_of_mem member)
      simp [List.lookup_append, new.2 f member, other]
    rw [List.map_cons, List.foldlM_cons, take?_entry fresh new.1, Option.bind_eq_bind,
      Option.bind_some, ih distinct.2 later]
    simp

/-- A section builds one table with its entries behind the others. -/
theorem take?_section (fresh : Fresh way) {s : Section} (path : s.header.path = way.map (·.2))
    (new : inner.lookup s.header.last = none) (distinct : (s.entries.map (·.1)).Nodup)
    (current : List String) :
    s.statements.foldlM Draft.take? ⟨nest way inner, current⟩ =
      some ⟨nest (way ++ [(inner, s.header.last)]) s.values, s.header.parts⟩ := by
  have further : Fresh (way ++ [(inner, s.header.last)]) := by
    intro step member
    rcases List.mem_append.1 member with before | last
    · exact fresh step before
    · rw [List.mem_singleton.1 last]
      exact new
  have header : s.header = ⟨way.map (·.2), s.header.last⟩ := by rw [← path]
  have entries := @take?_entries _ [] further s.entries distinct (by simp)
  rw [Section.statements, List.foldlM_cons, header, take?_header fresh new, Option.bind_eq_bind,
    Option.bind_some, entries]
  simp [Section.values, Key.parts]

end

end CredentialGate.Toml
