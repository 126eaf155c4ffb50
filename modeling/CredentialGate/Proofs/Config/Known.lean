import CredentialGate.Proofs.Config.Field

/-! Documents without the entries that no field reads. The settings that are read from a document
are those that are read from the rest, so what is unknown changes nothing, wherever it stands: as
long as its numbers can be passed over, for otherwise no settings are read at all. -/
namespace CredentialGate.Config

/-- The entries under the given names, each with its value changed. -/
def keepEntries (names : List String) (change : String → Toml.Value → Toml.Value)
    (entries : Toml.Entries) : Toml.Entries :=
  (entries.filter (·.1 ∈ names)).map fun e => (e.1, change e.1 e.2)

/-- A section with the entries of its fields alone. -/
def keepFields (names : List String) (change : String → Toml.Value → Toml.Value) :
    Toml.Value → Toml.Value
  | .table form entries => .table form (keepEntries names change entries)
  | .array items => .array ((names.zip items).map fun e => change e.1 e.2)
  | v => v

namespace Part

/-- What becomes of the values in a section: only the client has a section within. -/
def within : Part → String → Toml.Value → Toml.Value
  | client, name => if name = "paths" then keepFields PrimaryPaths.fieldNames fun _ => id else id
  | server, _ | paths, _ => id

def known (part : Part) : Toml.Value → Toml.Value := keepFields part.names part.within

end Part

/-- The document without the sections, and the sections without the entries, that are unknown. -/
def known (doc : Toml.Entries) : Toml.Entries :=
  keepEntries Settings.fieldNames
    (fun name => if name = "client" then Part.client.known else Part.server.known) doc

section

variable {names : List String} {name : String} {change : String → Toml.Value → Toml.Value}

theorem lookup_keepEntries (field : name ∈ names) (entries : Toml.Entries) :
    (keepEntries names change entries).lookup name = (entries.lookup name).map (change name) := by
  induction entries with
  | nil => rfl
  | cons entry entries ih =>
    obtain ⟨key, v⟩ := entry
    unfold keepEntries at ih ⊢
    by_cases same : name = key
    · subst same
      simp [field]
    · rw [List.filter_cons]
      split <;> simp [List.lookup_cons, beq_false_of_ne same, ih]

theorem lookup_zip_map (items : List Toml.Value) :
    (names.zip ((names.zip items).map fun e => change e.1 e.2)).lookup name =
      ((names.zip items).lookup name).map (change name) := by
  induction names generalizing items with
  | nil => rfl
  | cons key names ih =>
    cases items with
    | nil => rfl
    | cons v items =>
      simp only [List.zip_cons_cons, List.map_cons, List.lookup_cons]
      by_cases same : name = key
      · simp [same]
      · simp [beq_false_of_ne same, ih]

theorem item?_keepFields (field : name ∈ names) (v : Toml.Value) :
    item? names name (keepFields names change v) = (item? names name v).map (change name) := by
  cases v with
  | table form entries => exact lookup_keepEntries field entries
  | array items => exact lookup_zip_map items
  | _ => rfl

theorem othersFit_keepFields (v : Toml.Value) : OthersFit names (keepFields names change v) := by
  cases v with
  | table form entries =>
    intro e member unknown
    obtain ⟨entry, kept, rfl⟩ := List.mem_map.1 member
    simp [unknown] at kept
  | _ => trivial

theorem isSection_keepFields (v : Toml.Value) :
    isSection (keepFields names change v) = isSection v := by
  cases v <;> rfl

end

theorem orEmpty_map_keepFields (names : List String) (change : String → Toml.Value → Toml.Value)
    (given : Option Toml.Value) :
    orEmpty (given.map (keepFields names change)) = keepFields names change (orEmpty given) := by
  cases given <;> rfl

theorem Part.value_known (doc : Toml.Entries) (part : Part) :
    part.value (Config.known doc) = part.known (part.value doc) := by
  have server : (Config.known doc).lookup "server" = (doc.lookup "server").map Part.server.known :=
    lookup_keepEntries (by decide) doc
  have client : (Config.known doc).lookup "client" = (doc.lookup "client").map Part.client.known :=
    lookup_keepEntries (by decide) doc
  cases part with
  | server => exact (congrArg orEmpty server).trans (orEmpty_map_keepFields ..)
  | client => exact (congrArg orEmpty client).trans (orEmpty_map_keepFields ..)
  | paths =>
    have inner : Part.client.within "paths" = Part.paths.known := by
      rw [Part.within, if_pos rfl]
      rfl
    have paths (v : Toml.Value) : item? Client.fieldNames "paths" (Part.client.known v) =
        (item? Client.fieldNames "paths" v).map Part.paths.known :=
      inner ▸ item?_keepFields (by decide) v
    rw [Part.value, client, Part.known, orEmpty_map_keepFields]
    exact (congrArg orEmpty (paths _)).trans (orEmpty_map_keepFields ..)

theorem Field.given?_known {f : Field} (member : f ∈ Field.all) (doc : Toml.Entries) :
    f.given? (known doc) = f.given? doc := by
  have plain : ∀ f ∈ Field.all, f.name ∈ f.part.names ∧ f.part.within f.name = id := by
    simp [Field.all, Field.server, Field.client, Field.paths, Part.names, Part.within,
      Server.fieldNames, Client.fieldNames, PrimaryPaths.fieldNames]
  obtain ⟨field, same⟩ := plain f member
  rw [Field.given?, Part.value_known, Part.known, item?_keepFields field, same, Option.map_id_fun]
  rfl

theorem allOthersFit_known (doc : Toml.Entries) : AllOthersFit (known doc) := by
  refine ⟨@othersFit_keepFields _ _ (.table .named doc), fun part => ?_⟩
  rw [Part.value_known]
  exact othersFit_keepFields _

/-- All that an unknown entry can do is to hold a number that is too great to be passed over: then
nothing can be read from the document. -/
theorem readable_iff_known {doc : Toml.Entries} :
    Readable doc ↔ Readable (known doc) ∧ AllOthersFit doc := by
  have sections (part : Part) :
      isSection (part.value (known doc)) = isSection (part.value doc) := by
    rw [Part.value_known]
    exact isSection_keepFields _
  constructor
  · rintro ⟨whole, fit, reads⟩
    refine ⟨⟨fun part => (sections part).trans (whole part), allOthersFit_known doc, ?_⟩, fit⟩
    exact fun f member v given => reads f member v ((f.given?_known member doc).symm.trans given)
  · rintro ⟨⟨kept, -, reads⟩, fit⟩
    refine ⟨fun part => (sections part).symm.trans (kept part), fit, fun f member v given => ?_⟩
    exact reads f member v ((f.given?_known member doc).trans given)

end CredentialGate.Config
