import CredentialGate.Config.Layers
import CredentialGate.Proofs.Files.Tree
import CredentialGate.Proofs.Text.Utf8
import CredentialGate.Proofs.Toml.Document
import CredentialGate.Proofs.Toml.Table

/-! Settings are read back from the file that they are saved in. A section writes some of its
fields, in their order and under their names, and the fields that it leaves out are those that are
absent when they are not given. -/
namespace CredentialGate.Config

open Files Session Toml

theorem fields?_named {names : List String} {entries : Entries}
    (named : ∀ e ∈ entries, e.1 ∈ names) (form : TableForm) :
    fields? names (.table form entries) = some fun name => entries.lookup name := by
  rw [fields?, if_pos]
  rw [List.all_eq_true]
  intro e member
  simp [named e member]

theorem naturalOr?_natural {n bound : Nat} (small : n < bound) (standard : Nat) :
    naturalOr? standard bound (some (.integer n)) = some n := by
  simp [naturalOr?, small]

theorem ofName?_name (policy : LogoutPolicy) : LogoutPolicy.ofName? policy.name = some policy := by
  cases policy <;> decide

/-- The entries of a section bear some of the names of its fields, in their order. -/
def Follows (s : Toml.Section) (names : List String) : Prop :=
  (s.entries.map (·.1)).Sublist names

theorem Follows.plain {s : Toml.Section} {names : List String} (follows : Follows s names)
    (bare : ∀ name ∈ names, Bare name) (header : s.header.Plain) : s.Plain where
  header := header
  entries _ member := bare _ (follows.subset (List.mem_map_of_mem member))

theorem Follows.distinct {s : Toml.Section} {names : List String} (follows : Follows s names)
    (distinct : names.Nodup) : (s.entries.map (·.1)).Nodup := follows.nodup distinct

theorem Follows.named {s : Toml.Section} {names : List String} (follows : Follows s names) :
    ∀ e ∈ s.values, e.1 ∈ names := by
  intro e member
  obtain ⟨entry, written, rfl⟩ := List.mem_map.1 member
  exact follows.subset (List.mem_map_of_mem written)

theorem Follows.lookup_other {s : Toml.Section} {names : List String} (follows : Follows s names)
    {name : String} (other : name ∉ names) : s.values.lookup name = none := by
  rw [List.lookup_eq_none_iff]
  intro e member
  exact bne_iff_ne.2 fun same => other (same ▸ follows.named e member)

/-- A field that may be absent is written under its name or not at all. -/
theorem optional_sublist (name : String) (given : Option α) (datum : α → Datum) :
    ((given.map fun a => (name, datum a)).toList.map (·.1)).Sublist [name] := by
  cases given with
  | none => exact List.nil_sublist _
  | some a => exact .refl _

namespace Server

theorem follows (s : Server) : Follows s.toSection fieldNames := by
  have optional := optional_sublist "log_dir" s.logDir? fun p => .text p.text
  rw [Follows, toSection, List.map_append]
  exact (List.Sublist.refl ["bind", "port", "db_path", "audit_log"]).append optional

theorem read?_values (s : Server) : read? (.table .named s.toSection.values) = some s := by
  have port := naturalOr?_natural s.port.toNat_lt standard.port.toNat
  rw [read?, fields?_named s.follows.named, Option.bind_eq_bind, Option.bind_some]
  obtain ⟨bind, _, dbPath, auditLog, logDir?⟩ := s
  -- Checked by unfolding, a look-up compares names byte by byte, so each step gives its proof.
  cases logDir? <;>
    simp -implicitDefEqProofs [port, toSection, Section.values, Datum.value, List.lookup_cons,
      textOr?, pathOr?, optionalPath?, optionalText?]

end Server

namespace PrimaryPaths

theorem follows (p : PrimaryPaths) : Follows p.toSection fieldNames := .refl _

theorem read?_values (p : PrimaryPaths) : read? (.table .named p.toSection.values) = some p := by
  rw [read?, fields?_named p.follows.named, Option.bind_eq_bind, Option.bind_some]
  simp -implicitDefEqProofs [toSection, Section.values, Datum.value, List.lookup_cons, textOr?]

end PrimaryPaths

namespace Client

/-- The names of the fields that are no sections themselves. -/
def ownNames : List String := fieldNames.dropLast

theorem follows (c : Client) : Follows c.toSection ownNames := by
  have url := optional_sublist "identity_api_url" c.identityApiUrl? .text
  have path := optional_sublist "storage_path" c.storagePath? fun p => .text p.text
  have first := List.Sublist.refl ["primary_url"]
  have others := List.Sublist.refl ["identity_api_prefix", "request_timeout_secs", "logout_policy"]
  rw [Follows, toSection, List.map_append, List.map_append, List.map_append]
  exact ((first.append url).append others).append path

/-- The entries of the section with the section of the paths behind them. -/
def nested (c : Client) : Entries :=
  c.toSection.values ++ [("paths", .table .named c.paths.toSection.values)]

theorem nested_named (c : Client) : ∀ e ∈ c.nested, e.1 ∈ fieldNames := by
  intro e member
  rcases List.mem_append.1 member with own | paths
  · exact List.dropLast_subset _ (c.follows.named e own)
  · rw [List.mem_singleton.1 paths]
    exact List.mem_of_getLast? rfl

theorem read?_nested (c : Client) : read? (.table .named c.nested) = some c := by
  have timeout := naturalOr?_natural c.requestTimeout.toNat_lt standard.requestTimeout.toNat
  have policy := ofName?_name c.logoutPolicy
  have paths := c.paths.read?_values
  rw [read?, fields?_named c.nested_named, Option.bind_eq_bind, Option.bind_some, nested]
  generalize c.paths.toSection.values = table at paths
  obtain ⟨primaryUrl, identityApiUrl?, _, _, _, storagePath?, _⟩ := c
  cases identityApiUrl? <;> cases storagePath? <;>
    simp -implicitDefEqProofs [timeout, policy, paths, toSection, Section.values, Datum.value,
      List.lookup_cons, textOr?, optionalPath?, optionalText?, policyOr?, sectionOr?]

end Client

namespace Settings

theorem sections_plain (s : Settings) : ∀ one ∈ s.toSections, one.Plain := by
  have server : Key.Plain ⟨[], "server"⟩ := ⟨by decide, by decide⟩
  have client : Key.Plain ⟨[], "client"⟩ := ⟨by decide, by decide⟩
  have paths : Key.Plain ⟨["client"], "paths"⟩ := ⟨by decide, by decide⟩
  intro one member
  simp only [toSections, List.mem_cons, List.not_mem_nil, or_false] at member
  rcases member with rfl | rfl | rfl
  · exact s.server.follows.plain (by decide) server
  · exact s.client.follows.plain (by decide) client
  · exact s.client.paths.follows.plain (by decide) paths

/-- The root table of the written settings. -/
def entries (s : Settings) : Entries :=
  [("server", .table .named s.server.toSection.values), ("client", .table .named s.client.nested)]

theorem sections_built (s : Settings) :
    (s.toSections.flatMap Section.statements).foldlM Draft.take? Draft.start =
      some ⟨s.entries, ["client", "paths"]⟩ := by
  let first : Entries := [("server", .table .named s.server.toSection.values)]
  let own := s.client.toSection.values
  have noClient : first.lookup "client" = none := by simp [first]
  have noPaths : own.lookup "paths" = none := s.client.follows.lookup_other (by decide)
  have nowhere : Entries.Fresh [] := by simp [Entries.Fresh]
  have inClient : Entries.Fresh [(first, "client")] := by simpa [Entries.Fresh] using noClient
  have server : s.server.toSection.statements.foldlM Draft.take? Draft.start =
      some ⟨first, ["server"]⟩ :=
    take?_section nowhere rfl rfl (s.server.follows.distinct (by decide)) []
  have client : s.client.toSection.statements.foldlM Draft.take? ⟨first, ["server"]⟩ =
      some ⟨first ++ [("client", .table .named own)], ["client"]⟩ :=
    take?_section nowhere rfl noClient (s.client.follows.distinct (by decide)) ["server"]
  have paths : s.client.paths.toSection.statements.foldlM Draft.take?
      ⟨first ++ [("client", .table .named own)], ["client"]⟩ =
      some ⟨s.entries, ["client", "paths"]⟩ :=
    take?_section inClient rfl noPaths (s.client.paths.follows.distinct (by decide)) ["client"]
  simp only [toSections, List.flatMap_cons, List.flatMap_nil, List.append_nil, List.foldlM_append,
    server, client, paths, Option.bind_eq_bind, Option.bind_some]

theorem read?_toText (s : Settings) : Toml.read? s.toText = some s.entries :=
  read?_writeSections s.sections_plain s.sections_built

theorem ofEntries?_entries (s : Settings) : ofEntries? s.entries = some s := by
  have given := @fields?_named fieldNames s.entries (by simp [entries, fieldNames]) .named
  have server := s.server.read?_values
  have client := s.client.read?_nested
  simp_all -implicitDefEqProofs [ofEntries?, entries, sectionOr?, List.lookup_cons]

theorem ofText?_toText (s : Settings) : ofText? s.toText = some s := by
  rw [ofText?, read?_toText, Option.bind_eq_bind, Option.bind_some, ofEntries?_entries]

theorem load_written (s : Settings) {path : FilePath} {t saved : Tree}
    (written : t.write? path (.bytes (Text.utf8 s.toText)) = some saved) :
    load path saved = .ok s := by
  have text : saved.readText? path = some s.toText := by
    rw [Tree.readText?, Tree.readBytes?_write? written, Option.bind_some, Text.ofUtf8_utf8]
  rw [load, text]
  dsimp only
  rw [ofText?_toText]

/-- Wherever a file can be written, settings are saved, and those that are loaded from the file
are the same. -/
theorem saved_settings_load (s : Settings) {path : FilePath} {t : Tree}
    (writable : (t.openFile? path).isSome) :
    ∃ saved, s.save path t = .ok saved ∧ load path saved = .ok s := by
  obtain ⟨opened, found⟩ := Option.isSome_iff_exists.1 writable
  obtain ⟨saved, written⟩ : ∃ saved, t.write? path (.bytes (Text.utf8 s.toText)) = some saved :=
    ⟨_, Option.bind_eq_some_iff.2 ⟨opened, found, rfl⟩⟩
  refine ⟨saved, ?_, load_written s written⟩
  rw [save, written]

/-- Settings whose texts need every form of writing: marks, runs of marks, line ends, controls. -/
def markedTexts : Settings where
  server :=
    { bind := "\"plain\" and 'single'", port := 65535, dbPath := ⟨"\nends with marks\"\"\"\""⟩,
      auditLog := ⟨"back\\slash\r\n\t'''"⟩, logDir? := some ⟨""⟩ }
  client :=
    { primaryUrl := "\x01\x7f é", identityApiUrl? := some "'''\"\"\"\n\\", identityApiPrefix := "",
      requestTimeout := 18446744073709551615, logoutPolicy := .clearOnFailure,
      storagePath? := none,
      paths := { PrimaryPaths.standard with login := "\r", whoami := "'", logout := "\t\n" } }

theorem marked_texts_load :
    (Tree.empty.openFile? ⟨fileName⟩).isSome = true ∧
      ∃ saved, markedTexts.save ⟨fileName⟩ .empty = .ok saved ∧
        load ⟨fileName⟩ saved = .ok markedTexts := by
  have writable : (Tree.empty.openFile? ⟨fileName⟩).isSome = true := by decide +kernel
  exact ⟨writable, saved_settings_load markedTexts writable⟩

end Settings

end CredentialGate.Config
