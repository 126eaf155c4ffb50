import CredentialGate.Config.Layers

/-! The settings field by field: the section and the name under which a file gives a field, how its
value is read there, and what may stand over the file. Reading a document comes to reading each of
its fields alone. -/
namespace CredentialGate.Config

open Files Session

def text? : Toml.Value → Option String
  | .text s => some s
  | _ => none

def path? (v : Toml.Value) : Option FilePath := (text? v).map FilePath.mk

def natural? (bound : Nat) : Toml.Value → Option Nat
  | .integer n => if 0 ≤ n ∧ n < bound then some n.toNat else none
  | _ => none

def policy? : Toml.Value → Option LogoutPolicy
  | .text s => LogoutPolicy.ofName? s
  | .table _ [(name, .table _ [])] => LogoutPolicy.ofName? name
  | .table _ [(name, .array [])] => LogoutPolicy.ofName? name
  | _ => none

/-- The sections that hold fields. -/
inductive Part
  | server
  | client
  | paths

/-- What a section holds under a name: an entry of a table, or the item of an array that stands
where the name stands among the names. -/
def item? (names : List String) (name : String) : Toml.Value → Option Toml.Value
  | .table _ entries => entries.lookup name
  | .array items => (names.zip items).lookup name
  | _ => none

/-- A section that is missing counts as empty. -/
def orEmpty (given : Option Toml.Value) : Toml.Value := given.getD (.table .named [])

namespace Part

def names : Part → List String
  | server => Server.fieldNames
  | client => Client.fieldNames
  | paths => PrimaryPaths.fieldNames

def value (doc : Toml.Entries) : Part → Toml.Value
  | server => orEmpty (doc.lookup "server")
  | client => orEmpty (doc.lookup "client")
  | paths => orEmpty (item? Client.fieldNames "paths" (orEmpty (doc.lookup "client")))

end Part

/-- A field of the settings. -/
structure Field where
  {Kind : Type}
  part : Part
  name : String
  read? : Toml.Value → Option Kind
  get : Settings → Kind
  environment? : Environment → Option Kind := fun _ => none
  flag? : Overrides → Option Kind := fun _ => none

namespace Field

def server : List Field := [
  { part := .server, name := "bind", read? := text?, get := (·.server.bind),
    flag? := (·.bind?) },
  { part := .server, name := "port", get := (·.server.port), flag? := (·.port?),
    read? := fun v => (natural? UInt16.size v).map Nat.toUInt16 },
  { part := .server, name := "db_path", read? := path?, get := (·.server.dbPath),
    environment? := fun env => (env.given? dbVariable).map FilePath.mk },
  { part := .server, name := "audit_log", read? := path?, get := (·.server.auditLog) },
  { part := .server, name := "log_dir", read? := fun v => (path? v).map some,
    get := (·.server.logDir?) }]

def client : List Field := [
  { part := .client, name := "primary_url", read? := text?, get := (·.client.primaryUrl) },
  { part := .client, name := "identity_api_url", read? := fun v => (text? v).map some,
    get := (·.client.identityApiUrl?),
    environment? := fun env => (env.given? identityApiVariable).map some },
  { part := .client, name := "identity_api_prefix", read? := text?,
    get := (·.client.identityApiPrefix) },
  { part := .client, name := "request_timeout_secs", get := (·.client.requestTimeout),
    read? := fun v => (natural? UInt64.size v).map Nat.toUInt64 },
  { part := .client, name := "logout_policy", read? := policy?, get := (·.client.logoutPolicy),
    flag? := (·.logoutPolicy?) },
  { part := .client, name := "storage_path", read? := fun v => (path? v).map some,
    get := (·.client.storagePath?) }]

def paths : List Field := [
  { part := .paths, name := "login", read? := text?, get := (·.client.paths.login) },
  { part := .paths, name := "whoami", read? := text?, get := (·.client.paths.whoami) },
  { part := .paths, name := "logout", read? := text?, get := (·.client.paths.logout) },
  { part := .paths, name := "password_email", read? := text?,
    get := (·.client.paths.passwordEmail) },
  { part := .paths, name := "password_reset", read? := text?,
    get := (·.client.paths.passwordReset) }]

def all : List Field := server ++ client ++ paths

def standard (f : Field) : f.Kind := f.get .standard

/-- The value that a document gives to the field. -/
def given? (f : Field) (doc : Toml.Entries) : Option Toml.Value :=
  item? f.part.names f.name (f.part.value doc)

def inFile? (f : Field) (doc : Toml.Entries) : Option f.Kind := (f.given? doc).bind f.read?

theorem server_part : ∀ f ∈ server, f.part = .server := by simp [server]
theorem client_part : ∀ f ∈ client, f.part = .client := by simp [client]
theorem paths_part : ∀ f ∈ paths, f.part = .paths := by simp [paths]

end Field

def isSection : Toml.Value → Bool
  | .table _ _ | .array _ | .moment _ => true
  | _ => false

/-- What a section holds under other names than those of its fields fits into a word. -/
def OthersFit (names : List String) : Toml.Value → Prop
  | .table _ entries => ∀ e ∈ entries, e.1 ∉ names → e.2.fits = true
  | _ => True

/-- Neither a section nor the document itself holds a number under an unknown name that a reader
could not pass over. -/
def AllOthersFit (doc : Toml.Entries) : Prop :=
  OthersFit Settings.fieldNames (.table .named doc) ∧
    ∀ part : Part, OthersFit part.names (part.value doc)

/-- A document that settings can be read from. -/
structure Readable (doc : Toml.Entries) : Prop where
  sections : ∀ part : Part, isSection (part.value doc) = true
  others : AllOthersFit doc
  fields : ∀ f ∈ Field.all, ∀ v, f.given? doc = some v → (f.read? v).isSome

/-- Whatever is made of the fields of a section is made of its entries under their names. -/
theorem fields?_bind_eq_some_iff {names : List String} {v : Toml.Value}
    {make : (String → Option Toml.Value) → Option α} {a : α} :
    (fields? names v).bind make = some a ↔
      (isSection v = true ∧ OthersFit names v) ∧
        make (fun name => item? names name v) = some a := by
  cases v with
  | table form entries =>
    rw [fields?]
    split
    · rename_i fit
      have others : OthersFit names (.table form entries) := by
        simpa [OthersFit, Decidable.or_iff_not_imp_left] using fit
      exact (and_iff_right ⟨rfl, others⟩).symm
    · rename_i unfit
      have others : ¬ OthersFit names (.table form entries) := by
        simpa [OthersFit, Decidable.or_iff_not_imp_left] using unfit
      simp only [others, Option.bind_none, and_false, false_and, reduceCtorEq]
  | array items => simp [fields?, isSection, OthersFit, item?]
  | moment literal => simp [fields?, isSection, OthersFit, item?]
  | _ => simp [fields?, isSection]

/-- A value that is read if it is given. -/
theorem sectionOr?_eq_some_iff {standard a : α} {read? : Toml.Value → Option α}
    {given : Option Toml.Value} : sectionOr? standard read? given = some a ↔
      (∀ v, given = some v → (read? v).isSome) ∧ a = (given.bind read?).getD standard := by
  rw [eq_comm (a := a)]
  cases given with
  | none => simp [sectionOr?]
  | some v => cases read : read? v <;> simp [sectionOr?, read]

theorem textOr?_eq (standard : String) (given : Option Toml.Value) :
    textOr? standard given = sectionOr? standard text? given := by
  rcases given with _ | v
  · rfl
  · cases v <;> rfl

/-- What is read is changed where it is read. -/
theorem sectionOr?_map (change : α → β) (standard : α) (read? : Toml.Value → Option α)
    (given : Option Toml.Value) : (sectionOr? standard read? given).map change =
      sectionOr? (change standard) (fun v => (read? v).map change) given := by
  cases given <;> rfl

theorem pathOr?_eq (standard : FilePath) (given : Option Toml.Value) :
    pathOr? standard given = sectionOr? standard path? given := by
  rw [pathOr?, textOr?_eq, sectionOr?_map]
  rfl

theorem optionalText?_eq (given : Option Toml.Value) :
    optionalText? given = sectionOr? none (fun v => (text? v).map some) given := by
  rcases given with _ | v
  · rfl
  · cases v <;> rfl

theorem optionalPath?_eq (given : Option Toml.Value) :
    optionalPath? given = sectionOr? none (fun v => (path? v).map some) given := by
  rw [optionalPath?, optionalText?_eq, sectionOr?_map]
  simp only [path?, Option.map_map]
  rfl

theorem policyOr?_eq (standard : LogoutPolicy) (given : Option Toml.Value) :
    policyOr? standard given = sectionOr? standard policy? given := by
  rcases given with _ | v
  · rfl
  · unfold policyOr? sectionOr? policy?
    split <;> simp_all

theorem naturalOr?_eq (standard bound : Nat) (given : Option Toml.Value) :
    naturalOr? standard bound given = sectionOr? standard (natural? bound) given := by
  rcases given with _ | v
  · rfl
  · cases v <;> rfl

theorem naturalOr?_map {word : Nat → α} {n : Nat} {standard : α} (same : word n = standard)
    (bound : Nat) (given : Option Toml.Value) : (naturalOr? n bound given).map word =
      sectionOr? standard (fun v => (natural? bound v).map word) given := by
  rw [naturalOr?_eq, sectionOr?_map, same]

section

variable {v : Toml.Value} {s : Settings}

theorem Server.read?_eq_some_iff :
    Server.read? v = some s.server ↔ (isSection v = true ∧ OthersFit fieldNames v) ∧
      ∀ f ∈ Field.server,
        sectionOr? f.standard f.read? (item? fieldNames f.name v) = some (f.get s) := by
  have word : standard.port.toNat.toUInt16 = standard.port := UInt16.ofNat_toNat
  obtain ⟨⟨_, _, _, _, _⟩, client⟩ := s
  rw [Server.read?, Option.bind_eq_bind, fields?_bind_eq_some_iff]
  refine and_congr_right fun _ => ?_
  simp only [textOr?_eq, pathOr?_eq, optionalPath?_eq, Option.bind_eq_bind,
    Option.bind_eq_some_iff, Field.server, List.forall_mem_cons]
  constructor
  · rintro ⟨bind, hasBind, port, hasPort, db, hasDb, audit, hasAudit, log, hasLog, made⟩
    cases made
    exact ⟨hasBind, (naturalOr?_map word ..).symm.trans (congrArg _ hasPort), hasDb, hasAudit,
      hasLog, by simp⟩
  · rintro ⟨hasBind, hasPort, hasDb, hasAudit, hasLog, -⟩
    obtain ⟨port, natural, rfl⟩ :=
      Option.map_eq_some_iff.1 ((naturalOr?_map word ..).trans hasPort)
    exact ⟨_, hasBind, port, natural, _, hasDb, _, hasAudit, _, hasLog, rfl⟩

theorem PrimaryPaths.read?_eq_some_iff :
    PrimaryPaths.read? v = some s.client.paths ↔ (isSection v = true ∧ OthersFit fieldNames v) ∧
      ∀ f ∈ Field.paths,
        sectionOr? f.standard f.read? (item? fieldNames f.name v) = some (f.get s) := by
  rw [PrimaryPaths.read?, Option.bind_eq_bind, fields?_bind_eq_some_iff]
  refine and_congr_right fun _ => ?_
  simp only [textOr?_eq, Option.bind_eq_bind, Option.bind_eq_some_iff,
    Field.paths, List.forall_mem_cons]
  constructor
  · rintro ⟨login, hasLogin, whoami, hasWhoami, logout, hasLogout, email, hasEmail, reset, hasReset,
      made⟩
    rw [← Option.some_inj.1 made]
    exact ⟨hasLogin, hasWhoami, hasLogout, hasEmail, hasReset, by simp⟩
  · rintro ⟨hasLogin, hasWhoami, hasLogout, hasEmail, hasReset, -⟩
    exact ⟨_, hasLogin, _, hasWhoami, _, hasLogout, _, hasEmail, _, hasReset, rfl⟩

theorem Client.read?_eq_some_iff :
    Client.read? v = some s.client ↔ (isSection v = true ∧ OthersFit fieldNames v) ∧
      (∀ f ∈ Field.client,
        sectionOr? f.standard f.read? (item? fieldNames f.name v) = some (f.get s)) ∧
      sectionOr? .standard PrimaryPaths.read? (item? fieldNames "paths" v) =
        some s.client.paths := by
  have word : standard.requestTimeout.toNat.toUInt64 = standard.requestTimeout :=
    UInt64.ofNat_toNat
  obtain ⟨server, _, _, _, _, _, _, _⟩ := s
  rw [Client.read?, Option.bind_eq_bind, fields?_bind_eq_some_iff]
  refine and_congr_right fun _ => ?_
  simp only [textOr?_eq, optionalText?_eq, optionalPath?_eq, policyOr?_eq,
    Option.bind_eq_bind, Option.bind_eq_some_iff, Field.client, List.forall_mem_cons]
  constructor
  · rintro ⟨primary, hasPrimary, api, hasApi, apiPrefix, hasPrefix, seconds, hasSeconds, policy,
      hasPolicy, storage, hasStorage, paths, hasPaths, made⟩
    cases made
    exact ⟨⟨hasPrimary, hasApi, hasPrefix,
      (naturalOr?_map word ..).symm.trans (congrArg _ hasSeconds), hasPolicy, hasStorage, by simp⟩,
      hasPaths⟩
  · rintro ⟨⟨hasPrimary, hasApi, hasPrefix, hasSeconds, hasPolicy, hasStorage, -⟩, hasPaths⟩
    obtain ⟨seconds, natural, rfl⟩ :=
      Option.map_eq_some_iff.1 ((naturalOr?_map word ..).trans hasSeconds)
    exact ⟨_, hasPrimary, _, hasApi, _, hasPrefix, seconds, natural, _, hasPolicy, _, hasStorage, _,
      hasPaths, rfl⟩

end

/-- A section that is left out has the value of one that leaves out all its fields. -/
theorem sectionOr?_eq_read? {read? : Toml.Value → Option α} {standard : α}
    (empty : read? (.table .named []) = some standard) (given : Option Toml.Value) :
    sectionOr? standard read? given = read? (orEmpty given) := by
  cases given with
  | none => exact empty.symm
  | some v => rfl

theorem Part.forall_iff {p : Part → Prop} :
    (∀ part, p part) ↔ p .server ∧ p .client ∧ p .paths :=
  ⟨fun all => ⟨all _, all _, all _⟩, fun ⟨_, _, _⟩ part => by cases part <;> assumption⟩

namespace Field

variable {doc : Toml.Entries} {s : Settings}

theorem forall_all_iff {p : Field → Prop} : (∀ f ∈ all, p f) ↔
    (∀ f ∈ server, p f) ∧ (∀ f ∈ client, p f) ∧ ∀ f ∈ paths, p f := by
  rw [all, List.forall_mem_append, List.forall_mem_append, and_assoc]

/-- The field has the value that a document gives to it, which can be read, or the standard one. -/
def TakenFrom (doc : Toml.Entries) (s : Settings) (f : Field) : Prop :=
  (∀ v, f.given? doc = some v → (f.read? v).isSome) ∧ f.get s = (f.inFile? doc).getD f.standard

theorem takenFrom_iff {fields : List Field} {part : Part} (within : ∀ f ∈ fields, f.part = part) :
    (∀ f ∈ fields, sectionOr? f.standard f.read? (item? part.names f.name (part.value doc)) =
      some (f.get s)) ↔ ∀ f ∈ fields, f.TakenFrom doc s := by
  refine forall₂_congr fun f member => ?_
  rw [← within f member, sectionOr?_eq_some_iff]
  rfl

end Field

namespace Settings

variable {doc : Toml.Entries} {s : Settings}

theorem ofEntries?_sections : ofEntries? doc = some s ↔
    OthersFit fieldNames (.table .named doc) ∧
      Server.read? (Part.server.value doc) = some s.server ∧
      Client.read? (Part.client.value doc) = some s.client := by
  have server := @sectionOr?_eq_read? _ Server.read? .standard (by rfl)
  have client := @sectionOr?_eq_read? _ Client.read? .standard (by rfl)
  rw [ofEntries?, Option.bind_eq_bind, fields?_bind_eq_some_iff]
  simp only [isSection, item?, true_and, server, client, Option.bind_eq_bind,
    Option.bind_eq_some_iff]
  refine and_congr_right fun _ => ⟨?_, ?_⟩
  · rintro ⟨_, hasServer, _, hasClient, made⟩
    cases made
    exact ⟨hasServer, hasClient⟩
  · rintro ⟨hasServer, hasClient⟩
    exact ⟨_, hasServer, _, hasClient, rfl⟩

/-- A document is read as settings field by field. -/
theorem ofEntries?_eq_some_iff : ofEntries? doc = some s ↔
    Readable doc ∧ ∀ f ∈ Field.all, f.get s = (f.inFile? doc).getD f.standard := by
  have paths := @sectionOr?_eq_read? _ PrimaryPaths.read? .standard (by rfl)
  rw [ofEntries?_sections, Server.read?_eq_some_iff, Client.read?_eq_some_iff, paths,
    show orEmpty (item? Client.fieldNames "paths" (Part.client.value doc)) =
      Part.paths.value doc from rfl,
    PrimaryPaths.read?_eq_some_iff]
  have server := @Field.takenFrom_iff doc s _ .server Field.server_part
  have client := @Field.takenFrom_iff doc s _ .client Field.client_part
  have paths := @Field.takenFrom_iff doc s _ .paths Field.paths_part
  simp only [Part.names] at server client paths
  rw [server, client, paths]
  constructor
  · rintro ⟨root, ⟨⟨s1, o1⟩, f1⟩, ⟨s2, o2⟩, f2, ⟨s3, o3⟩, f3⟩
    have all := Field.forall_all_iff.2 ⟨f1, f2, f3⟩
    exact ⟨⟨Part.forall_iff.2 ⟨s1, s2, s3⟩, ⟨root, Part.forall_iff.2 ⟨o1, o2, o3⟩⟩,
      fun f member => (all f member).1⟩, fun f member => (all f member).2⟩
  · rintro ⟨⟨sections, ⟨root, others⟩, reads⟩, values⟩
    obtain ⟨f1, f2, f3⟩ := Field.forall_all_iff.1 fun f member =>
      (⟨reads f member, values f member⟩ : f.TakenFrom doc s)
    exact ⟨root, ⟨⟨sections _, others _⟩, f1⟩, ⟨sections _, others _⟩, f2,
      ⟨sections _, others _⟩, f3⟩

end Settings

end CredentialGate.Config
