import CredentialGate.Http.Directory
import CredentialGate.Proofs.Url.Reading
import CredentialGate.Proofs.Url.Segments
import Mathlib.Tactic.SplitIfs

/-! Where a directory keeps its users. Every user has an address, below the collection of the users
of its authority as long as the name leads anywhere, and then no other user has the same. -/
namespace CredentialGate.Http.Directory

open Url

/-- The collection of the users of an authority, below the root of the directory. -/
def collection (authority : String) : List String :=
  ["namespaces", segmentOf ("authority-" ++ authority), "users"]

/-- What stands behind the root of the directory in the address of a user. -/
def placeOf (authority name : String) : List String :=
  if name = "." ∨ name = ".." then collection authority
  else if visible name = ['.', '.'] then
    ["namespaces", segmentOf ("authority-" ++ authority), ""]
  else if visible name = ['.'] then collection authority ++ [""]
  else collection authority ++ [segmentOf name]

theorem visible_authority (authority : String) :
    visible ("authority-" ++ authority) = "authority-".toList ++ visible authority := by
  have all : visible "authority-" = "authority-".toList := by decide
  rw [visible, String.toList_append, List.filter_append]
  exact congrArg (· ++ visible authority) all

/-- The four segments are added one after the other, each behind one that is not empty. -/
theorem push_user (parts : List String) (authority name : String) :
    (segmentsOf authority name).foldl (push .special) parts =
      rooted parts ++ placeOf authority name := by
  have shown := visible_authority authority
  have written : segmentOf ("authority-" ++ authority) ≠ "" := by
    rw [Ne, segmentOf_eq_empty, shown]
    simp
  have namespaces : push .special parts "namespaces" = rooted parts ++ ["namespaces"] :=
    push_segment (by decide) (by decide) parts
  have owner : push .special (rooted parts ++ ["namespaces"]) ("authority-" ++ authority) =
      rooted parts ++ ["namespaces"] ++ [segmentOf ("authority-" ++ authority)] := by
    rw [push_segment (by simp [shown]) (by simp [shown]), rooted_append (by decide)]
  have users : push .special
      (rooted parts ++ ["namespaces"] ++ [segmentOf ("authority-" ++ authority)]) "users" =
      rooted parts ++ ["namespaces"] ++ [segmentOf ("authority-" ++ authority)] ++ ["users"] := by
    have plain : segmentOf "users" = "users" := by decide
    rw [push_segment (by decide) (by decide), rooted_append written, plain]
  have above : goUp (rooted parts ++ ["namespaces"] ++ [segmentOf ("authority-" ++ authority)] ++
      ["users"]) = rooted parts ++ ["namespaces"] ++ [segmentOf ("authority-" ++ authority)] := by
    rw [goUp, List.getLast?_concat, List.dropLast_concat]
    exact if_neg (by decide)
  simp only [segmentsOf, List.foldl_cons, List.foldl_nil, namespaces, owner, users]
  rw [push_special, rooted_append (by decide), above, placeOf]
  split_ifs <;> simp [collection]

/-! Addresses -/

/-- The path of a directory, to which users are added. -/
def rootOf (base : Url) : List String :=
  match base.route with
  | .segments parts => rooted (dropEmptyLast parts)
  | .opaqueText _ => []

/-- The address of a place in a directory. -/
def addressOf (base : Url) (place : List String) : Url :=
  { base with route := .segments (rootOf base ++ place) }

section

variable {d : Directory} {base : Url} (read : Url.read d.base = .ok base) (web : base.isWeb = true)

include read web

theorem base_hosted : Hosted base := read_hosted read (schemeKind_web web)

/-- Every user has an address. -/
theorem userUrl_eq (authority name : String) :
    d.userUrl authority name = .ok (addressOf base (placeOf authority name)) := by
  obtain ⟨parts, route⟩ := (base_hosted read web).route
  have below : base.below? (segmentsOf authority name) =
      some (addressOf base (placeOf authority name)) := by
    simp only [below?, addressOf, rootOf, route, schemeKind_web web, push_user]
  simp only [userUrl, read, below]

end

/-- Addresses in one directory are told apart by what stands behind its path. -/
theorem addressOf_text {base : Url} (hosted : Hosted base) {place other : List String}
    (same : (addressOf base place).text = (addressOf base other).text) :
    (Route.segments place).text = (Route.segments other).text := by
  obtain ⟨⟨host, authority⟩, -⟩ := hosted
  replace same := congrArg String.toList same
  simp only [Url.text, target, pathText, addressOf, authority, String.toList_append, toList_route,
    List.flatMap_append, List.append_assoc, List.append_cancel_left_eq] at same
  simp only [← String.toList_inj, toList_route]
  simpa only [← List.append_assoc, List.append_cancel_right_eq] using same

theorem noSlash_placeOf (authority name : String) : ∀ s ∈ placeOf authority name, NoSlash s := by
  have namespaces : NoSlash "namespaces" := by simp [NoSlash]
  have users : NoSlash "users" := by simp [NoSlash]
  have empty : NoSlash "" := by simp [NoSlash]
  unfold placeOf
  split_ifs <;> simp [collection, namespaces, users, empty, noSlash_segmentOf]

/-- What an address shows of the name is neither empty nor a step along the path. -/
def Leads (name : String) : Prop := visible name ∉ [[], ['.'], ['.', '.']]

instance (name : String) : Decidable (Leads name) :=
  inferInstanceAs (Decidable (visible name ∉ [[], ['.'], ['.', '.']]))

/-- Any text but one or two dots is a segment below the collection. -/
theorem placeOf_undotted {name : String} (undotted : visible name ∉ [['.'], ['.', '.']])
    (authority : String) : placeOf authority name = collection authority ++ [segmentOf name] := by
  simp only [List.mem_cons, List.not_mem_nil, or_false, not_or] at undotted
  obtain ⟨oneDot, twoDots⟩ := undotted
  have named : ¬ (name = "." ∨ name = "..") := by
    rintro (rfl | rfl)
    · exact oneDot (by decide)
    · exact twoDots (by decide)
  rw [placeOf, if_neg named, if_neg twoDots, if_neg oneDot]

theorem placeOf_leading {name : String} (leads : Leads name) (authority : String) :
    placeOf authority name = collection authority ++ [segmentOf name] :=
  placeOf_undotted (fun dotted => leads (List.mem_cons_of_mem _ dotted)) authority

/-- Only a name that leads anywhere has a place below the collection. -/
theorem leads_of_placeOf {authority name owner segment : String} (written : segment ≠ "")
    (below : placeOf authority name = collection owner ++ [segment]) : Leads name := by
  unfold placeOf at below
  split_ifs at below with dots up stays
  · simp [collection] at below
  · simp [collection] at below
  · simp [collection, Ne.symm written] at below
  · simp only [collection, List.cons_append, List.nil_append, List.cons.injEq] at below
    obtain ⟨-, -, -, rfl, -⟩ := below
    rw [Ne, segmentOf_eq_empty] at written
    simp [Leads, written, up, stays]

theorem Leads.written {name : String} (leads : Leads name) : segmentOf name ≠ "" := by
  rw [Ne, segmentOf_eq_empty]
  intro empty
  simp [Leads, empty] at leads

theorem visible_authority_inj {authority authority' : String} :
    visible ("authority-" ++ authority') = visible ("authority-" ++ authority) ↔
      visible authority' = visible authority := by
  rw [visible_authority, visible_authority, List.append_cancel_left_eq]

/-- A place below a collection has one owner. -/
theorem placeOf_eq_iff {name : String} (leads : Leads name) (authority authority' name' : String) :
    placeOf authority' name' = placeOf authority name ↔
      visible authority' = visible authority ∧ visible name' = visible name := by
  rw [placeOf_leading leads]
  constructor
  · intro same
    rw [placeOf_leading (leads_of_placeOf leads.written same)] at same
    simpa [collection, segmentOf_inj, visible_authority_inj] using same
  · rintro ⟨owner, shown⟩
    have leads' : Leads name' := by rwa [Leads, shown]
    simp [placeOf_leading leads', collection, segmentOf_inj, visible_authority_inj, owner, shown]

/-- Every user has an address in a directory on the web. It lies below the collection of the users
of the authority if and only if the name leads anywhere, and then only a user of the same name and
authority, but for tabs and line ends, has the same one. -/
theorem addresses_tell_users {d : Directory} {base : Url} (read : Url.read d.base = .ok base)
    (web : base.isWeb = true) (authority name : String) :
    ∃ url, d.userUrl authority name = .ok url ∧
      ((∃ segment, segment ≠ "" ∧
        url.route = .segments (rootOf base ++ collection authority ++ [segment])) ↔ Leads name) ∧
      (Leads name → ∀ authority' name' url', d.userUrl authority' name' = .ok url' →
        (url'.text = url.text ↔
          visible authority' = visible authority ∧ visible name' = visible name)) := by
  refine ⟨_, userUrl_eq read web authority name, ⟨?_, fun leads => ?_⟩, ?_⟩
  · rintro ⟨segment, written, below⟩
    simp only [addressOf, Route.segments.injEq, List.append_assoc, List.append_cancel_left_eq]
      at below
    exact leads_of_placeOf written below
  · refine ⟨segmentOf name, leads.written, ?_⟩
    simp only [addressOf, placeOf_leading leads, List.append_assoc]
  · intro leads authority' name' url' found
    rw [userUrl_eq read web authority' name', Except.ok.injEq] at found
    subst found
    rw [← placeOf_eq_iff leads authority]
    constructor
    · intro same
      exact route_text_inj (noSlash_placeOf authority' name') (noSlash_placeOf authority name)
        (addressOf_text (base_hosted read web) same)
    · intro same
      rw [same]

/-- What is shown of a result is shown of one that there is. -/
theorem exists_of_toOption {x : Except ε α} {f : α → β} {b : β}
    (shown : x.toOption.map f = some b) : ∃ a, x = .ok a ∧ f a = b := by
  cases x with
  | error e => simp [Except.toOption] at shown
  | ok a => exact ⟨a, rfl, Option.some.inj shown⟩

/-- A slash in a name starts no segment, so the name is that of one user. -/
theorem slashed_name_addressed :
    let d : Directory := .of "https://k8s.example.org" "/apis"
    ∃ base url, Url.read d.base = .ok base ∧ base.isWeb = true ∧
      d.userUrl "lab" "../a" = .ok url ∧
      url.text = "https://k8s.example.org/apis/namespaces/authority-lab/users/..%2Fa" ∧
      ∀ name', d.userUrl "lab" name' = .ok url → visible name' = "../a".toList := by
  intro d
  have web : (Url.read d.base).toOption.map (·.isWeb) = some true := by decide +kernel
  have written : (d.userUrl "lab" "../a").toOption.map (·.text) =
      some "https://k8s.example.org/apis/namespaces/authority-lab/users/..%2Fa" := by decide +kernel
  have leads : Leads "../a" := by decide
  obtain ⟨base, read, web⟩ := exists_of_toOption web
  obtain ⟨url, found, -, alone⟩ := addresses_tell_users read web "lab" "../a"
  refine ⟨base, url, read, web, found, ?_, fun name' same => ?_⟩
  · simpa [found, Except.toOption] using written
  · exact ((alone leads "lab" name' url same).1 rfl).2

/-- Names of one and of two dots lead to the collection itself, and to the same address. -/
theorem dotted_names_share_address :
    let d : Directory := .of "https://k8s.example.org" "/apis"
    ∃ url, d.userUrl "lab" "." = .ok url ∧ d.userUrl "lab" ".." = .ok url ∧
      url.text = "https://k8s.example.org/apis/namespaces/authority-lab/users" := by
  intro d
  have written : (d.userUrl "lab" ".").toOption.map (·.text) =
      some "https://k8s.example.org/apis/namespaces/authority-lab/users" := by decide +kernel
  have same : d.userUrl "lab" ".." = d.userUrl "lab" "." := rfl
  rw [same]
  obtain ⟨url, found, text⟩ := exists_of_toOption written
  exact ⟨url, found, found, text⟩

end CredentialGate.Http.Directory
