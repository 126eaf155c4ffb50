import CredentialGate.Proofs.Http.Directory

/-! What the address of a user looks like. The directory keeps everything of its own address but an
empty segment at the end of the path; the user is told in four segments behind it, of which the
authority and the name cannot start another. -/
namespace CredentialGate.Http.Directory

open Url Text

/-- A text of slashes. -/
def slashes (n : Nat) : String := String.ofList (List.replicate n '/')

/-! The ends of a text -/

theorem dropSlashes_slashes (n : Nat) (cs : List Char) :
    dropSlashes (List.replicate n '/' ++ cs) = dropSlashes cs :=
  List.dropWhile_append_of_pos fun c member => by simp [List.eq_of_mem_replicate member]

theorem dropLastSlashes_slashes (n : Nat) (cs : List Char) :
    dropLastSlashes (cs ++ List.replicate n '/') = dropLastSlashes cs := by
  rw [dropLastSlashes, List.reverse_append, List.reverse_replicate, dropSlashes_slashes,
    dropLastSlashes]

/-- Slashes behind a text are dropped in the end, also if nothing but slashes stands before them. -/
theorem dropBothSlashes (n : Nat) (cs : List Char) :
    dropLastSlashes (dropSlashes (cs ++ List.replicate n '/')) =
      dropLastSlashes (dropSlashes cs) := by
  have split : dropSlashes (cs ++ List.replicate n '/') =
      if (dropSlashes cs).isEmpty then dropSlashes (List.replicate n '/')
      else dropSlashes cs ++ List.replicate n '/' := List.dropWhile_append
  rw [split]
  split_ifs with bare
  · have none : dropSlashes (List.replicate n '/') = [] := by simp [dropSlashes]
    rw [none, List.isEmpty_iff.1 bare]
  · rw [dropLastSlashes_slashes]

theorem of_slashes (address path : String) (behind before after : Nat) :
    Directory.of (address ++ slashes behind) (slashes before ++ path ++ slashes after) =
      .of address path := by
  simp only [Directory.of, slashes, String.toList_append, String.toList_ofList, List.append_assoc,
    dropLastSlashes_slashes, dropSlashes_slashes, dropBothSlashes]

/-! The path of a directory -/

/-- The segments without an empty last one. -/
def lessEmptyLast (parts : List String) : List String :=
  if parts.getLast? = some "" then parts.dropLast else parts

theorem lessEmptyLast_concat (front : List String) (last : String) :
    lessEmptyLast (front ++ [last]) = if last = "" then front else front ++ [last] := by
  simp [lessEmptyLast]

theorem dropEmptyLast_concat (front : List String) (last : String) :
    dropEmptyLast (front ++ [last]) =
      if front ≠ [] ∧ last = "" then front else front ++ [last] := by
  simp [dropEmptyLast, List.length_pos_iff]

/-- Of two empty segments none is left: the one that stays is taken for the path of the root. -/
theorem rooted_dropEmptyLast (parts : List String) : rooted (dropEmptyLast parts) =
    if parts = ["", ""] then [] else lessEmptyLast parts := by
  rcases List.eq_nil_or_concat parts with rfl | ⟨front, last, rfl⟩
  · rfl
  rw [List.concat_eq_append, dropEmptyLast_concat, lessEmptyLast_concat]
  have two : front ++ [last] = ["", ""] ↔ front = [""] ∧ last = "" :=
    ⟨fun same => by simpa using List.append_inj' (show _ = [""] ++ [""] from same) rfl,
      by rintro ⟨rfl, rfl⟩; rfl⟩
  by_cases empty : last = ""
  · subst empty
    cases front with
    | nil => rfl
    | cons s front => simp [rooted]
  · simp [empty, rooted_append empty, two]

section

variable {d : Directory} {base : Url} (read : Url.read d.base = .ok base) (web : base.isWeb = true)
  {name : String} (undotted : visible name ∉ [['.'], ['.', '.']])

include read web undotted

theorem userUrl_undotted (authority : String) :
    ∃ parts, base.route = .segments parts ∧
      d.userUrl authority name = .ok { base with
        route := .segments ((if parts = ["", ""] then [] else lessEmptyLast parts) ++
          ["namespaces", segmentOf ("authority-" ++ authority), "users", segmentOf name]) } := by
  obtain ⟨parts, route⟩ := (base_hosted read web).route
  refine ⟨parts, route, ?_⟩
  rw [userUrl_eq read web, addressOf, placeOf_undotted undotted, rootOf, route]
  simp only [rooted_dropEmptyLast, collection, List.cons_append, List.nil_append]

end

/-- No text that is added to a path ends its segment, or starts a query or a fragment. -/
theorem segmentOf_plain (text : String) :
    ∀ c ∈ ['/', '?', '#', '\\'], c ∉ (segmentOf text).toList := by
  have coded : ∀ c ∈ ['/', '?', '#', '\\'], c ∈ specialSegmentSet := by
    simp [specialSegmentSet, segmentSet, pathSet]
  have noMark : '%' ∉ ['/', '?', '#', '\\'] := by decide
  have noDigit : ∀ n < 16, upperDigit n ∉ ['/', '?', '#', '\\'] := by decide
  intro c ending member
  rcases mem_encode member with outside | rfl | ⟨n, small, rfl⟩
  · exact outside (coded c ending)
  · exact noMark ending
  · exact noDigit n small ending

theorem decode_segmentOf (text : String) :
    decode (utf8 (segmentOf text)) = utf8 (String.ofList (visible text)) :=
  decode_encode mark_mem (visible text)

/-- Whether users have addresses is decided by the directory: its own address has to be one, with a
path that can be extended. -/
theorem userUrl_isSome (d : Directory) (authority name : String) :
    (d.userUrl authority name).toOption.isSome = true ↔
      ∃ base parts, Url.read d.base = .ok base ∧ base.route = .segments parts := by
  unfold userUrl
  cases read : Url.read d.base with
  | error e => simp [Except.toOption]
  | ok base =>
    obtain ⟨scheme, host, route, query, fragment⟩ := base
    cases route with
    | opaqueText text => simp [below?, Except.toOption]
    | segments parts => simp [below?, Except.toOption]

/-- Whatever the authority and the name of a user are, the address of a directory on the web is left
as it is but for its path. Four segments are added behind that, without its last segment if this is
empty; a path of two empty segments goes altogether. No segment that is added has a mark in it that
would end it, and each decodes to what is visible of the text. Only the directory decides whether
there is an address, and slashes at the ends of what it is made of do not count. -/
theorem user_segments_added (d : Directory) :
    (∀ base, Url.read d.base = .ok base → base.isWeb = true →
      ∀ authority name, visible name ∉ [['.'], ['.', '.']] →
        ∃ parts, base.route = .segments parts ∧
          d.userUrl authority name = .ok { base with
            route := .segments ((if parts = ["", ""] then [] else lessEmptyLast parts) ++
              ["namespaces", segmentOf ("authority-" ++ authority), "users", segmentOf name]) }) ∧
    (∀ text, (∀ c ∈ ['/', '?', '#', '\\'], c ∉ (segmentOf text).toList) ∧
      decode (utf8 (segmentOf text)) = utf8 (String.ofList (visible text))) ∧
    (∀ authority name, (d.userUrl authority name).toOption.isSome = true ↔
      ∃ base parts, Url.read d.base = .ok base ∧ base.route = .segments parts) ∧
    ∀ address path behind before after, Directory.of (address ++ slashes behind)
      (slashes before ++ path ++ slashes after) = .of address path := by
  refine ⟨?_, fun text => ?_, ?_, ?_⟩
  · intro base read web authority name undotted
    exact userUrl_undotted read web undotted authority
  · exact ⟨segmentOf_plain text, decode_segmentOf text⟩
  · exact userUrl_isSome d
  · exact of_slashes

/-- The segment of a name that looks like a path stands behind a path that ends with a slash, and
before the query. -/
theorem path_as_name_added :
    let d := Directory.of "https://k8s.example.org:6443/x/?q=1#f" ""
    ∃ base url, Url.read d.base = .ok base ∧ base.isWeb = true ∧
      visible "../a?\t%" ∉ [['.'], ['.', '.']] ∧ d.userUrl "lab" "../a?\t%" = .ok url ∧
      url.authority? = base.authority? ∧ url.query? = some "q=1" ∧
      url.route = .segments ["x", "namespaces", "authority-lab", "users", "..%2Fa%3F%25"] := by
  intro d
  have shown : (Url.read d.base).toOption.map (fun base => (base.isWeb, base.route, base.query?)) =
      some (true, .segments ["x", ""], some "q=1") := by decide +kernel
  obtain ⟨base, read, shown⟩ := exists_of_toOption shown
  obtain ⟨web, route, query⟩ : base.isWeb = true ∧ base.route = .segments ["x", ""] ∧
      base.query? = some "q=1" := by simpa using shown
  have undotted : visible "../a?\t%" ∉ [['.'], ['.', '.']] := by decide
  obtain ⟨parts, same, found⟩ :=
    (user_segments_added d).1 base read web "lab" "../a?\t%" undotted
  rw [route, Route.segments.injEq] at same
  subst same
  exact ⟨base, _, read, web, undotted, found, rfl, query,
    congrArg Route.segments (by decide +kernel)⟩

/-- Two slashes at the end of an address are lost when the path has nothing else. -/
theorem two_slashes_lost :
    let d := Directory.of "https://k8s.example.org" "\\"
    ∃ base url, Url.read d.base = .ok base ∧ base.isWeb = true ∧
      base.route = .segments ["", ""] ∧ d.userUrl "lab" "alice" = .ok url ∧
      url.text = "https://k8s.example.org/namespaces/authority-lab/users/alice" ∧
      url.route ≠ .segments (lessEmptyLast ["", ""] ++
        ["namespaces", segmentOf "authority-lab", "users", segmentOf "alice"]) := by
  intro d
  have shown : (Url.read d.base).toOption.map (fun base => (base.isWeb, base.route)) =
      some (true, .segments ["", ""]) := by decide +kernel
  have added : (d.userUrl "lab" "alice").toOption.map (fun url => (url.text, url.route)) =
      some ("https://k8s.example.org/namespaces/authority-lab/users/alice",
        .segments ["namespaces", "authority-lab", "users", "alice"]) := by decide +kernel
  obtain ⟨base, read, shown⟩ := exists_of_toOption shown
  obtain ⟨url, found, added⟩ := exists_of_toOption added
  obtain ⟨web, route⟩ := Prod.ext_iff.1 shown
  obtain ⟨text, lost⟩ := Prod.ext_iff.1 added
  refine ⟨base, url, read, web, route, found, text, fun same => ?_⟩
  have fewer := Route.segments.inj (lost.symm.trans same)
  exact absurd (congrArg List.length fewer) (by decide)

end CredentialGate.Http.Directory
