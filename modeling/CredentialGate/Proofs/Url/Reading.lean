import CredentialGate.Url.Reading

/-! What an address that has been read consists of. Behind two slashes there is a host and a path
of segments, and an address of the web always has them. -/
namespace CredentialGate.Url

/-- The address has a host, and a path that consists of segments. -/
structure Hosted (u : Url) : Prop where
  authority : ∃ a, u.authority? = some a
  route : ∃ parts, u.route = .segments parts

theorem readBehindSlashes_hosted {scheme : String} {cs : List Char} {u : Url}
    (read : readBehindSlashes scheme cs = .ok u) : u.scheme = scheme ∧ Hosted u := by
  cases taken : readAuthority scheme (cs.takeWhile (!endsAuthority (schemeKind scheme) ·)) with
  | error e => simp [readBehindSlashes, taken, bind, Except.bind] at read
  | ok authority =>
    simp only [readBehindSlashes, taken, bind, Except.bind, pure, Except.pure, Except.ok.injEq]
      at read
    subst read
    unfold finishBehindHost
    dsimp only
    split
    · split
      · exact ⟨rfl, ⟨_, rfl⟩, _, rfl⟩
      · split
        · exact ⟨rfl, ⟨_, rfl⟩, _, rfl⟩
        · exact ⟨rfl, ⟨_, rfl⟩, _, rfl⟩
    · exact ⟨rfl, ⟨_, rfl⟩, _, rfl⟩

theorem readFile_scheme {cs : List Char} {u : Url} (read : readFile cs = .ok u) :
    u.scheme = "file" := by
  unfold readFile at read
  split at read
  · rename_i a b rest
    split at read
    · dsimp only at read
      split at read
      · cases read
        rfl
      · cases host : Host.read (rest.takeWhile (!endsAuthority .file ·)) with
        | error e => simp [host, bind, Except.bind] at read
        | ok host' =>
          simp only [host, bind, Except.bind] at read
          cases read
          rfl
    · cases read
      rfl
  · cases read
    rfl

/-- A special scheme is that of an address with a host, or that of a file. -/
theorem read_hosted {s : String} {u : Url} (read : read s = .ok u)
    (special : schemeKind u.scheme = .special) : Hosted u := by
  unfold Url.read at read
  split at read
  · rename_i scheme rest _
    unfold readBehindScheme at read
    split at read
    · have isFile : schemeKind "file" = .file := rfl
      rw [readFile_scheme read, isFile] at special
      cases special
    · exact (readBehindSlashes_hosted read).2
    · rename_i other
      split at read
      · exact (readBehindSlashes_hosted read).2
      · cases read
        exact absurd special (by simp [finish, other])
      · cases read
        exact absurd special (by simp [other])
  · cases read

theorem schemeKind_web {u : Url} (web : u.isWeb = true) : schemeKind u.scheme = .special := by
  simp only [isWeb, Bool.or_eq_true, beq_iff_eq] at web
  rcases web with same | same <;> rw [same] <;> rfl

end CredentialGate.Url
