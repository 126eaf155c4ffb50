import CredentialGate.Proofs.Config.Known
import CredentialGate.Proofs.Files.Tree

/-! What each field of the loaded settings comes to: the value of the environment over that of the
file, and that over the standard one. A file that is there but cannot be read is a failure under
every environment. -/
namespace CredentialGate.Config

open Files

namespace Field

end Field

/-- What is found at the path of the settings: no entries where nothing stands, the entries of a
document, or a failure where something stands that is no such document. -/
inductive Found (path : FilePath) (t : Tree) : Except Failure Toml.Entries → Prop
  | nothing : t.contains path = false → Found path t (.ok [])
  | document {text : String} {doc : Toml.Entries} : t.contains path = true →
      t.readText? path = some text → Toml.read? text = some doc → Readable doc →
      Found path t (.ok doc)
  | unread : t.contains path = true → t.readText? path = none →
      Found path t (.error (.cannotRead path))
  | malformed {text : String} : t.contains path = true → t.readText? path = some text →
      (∀ doc, Toml.read? text = some doc → ¬ Readable doc) → Found path t (.error .malformed)

theorem Found.readable {path : FilePath} {t : Tree} {doc : Toml.Entries} :
    Found path t (.ok doc) → Readable doc
  | .nothing _ =>
    have standard : Settings.ofEntries? [] = some .standard := rfl
    (Settings.ofEntries?_eq_some_iff.1 standard).1
  | .document _ _ _ readable => readable

/-- A document that is alike but for what is unknown is found as well, if the unknown numbers in it
fit. -/
theorem Found.known {path : FilePath} {t u : Tree} {text : String} {doc other : Toml.Entries}
    (found : Found path t (.ok doc)) (content : u.readText? path = some text)
    (read : Toml.read? text = some other) (same : known other = known doc) :
    (AllOthersFit other → Found path u (.ok other)) ∧
      (¬ AllOthersFit other → Found path u (.error .malformed)) := by
  have there := Tree.contains_of_readText? content
  have kept : Readable (Config.known other) :=
    same ▸ (readable_iff_known.1 found.readable).1
  constructor
  · intro fit
    exact .document there content read (readable_iff_known.2 ⟨kept, fit⟩)
  · intro unfit
    refine .malformed there content fun doc' read' readable => ?_
    cases read.symm.trans read'
    exact unfit (readable_iff_known.1 readable).2

namespace Settings

end Settings

end CredentialGate.Config
