import CredentialGate.Files.Tree

/-! What stays of a tree when it changes. Paths lead by way of directories, so where a path leads
depends on nothing else. -/
namespace CredentialGate.Files.Tree

/-- What is left without one key is found under every other. -/
theorem lookup_others [BEq α] [LawfulBEq α] [DecidableEq α] (entries : List (α × β))
    (key other : α) : (entries.filter (·.1 ≠ key)).lookup other =
      if other = key then none else entries.lookup other := by
  induction entries with
  | nil => simp
  | cons entry entries ih =>
    obtain ⟨own, value⟩ := entry
    rw [List.filter_cons]
    split <;> grind

/-- The root is a directory. -/
theorem ne_root {t : Tree} {place : Place} (apart : t.node? place ≠ some .directory) :
    place ≠ [] := by
  rintro rfl
  exact apart rfl

theorem node?_set (t : Tree) {place : Place} (named : place ≠ []) (node : Node) (other : Place) :
    (t.set place node).node? other = if other = place then some node else t.node? other := by
  simp only [node?, set, List.lookup_cons, lookup_others]
  by_cases same : other = place
  · subst same
    simp [named]
  · simp [same, beq_false_of_ne same]

theorem node?_erase (t : Tree) {place : Place} (named : place ≠ []) (other : Place) :
    (t.erase place).node? other = if other = place then none else t.node? other := by
  simp only [node?, erase, lookup_others]
  by_cases same : other = place
  · subst same
    simp [named]
  · simp [same]

/-- Every directory of the one is a directory of the other, and paths start at the same place. -/
structure Within (t u : Tree) : Prop where
  here : u.here = t.here
  directories : ∀ place, t.node? place = some .directory → u.node? place = some .directory

theorem Within.refl (t : Tree) : Within t t := ⟨rfl, fun _ => id⟩

theorem Within.trans {t u v : Tree} (first : Within t u) (later : Within u v) : Within t v :=
  ⟨later.here.trans first.here,
    fun place directory => later.directories place (first.directories place directory)⟩

/-- A node put where no directory stands takes none away. -/
theorem within_set (t : Tree) {place : Place} (vacant : t.node? place ≠ some .directory)
    (node : Node) : Within t (t.set place node) where
  here := rfl
  directories other directory := by
    rw [node?_set t (ne_root vacant)]
    split
    · rename_i same
      exact absurd (same ▸ directory) vacant
    · exact directory

theorem Within.walk {t u : Tree} (within : Within t u) {place found : Place} {parts : List String}
    (walked : t.walk place parts = some found) : u.walk place parts = some found := by
  induction parts generalizing place with
  | nil => exact walked
  | cons part parts ih =>
    simp only [Tree.walk] at walked ⊢
    split at walked
    · rename_i directory
      simp only [within.directories place directory]
      split at walked
      · rw [if_pos ‹_›]
        exact ih walked
      · split at walked
        · rw [if_neg ‹_›, if_pos ‹_›]
          exact ih walked
        · cases walked
    · cases walked

theorem Within.locate {t u : Tree} (within : Within t u) {p : FilePath} {place : Place}
    (located : t.locate p = some place) : u.locate p = some place := by
  simp only [Tree.locate, startOf, within.here] at located ⊢
  split at located
  · rw [if_pos ‹_›]
    exact within.walk located
  · cases located

theorem within_makeAlong (t : Tree) (place : Place) (parts : List String) :
    Within t (t.makeAlong place parts).2 := by
  induction parts generalizing t place with
  | nil => exact .refl t
  | cons part parts ih =>
    simp only [makeAlong]
    split
    · exact ih t place.dropLast
    · split
      · split
        · exact ih t (place ++ [part])
        · exact .refl t
        · rename_i vacant
          exact (within_set t (by simp [vacant]) .directory).trans (ih _ _)
      · exact .refl t

/-- Directories that have been made need not be made again. -/
theorem makeAlong_again {t u v : Tree} {place : Place} {parts : List String}
    (made : t.makeAlong place parts = (true, u)) (within : Within u v) :
    v.makeAlong place parts = (true, v) := by
  induction parts generalizing t place with
  | nil => rfl
  | cons part parts ih =>
    simp only [makeAlong] at made ⊢
    split at made
    · rw [if_pos ‹_›]
      exact ih made
    · rw [if_neg ‹_›]
      split at made
      · rw [if_pos ‹_›]
        split at made
        · rename_i directory
          have kept : Within t u := by simpa [made] using within_makeAlong t (place ++ [part]) parts
          simp only [within.directories _ (kept.directories _ directory)]
          exact ih made
        · cases made
        · have kept : Within (t.set (place ++ [part]) .directory) u := by
            have along :=
              within_makeAlong (t.set (place ++ [part]) .directory) (place ++ [part]) parts
            simpa [made] using along
          -- The directory that was made here is still one in `u`, and so in `v`.
          have directory : (t.set (place ++ [part]) .directory).node? (place ++ [part]) =
              some .directory := by
            simp [node?_set]
          simp only [within.directories _ (kept.directories _ directory)]
          exact ih made
      · cases made

theorem within_makeParents (t : Tree) (p : FilePath) : Within t (t.makeParents p).2 := by
  simp only [makeParents, makeDirectories]
  split
  · exact .refl t
  · split
    · exact within_makeAlong t _ _
    · exact .refl t

theorem makeParents_again {t u v : Tree} {p : FilePath} (made : t.makeParents p = (true, u))
    (within : Within u v) : v.makeParents p = (true, v) := by
  have start : v.startOf p.parent = t.startOf p.parent := by
    have kept : Within t u := by simpa [made] using within_makeParents t p
    simp [startOf, within.here, kept.here]
  simp only [makeParents, makeDirectories, start] at made ⊢
  by_cases shallow : p.parts.length ≤ 1
  · rw [if_pos shallow]
  · rw [if_neg shallow] at made ⊢
    by_cases usable : p.parent.isUsable = true
    · rw [if_pos usable] at made ⊢
      exact makeAlong_again made within
    · rw [if_neg usable] at made
      cases made

/-- A second try to make directories makes no more than the first. -/
theorem makeAlong_settled {t u : Tree} {place : Place} {parts : List String} {made : Bool}
    (tried : t.makeAlong place parts = (made, u)) : u.makeAlong place parts = (made, u) := by
  induction parts generalizing t place with
  | nil =>
    cases tried
    rfl
  | cons part parts ih =>
    simp only [makeAlong] at tried ⊢
    split at tried
    · rw [if_pos ‹_›]
      exact ih tried
    · rw [if_neg ‹_›]
      split at tried
      · rw [if_pos ‹_›]
        have kept : ∀ v : Tree, v.makeAlong (place ++ [part]) parts = (made, u) →
            v.node? (place ++ [part]) = some .directory →
            u.node? (place ++ [part]) = some .directory := by
          intro v further directory
          have within := within_makeAlong v (place ++ [part]) parts
          rw [further] at within
          exact within.directories _ directory
        split at tried
        · rename_i directory
          simp only [kept t tried directory]
          exact ih tried
        · rename_i standing
          cases tried
          simp [standing]
        · have directory : (t.set (place ++ [part]) .directory).node? (place ++ [part]) =
              some .directory := by
            simp [node?_set]
          simp only [kept _ tried directory]
          exact ih tried
      · rw [if_neg ‹_›]
        cases tried
        rfl

/-- Making directories leaves the files alone. -/
theorem makeAlong_file (t : Tree) (place : Place) (parts : List String) (other : Place) (f : File) :
    (t.makeAlong place parts).2.node? other = some (.file f) ↔ t.node? other = some (.file f) := by
  induction parts generalizing t place with
  | nil => rfl
  | cons part parts ih =>
    simp only [makeAlong]
    split
    · exact ih t place.dropLast
    · split
      · split
        · exact ih t (place ++ [part])
        · rfl
        · rename_i vacant
          rw [ih, node?_set t (by simp)]
          split
          · rename_i same
            simp [same, vacant]
          · rfl
      · rfl

theorem makeParents_file (t : Tree) (p : FilePath) (place : Place) (f : File) :
    (t.makeParents p).2.node? place = some (.file f) ↔ t.node? place = some (.file f) := by
  simp only [makeParents, makeDirectories]
  split
  · rfl
  · split
    · exact makeAlong_file ..
    · rfl

theorem makeParents_settled {t u : Tree} {p : FilePath} {made : Bool}
    (tried : t.makeParents p = (made, u)) : u.makeParents p = (made, u) := by
  have start : u.startOf p.parent = t.startOf p.parent := by
    have kept : Within t u := by simpa [tried] using within_makeParents t p
    simp [startOf, kept.here]
  simp only [makeParents, makeDirectories, start] at tried ⊢
  by_cases shallow : p.parts.length ≤ 1
  · rw [if_pos shallow] at tried ⊢
    cases tried
    rfl
  · rw [if_neg shallow] at tried ⊢
    by_cases usable : p.parent.isUsable = true
    · rw [if_pos usable] at tried ⊢
      exact makeAlong_settled tried
    · rw [if_neg usable] at tried ⊢
      cases tried
      rfl

/-- The place that a path names, whether or not directories lead there. -/
def placeNamed (t : Tree) (p : FilePath) : Place := p.parts.foldl onward (t.startOf p)
where onward (place : Place) (part : String) : Place :=
  if part = ".." then place.dropLast else place ++ [part]

theorem walk_named {t : Tree} {place found : Place} {parts : List String}
    (walked : t.walk place parts = some found) : found = parts.foldl placeNamed.onward place := by
  induction parts generalizing place with
  | nil =>
    cases walked
    rfl
  | cons part parts ih =>
    simp only [Tree.walk] at walked
    split at walked
    · split at walked
      · rename_i up
        rw [ih walked, List.foldl_cons, placeNamed.onward, if_pos up]
      · rename_i down
        split at walked
        · rw [ih walked, List.foldl_cons, placeNamed.onward, if_neg down]
        · cases walked
    · cases walked

theorem locate_named {t : Tree} {p : FilePath} {place : Place}
    (located : t.locate p = some place) : place = t.placeNamed p := by
  simp only [locate] at located
  split at located
  · exact walk_named located
  · cases located

/-- Making the directories on the way to a file does not make the file. -/
theorem makeParents_vacant {t : Tree} {p : FilePath}
    (vacant : ∀ f, t.node? (t.placeNamed p) ≠ some (.file f)) :
    (t.makeParents p).2.file? p = none := by
  have start : (t.makeParents p).2.startOf p = t.startOf p := by
    simp only [startOf, (within_makeParents t p).here]
  cases located : (t.makeParents p).2.locate p with
  | none => simp [file?, find?, located]
  | some place =>
    have named : place = t.placeNamed p := by
      rw [locate_named located, placeNamed, start, placeNamed]
    cases standing : (t.makeParents p).2.node? place with
    | none => simp [file?, find?, located, standing]
    | some node =>
      cases node with
      | directory => simp [file?, find?, located, standing]
      | file f =>
        rw [makeParents_file, named] at standing
        exact absurd standing (vacant f)

/-- What is opened has stood there before, or is empty. -/
theorem openFile?_before {t u : Tree} {p : FilePath} {place : Place} {f : File}
    (opened : t.openFile? p = some (place, f, u)) :
    t.node? place = some (.file f) ∨ t.node? place = none ∧ f.content = .bytes [] := by
  unfold openFile? at opened
  split at opened
  · cases opened
  · split at opened
    · cases opened
    · rename_i standing
      split at opened
      · cases opened
      · cases opened
        exact .inl standing
    · rename_i vacant
      split at opened
      · cases opened
      · cases opened
        exact .inr ⟨vacant, rfl⟩

theorem openFile?_located {t u : Tree} {p : FilePath} {place : Place} {f : File}
    (opened : t.openFile? p = some (place, f, u)) : t.locate p = some place := by
  unfold openFile? at opened
  split at opened
  · cases opened
  · rename_i located
    rw [located]
    split at opened
    · cases opened
    · split at opened <;> cases opened
      rfl
    · split at opened <;> cases opened
      rfl

theorem openFile?_stands {t u : Tree} {p : FilePath} {place : Place} {f : File}
    (opened : t.openFile? p = some (place, f, u)) :
    Within t u ∧ u.locate p = some place ∧ u.node? place = some (.file f) ∧
      p.endsInDirectory = false := by
  unfold openFile? at opened
  split at opened
  · cases opened
  · rename_i found located
    split at opened
    · cases opened
    · rename_i file standing
      split at opened
      · cases opened
      · cases opened
        exact ⟨.refl t, located, standing, by simp_all⟩
    · rename_i vacant
      split at opened
      · cases opened
      · cases opened
        have free : t.node? place ≠ some .directory := by simp [vacant]
        have kept := within_set t free (.file ⟨t.fresh, .bytes [], fileMode⟩)
        have within : Within t { t.set place (.file ⟨t.fresh, .bytes [], fileMode⟩) with
            fresh := t.fresh + 1 } := ⟨kept.here, kept.directories⟩
        refine ⟨within, within.locate located, ?_, by simp_all⟩
        exact (node?_set t (ne_root free) _ place).trans (if_pos rfl)

theorem openFile?_again {t : Tree} {p : FilePath} {place : Place} {f : File}
    (located : t.locate p = some place) (standing : t.node? place = some (.file f))
    (plain : p.endsInDirectory = false) : t.openFile? p = some (place, f, t) := by
  simp [openFile?, located, standing, plain]

/-- A file that is put in the place of another is found in the same way. -/
theorem set_found {t : Tree} {p : FilePath} {place : Place} {f : File}
    (located : t.locate p = some place) (standing : t.node? place = some (.file f)) (g : File) :
    Within t (t.set place (.file g)) ∧ (t.set place (.file g)).locate p = some place ∧
      (t.set place (.file g)).node? place = some (.file g) := by
  have free : t.node? place ≠ some .directory := by simp [standing]
  have within := within_set t free (.file g)
  exact ⟨within, within.locate located, (node?_set t (ne_root free) _ place).trans (if_pos rfl)⟩

/-- A file that is erased takes no directory along. -/
theorem erase_found {t : Tree} {place : Place} {f : File}
    (standing : t.node? place = some (.file f)) :
    Within t (t.erase place) ∧ (t.erase place).node? place = none := by
  have named : place ≠ [] := ne_root (by simp [standing] : t.node? place ≠ some .directory)
  refine ⟨⟨rfl, fun other directory => ?_⟩, (node?_erase t named place).trans (if_pos rfl)⟩
  rw [node?_erase t named, if_neg]
  · exact directory
  · rintro rfl
    simp [standing] at directory

theorem set_stands {t : Tree} {p : FilePath} {place : Place} {f : File}
    (located : t.locate p = some place) (parents : t.makeParents p = (true, t))
    (standing : t.node? place = some (.file f)) (g : File) :
    (t.set place (.file g)).locate p = some place ∧
      (t.set place (.file g)).makeParents p = (true, t.set place (.file g)) ∧
      (t.set place (.file g)).node? place = some (.file g) := by
  obtain ⟨within, found, stands⟩ := set_found located standing g
  exact ⟨found, makeParents_again parents within, stands⟩

theorem readBytes?_found {t : Tree} {p : FilePath} {place : Place} {serial mode : Nat} {b : Bytes}
    (located : t.locate p = some place) (plain : p.endsInDirectory = false)
    (standing : t.node? place = some (.file ⟨serial, .bytes b, mode⟩)) :
    t.readBytes? p = some b := by
  simp [readBytes?, read?, file?, find?, located, standing, plain]

/-- What is found at a path stands where it leads, and is a directory if one is asked for. -/
theorem find?_stands {t : Tree} {p : FilePath} {node : Node} (found : t.find? p = some node) :
    ∃ place, t.locate p = some place ∧ t.node? place = some node ∧
      (node ≠ .directory → p.endsInDirectory = false) := by
  unfold find? at found
  split at found
  · rename_i standing
    cases found
    obtain ⟨place, located, stands⟩ := Option.bind_eq_some_iff.1 standing
    exact ⟨place, located, stands, fun other => absurd rfl other⟩
  · rename_i standing
    split at found
    · cases found
    · cases found
      obtain ⟨place, located, stands⟩ := Option.bind_eq_some_iff.1 standing
      exact ⟨place, located, stands, fun _ => by simp_all⟩
  · cases found

theorem contains_of_readText? {t : Tree} {p : FilePath} {text : String}
    (content : t.readText? p = some text) : t.contains p = true := by
  cases found : t.find? p with
  | none => simp [readText?, readBytes?, read?, file?, found] at content
  | some node => rw [contains, found, Option.isSome_some]

/-- What can be read stands at the path as a file. -/
theorem readBytes?_stands {t : Tree} {p : FilePath} {b : Bytes}
    (read : t.readBytes? p = some b) :
    ∃ place f, t.locate p = some place ∧ t.node? place = some (.file f) ∧ f.content = .bytes b ∧
      p.endsInDirectory = false := by
  simp only [readBytes?, read?, file?] at read
  cases found : t.find? p with
  | none => simp [found] at read
  | some node =>
    obtain ⟨place, located, standing, plain⟩ := find?_stands found
    cases node with
    | directory => simp [found] at read
    | file f =>
      refine ⟨place, f, located, standing, ?_, plain (by simp)⟩
      cases content : f.content with
      | bytes own => simpa [found, content] using read
      | users own => simp [found, content] at read

theorem write?_stands {t u : Tree} {p : FilePath} {b : Bytes}
    (written : t.write? p (.bytes b) = some u) :
    ∃ place f, u.locate p = some place ∧ u.node? place = some (.file f) ∧ f.content = .bytes b ∧
      p.endsInDirectory = false := by
  obtain ⟨⟨place, f, opened⟩, found, put⟩ := Option.bind_eq_some_iff.1 written
  obtain ⟨-, located, stands, plain⟩ := openFile?_stands found
  obtain ⟨-, located, stands⟩ := set_found located stands { f with content := .bytes b }
  cases put
  exact ⟨place, _, located, stands, rfl, plain⟩

theorem readBytes?_write? {t u : Tree} {p : FilePath} {b : Bytes}
    (written : t.write? p (.bytes b) = some u) : u.readBytes? p = some b := by
  obtain ⟨place, ⟨serial, content, mode⟩, located, stands, rfl, plain⟩ := write?_stands written
  exact readBytes?_found located plain stands

/-- What is written is read, also once its mode has been set. -/
theorem readBytes?_written {t u v : Tree} {p : FilePath} {b : Bytes} {mode : Nat}
    (written : t.write? p (.bytes b) = some u) (restricted : u.setMode? p mode = some v) :
    v.readBytes? p = some b := by
  obtain ⟨place, ⟨serial, content, former⟩, located, stands, rfl, plain⟩ := write?_stands written
  simp only [setMode?, located, stands, Option.bind_eq_bind, Option.bind_some] at restricted
  cases restricted
  obtain ⟨-, located, stands⟩ := set_found located stands ⟨serial, .bytes b, mode⟩
  exact readBytes?_found located plain stands

/-- What becomes of a node when bytes are appended to the file of a serial number. -/
def appended (serial : Nat) (b : Bytes) : Node → Node
  | .directory => .directory
  | .file f =>
    .file <|
      if f.serial = serial then
        match f.content with
        | .bytes old => { f with content := .bytes (old ++ b) }
        | .users _ => f
      else f

theorem node?_appendTo (t : Tree) (serial : Nat) (b : Bytes) (place : Place) :
    (t.appendTo serial b).node? place = (t.node? place).map (appended serial b) := by
  unfold node?
  split
  · rfl
  · simp only [appendTo]
    induction t.nodes with
    | nil => rfl
    | cons entry nodes ih =>
      obtain ⟨key, node⟩ := entry
      cases node with
      | directory =>
        simp only [List.map_cons, List.lookup_cons, ih]
        cases place == key <;> rfl
      | file f =>
        simp only [List.map_cons, List.lookup_cons, ih]
        cases place == key <;> rfl

theorem within_appendTo (t : Tree) (serial : Nat) (b : Bytes) : Within t (t.appendTo serial b) where
  here := rfl
  directories place directory := by
    rw [node?_appendTo, directory]
    rfl

end CredentialGate.Files.Tree
