import CredentialGate.Proofs.Files.Tree
import CredentialGate.Proofs.Text.Utf8

/-! The directory that a path stands in. Its path is the beginning of the other, without the last
part: so it is walked in the same way, and where the one leads somewhere the other does. -/
namespace CredentialGate.Files

namespace FilePath

/-- The text of parts, with a slash behind each. -/
def closed (parts : List String) : List Char := parts.flatMap (·.toList ++ ['/'])

/-- A part holds no slash. -/
def Bare (part : String) : Prop := '/' ∉ part.toList

/-- Parts are joined by slashes between them. -/
theorem joined_closed (part : String) (more : List String) :
    ("/".intercalate (part :: more)).toList ++ ['/'] = closed (part :: more) := by
  rw [String.toList_intercalate]
  induction more generalizing part with
  | nil => simp [closed, List.intercalate]
  | cons next more ih =>
    rw [List.map_cons, List.map_cons, List.intercalate_cons_cons, List.append_assoc,
      ← List.map_cons, ih next, closed, List.flatMap_cons]
    rfl

theorem splitFrom_closed (part text : List Char) :
    closed (splitFrom part text) = part.reverse ++ text ++ ['/'] := by
  induction text generalizing part with
  | nil => simp [splitFrom, closed]
  | cons c text ih =>
    rw [splitFrom]
    split
    · rename_i slash
      rw [closed, List.flatMap_cons, ← closed, ih, slash]
      simp
    · rw [ih]
      simp

theorem splitFrom_bare (part text rest : List Char) (bare : '/' ∉ text) :
    splitFrom part (text ++ rest) = splitFrom (text.reverse ++ part) rest := by
  induction text generalizing part with
  | nil => rfl
  | cons c text ih =>
    rw [List.mem_cons, not_or] at bare
    rw [List.cons_append, splitFrom, if_neg (Ne.symm bare.1), ih _ bare.2]
    simp

theorem splitFrom_parts (part text : List Char) (bare : '/' ∉ part) :
    ∀ s ∈ splitFrom part text, Bare s := by
  induction text generalizing part with
  | nil => simpa [splitFrom, Bare] using bare
  | cons c text ih =>
    rw [splitFrom]
    split
    · exact List.forall_mem_cons.2 ⟨by simpa [Bare] using bare, ih [] (by simp)⟩
    · rename_i other
      exact ih (c :: part) (by simp [Ne.symm other, bare])

/-- Parts that have been joined are split again. -/
theorem splitFrom_joined (part : String) (more : List String)
    (bare : ∀ s ∈ part :: more, Bare s) :
    splitFrom [] ("/".intercalate (part :: more)).toList = part :: more := by
  have last (s : String) (held : Bare s) : splitFrom [] s.toList = [s] := by
    have split := splitFrom_bare [] s.toList [] held
    simpa [splitFrom] using split
  rw [String.toList_intercalate]
  induction more generalizing part with
  | nil => simpa [List.intercalate] using last part (bare part (by simp))
  | cons next more ih =>
    have split := splitFrom_bare [] part.toList
      ('/' :: ("/".toList.intercalate ((next :: more).map String.toList))) (bare part (by simp))
    rw [List.map_cons, List.map_cons, List.intercalate_cons_cons, List.append_assoc,
      ← List.map_cons]
    rw [List.forall_mem_cons] at bare
    refine split.trans ?_
    simp only [splitFrom, if_true, List.append_nil, List.reverse_reverse, String.ofList_toList]
    rw [ih next bare.2]

theorem isAbsolute_iff (p : FilePath) : p.isAbsolute = true ↔ p.text.toList.head? = some '/' := by
  rw [isAbsolute, String.startsWith_string_iff]
  cases p.text.toList <;> simp [eq_comm]

/-- Without the idle parts in front, the parts that lead somewhere are the same. -/
theorem filter_dropWhile_idle (segments : List String) :
    (segments.dropWhile isIdle).filter (fun s => s ≠ "" ∧ s ≠ ".") =
      segments.filter fun s => s ≠ "" ∧ s ≠ "." := by
  induction segments with
  | nil => rfl
  | cons s segments ih =>
    rw [List.dropWhile_cons]
    split
    · rename_i idle
      have dropped : ¬ (s ≠ "" ∧ s ≠ ".") := by
        rintro ⟨filled, moving⟩
        simp [isIdle, filled, moving] at idle
      rw [ih, List.filter_cons_of_neg (by simpa using dropped)]
    · rfl

/-- The first part that is not idle is the first that leads somewhere. -/
theorem filter_drop_idle (segments : List String) :
    ((segments.dropWhile isIdle).drop 1).filter (fun s => s ≠ "" ∧ s ≠ ".") =
      (segments.filter fun s => s ≠ "" ∧ s ≠ ".").drop 1 := by
  rw [← filter_dropWhile_idle segments]
  cases left : segments.dropWhile isIdle with
  | nil => rfl
  | cons s rest =>
    have first := List.head?_dropWhile_not isIdle segments
    rw [left, List.head?_cons] at first
    have leads : s ≠ "" ∧ s ≠ "." := by simpa [isIdle] using first
    rw [List.filter_cons_of_pos (by simpa using leads)]
    rfl

theorem above_parts (p : FilePath) :
    p.above.filter (fun s => s ≠ "" ∧ s ≠ ".") = p.parts.dropLast := by
  rw [above, List.filter_reverse, filter_dropWhile_idle, filter_drop_idle, List.filter_reverse,
    List.drop_one, List.tail_reverse, List.reverse_reverse, parts]

theorem above_starts (p : FilePath) : p.above <+: p.segments := by
  rw [← List.reverse_suffix, above, List.reverse_reverse]
  exact (List.dropWhile_suffix _).trans ((List.drop_suffix _ _).trans (List.dropWhile_suffix _))

section

variable {p : FilePath} (deep : p.parts.dropLast ≠ [])

include deep

theorem above_ne_nil : p.above ≠ [] := by
  intro empty
  have parts := p.above_parts
  rw [empty] at parts
  exact deep parts.symm

theorem parent_text : p.parent.text = "/".intercalate p.above := by
  have filled := above_ne_nil deep
  simp [parent, filled]

theorem parent_segments : p.parent.segments = p.above := by
  obtain ⟨part, more, spelled⟩ := List.exists_cons_of_ne_nil (above_ne_nil deep)
  have bare : ∀ s ∈ p.above, Bare s := fun s member =>
    splitFrom_parts [] _ (by simp) s (p.above_starts.subset member)
  rw [segments, parent_text deep]
  rw [spelled] at bare ⊢
  exact splitFrom_joined part more bare

theorem parent_parts : p.parent.parts = p.parts.dropLast := by
  rw [parts, parent_segments deep, above_parts]

theorem parent_filled : p.parent.text.toList ≠ [] := by
  intro empty
  have none : p.parent.parts = [] := by simp [parts, segments, empty, splitFrom]
  exact deep ((parent_parts deep).symm.trans none)

/-- The path of the parent is the beginning of the path. -/
theorem parent_starts : p.parent.text.toList <+: p.text.toList := by
  obtain ⟨part, more, spelled⟩ := List.exists_cons_of_ne_nil (above_ne_nil deep)
  have whole : closed p.segments = p.text.toList ++ ['/'] := splitFrom_closed [] p.text.toList
  have start : closed p.above <+: closed p.segments := by
    obtain ⟨rest, same⟩ := p.above_starts
    exact ⟨closed rest, by rw [← same, closed, closed, closed, List.flatMap_append]⟩
  rw [whole, spelled, ← joined_closed, ← spelled, ← parent_text deep] at start
  rcases List.prefix_concat_iff.1 start with same | shorter
  · have whole : p.parent.text.toList = p.text.toList := List.append_cancel_right same
    exact ⟨[], by rw [whole, List.append_nil]⟩
  · exact (List.prefix_append _ _).trans shorter

theorem parent_isAbsolute : p.parent.isAbsolute = p.isAbsolute := by
  obtain ⟨rest, same⟩ := parent_starts deep
  obtain ⟨c, cs, spelled⟩ := List.exists_cons_of_ne_nil (parent_filled deep)
  rw [Bool.eq_iff_iff, isAbsolute_iff, isAbsolute_iff, ← same, spelled, List.cons_append]
  rfl

theorem parent_isUsable (usable : p.isUsable = true) : p.parent.isUsable = true := by
  have fewer := (parent_starts deep).sublist
  have filled : p.parent.text ≠ "" := mt String.toList_eq_nil_iff.2 (parent_filled deep)
  have shorter : (Text.utf8 p.parent.text).length ≤ (Text.utf8 p.text).length :=
    (Text.utf8_sublist fewer).length_le
  simp only [isUsable, Bool.and_eq_true, Bool.not_eq_true', decide_eq_true_eq] at usable ⊢
  refine ⟨⟨by simpa using filled, ?_⟩, Nat.le_trans shorter usable.2⟩
  have absent := usable.1.2
  simp only [List.contains_eq_mem, decide_eq_false_iff_not] at absent ⊢
  exact fun member => absent (fewer.subset member)

end

end FilePath

namespace Tree

variable {t : Tree} {place found : Place}

theorem walk_directory {part : String} {parts : List String}
    (walked : t.walk place (part :: parts) = some found) : t.node? place = some .directory := by
  rw [walk] at walked
  split at walked
  · assumption
  · cases walked

/-- Nothing is made on the way to a place that is reached already. -/
theorem makeAlong_walked {last : String} {parts : List String}
    (walked : t.walk place (parts ++ [last]) = some found) :
    t.makeAlong place parts = (true, t) := by
  induction parts generalizing place with
  | nil => rfl
  | cons part parts ih =>
    have standing := walk_directory walked
    simp only [List.cons_append, walk, standing] at walked
    rw [makeAlong]
    split at walked
    · rw [if_pos ‹_›]
      exact ih walked
    · rw [if_neg ‹_›]
      split at walked
      · have next : t.node? (place ++ [part]) = some .directory := by
          cases parts with
          | nil => exact walk_directory walked
          | cons => exact walk_directory walked
        rw [if_pos ‹_›, next]
        exact ih walked
      · cases walked

/-- A path of more than one part stands in a directory with a path of its own. -/
theorem above_of_deep {p : FilePath} (deep : ¬ p.parts.length ≤ 1) : p.parts.dropLast ≠ [] := by
  intro empty
  have length := congrArg List.length empty
  simp only [List.length_dropLast, List.length_nil] at length
  omega

theorem startOf_parent {p : FilePath} (deep : p.parts.dropLast ≠ []) :
    t.startOf p.parent = t.startOf p := by
  rw [startOf, startOf, FilePath.parent_isAbsolute deep]

/-- A path that leads somewhere stands in directories that are there. -/
theorem makeParents_located {p : FilePath} (located : t.locate p = some place) :
    t.makeParents p = (true, t) := by
  unfold makeParents
  by_cases shallow : p.parts.length ≤ 1
  · rw [if_pos shallow]
  · have deep := above_of_deep shallow
    have filled : p.parts ≠ [] := by
      rintro empty
      simp [empty] at deep
    have spelled := (List.dropLast_concat_getLast filled).symm
    unfold locate at located
    by_cases usable : p.isUsable = true
    · rw [if_pos usable, spelled] at located
      rw [if_neg shallow, makeDirectories, if_pos (FilePath.parent_isUsable deep usable),
        startOf_parent deep, FilePath.parent_parts deep]
      exact makeAlong_walked located
    · rw [if_neg usable] at located
      cases located

end Tree

end CredentialGate.Files
