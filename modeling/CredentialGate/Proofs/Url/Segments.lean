import CredentialGate.Proofs.Url.Percent
import CredentialGate.Url.Segments

/-! What a text becomes when it is added to a path. Encoding leaves no dots where there were none,
so only the texts that show one or two dots are taken for a step along the path. -/
namespace CredentialGate.Url

open Text

variable {set : EncodeSet}

/-! Dots -/

theorem plainDots_plain {c : Char} (plain : c ≠ '%') (rest : List Char) :
    plainDots (c :: rest) = c :: plainDots rest := by
  rw [plainDots]
  · rintro more ⟨rfl⟩
    exact absurd rfl plain
  · rintro more ⟨rfl⟩
    exact absurd rfl plain

theorem plainDots_digits {a b : Char} (other : ¬ (a = '2' ∧ (b = 'e' ∨ b = 'E')))
    (rest : List Char) : plainDots ('%' :: a :: b :: rest) = '%' :: plainDots (a :: b :: rest) := by
  rw [plainDots]
  · intro more _ same
    simp only [List.cons.injEq] at same
    exact other ⟨same.1, .inl same.2.1⟩
  · intro more _ same
    simp only [List.cons.injEq] at same
    exact other ⟨same.1, .inr same.2.1⟩

theorem upperDigit_dot : ∀ high < 16, ∀ low < 16,
    upperDigit high = '2' → upperDigit low = 'E' → high * 16 + low = 0x2E := by decide

/-- No byte but that of a dot is written as one. -/
theorem plainDots_encodeByte (dot : '.' ∉ set) (b : UInt8) (rest : List Char)
    (mark : '%' ∈ set) :
    plainDots (encodeByte set b ++ rest) = encodeByte set b ++ plainDots rest := by
  have shape := written_encodeByte set b
  generalize encodeByte set b = written at shape ⊢
  cases shape with
  | @encoded high low coded first second value =>
    obtain ⟨-, highPlain, -, -⟩ := upperDigit_digit _ first
    obtain ⟨-, lowPlain, lowUpper, -⟩ := upperDigit_digit _ second
    have other : ¬ (upperDigit high = '2' ∧ (upperDigit low = 'e' ∨ upperDigit low = 'E')) := by
      rintro ⟨two, lower | upper⟩
      · exact lowUpper lower
      · have isDot : b = 0x2E :=
          UInt8.toNat_inj.1 (value.trans (upperDigit_dot _ first _ second two upper))
        subst isDot
        simp [isEncoded, dot] at coded
    simp only [List.cons_append, List.nil_append, plainDots_digits other,
      plainDots_plain highPlain, plainDots_plain lowPlain]
  | plain _ outside =>
    have other : Char.ofNat b.toNat ≠ '%' := fun same => outside (same ▸ mark)
    simp only [List.cons_append, List.nil_append, plainDots_plain other]

theorem plainDots_encode (mark : '%' ∈ set) (dot : '.' ∉ set) (cs : List Char) :
    plainDots (encode set cs).toList = (encode set cs).toList := by
  rw [encode, String.toList_ofList]
  induction utf8 (String.ofList cs) with
  | nil => rfl
  | cons b bytes ih => rw [List.flatMap_cons, plainDots_encodeByte dot b _ mark, ih]

/-! Segments of an address of the web -/

/-- What an address shows of a text: tabs and line ends are passed over. -/
def visible (text : String) : List Char := text.toList.filter (!isPassed ·)

/-- The segment that a text is written as. -/
def segmentOf (text : String) : String := encode specialSegmentSet (visible text)

theorem mark_mem : '%' ∈ specialSegmentSet := by decide
theorem dot_not_mem : '.' ∉ specialSegmentSet := by decide

theorem segmentOf_inj {text text' : String} :
    segmentOf text = segmentOf text' ↔ visible text = visible text' := encode_inj mark_mem

theorem isOneDot_segmentOf (text : String) :
    isOneDot (segmentOf text).toList = true ↔ visible text = ['.'] := by
  have written : (encode specialSegmentSet ['.']).toList = ['.'] := by decide
  rw [isOneDot, segmentOf, plainDots_encode mark_mem dot_not_mem, beq_iff_eq, ← written,
    String.toList_inj, encode_inj mark_mem, written]

theorem isTwoDots_segmentOf (text : String) :
    isTwoDots (segmentOf text).toList = true ↔ visible text = ['.', '.'] := by
  have written : (encode specialSegmentSet ['.', '.']).toList = ['.', '.'] := by decide
  rw [isTwoDots, segmentOf, plainDots_encode mark_mem dot_not_mem, beq_iff_eq, ← written,
    String.toList_inj, encode_inj mark_mem, written]

theorem segmentOf_eq_empty (text : String) : segmentOf text = "" ↔ visible text = [] := by
  have written : encode specialSegmentSet [] = "" := by decide
  rw [segmentOf, ← written, encode_inj mark_mem]

def NoSlash (segment : String) : Prop := '/' ∉ segment.toList

theorem noSlash_segmentOf (text : String) : NoSlash (segmentOf text) := by
  intro member
  have noDigit : ∀ n < 16, '/' ≠ upperDigit n := by decide
  rcases mem_encode member with outside | mark | ⟨n, small, digit⟩
  · exact outside (by decide)
  · exact absurd mark (by decide)
  · exact noDigit n small digit

/-! Adding a text -/

/-- The path of the root is an empty segment, which gives way to the first that is added. -/
def rooted (parts : List String) : List String := if parts = [""] then [] else parts

theorem rooted_append {parts : List String} {last : String} (written : last ≠ "") :
    rooted (parts ++ [last]) = parts ++ [last] := by
  rw [rooted, if_neg]
  intro same
  rw [List.append_eq_singleton_iff] at same
  rcases same with ⟨-, same⟩ | ⟨-, same⟩
  · exact written (List.singleton_inj.1 same)
  · cases same

/-- What a text adds to a path. Two dots that are not taken for such before tabs and line ends are
dropped lead one segment up. -/
theorem push_special (parts : List String) (text : String) : push .special parts text =
    if text = "." ∨ text = ".." then parts
    else if visible text = ['.', '.'] then goUp (rooted parts) ++ [""]
    else if visible text = ['.'] then rooted parts ++ [""]
    else rooted parts ++ [segmentOf text] := by
  have added : push .special parts text = if text = "." ∨ text = ".." then parts
      else addSegment .special (rooted parts) (segmentOf text).toList false := by
    simp [push, settle, rooted, segmentOf, visible, SchemeKind.isSpecial]
  rw [added, addSegment]
  simp [isTwoDots_segmentOf, isOneDot_segmentOf]

theorem push_segment {text : String} (oneDot : visible text ≠ ['.'])
    (twoDots : visible text ≠ ['.', '.']) (parts : List String) :
    push .special parts text = rooted parts ++ [segmentOf text] := by
  have named : ¬ (text = "." ∨ text = "..") := by
    rintro (rfl | rfl)
    · exact oneDot (by decide)
    · exact twoDots (by decide)
  rw [push_special, if_neg named, if_neg twoDots, if_neg oneDot]

/-! The text of a path -/

theorem toList_route (parts : List String) :
    (Route.segments parts).text.toList = parts.flatMap fun s => '/' :: s.toList := by
  rw [Route.text, String.toList_join, List.flatMap_map]
  simp

/-- A segment ends at the slash before the next one. -/
theorem takeWhile_segment {segment : String} (plain : NoSlash segment) (parts : List String) :
    (segment.toList ++ parts.flatMap fun s => '/' :: s.toList).takeWhile (· ≠ '/') =
      segment.toList := by
  have inside : ∀ c ∈ segment.toList, (decide (c ≠ '/')) = true := by
    intro c member
    simpa using ne_of_mem_of_not_mem member plain
  rw [List.takeWhile_append_of_pos inside]
  cases parts with
  | nil => simp
  | cons s parts => simp

/-- Segments without slashes are told from the text of the path. -/
theorem route_text_inj {parts others : List String} (first : ∀ s ∈ parts, NoSlash s)
    (second : ∀ s ∈ others, NoSlash s)
    (same : (Route.segments parts).text = (Route.segments others).text) : parts = others := by
  replace same := congrArg String.toList same
  rw [toList_route, toList_route] at same
  induction parts generalizing others with
  | nil =>
    cases others with
    | nil => rfl
    | cons t others => simp at same
  | cons s parts ih =>
    cases others with
    | nil => simp at same
    | cons t others =>
      rw [List.flatMap_cons, List.flatMap_cons, List.cons_append, List.cons_append,
        List.cons_inj_right] at same
      have head := congrArg (List.takeWhile (· ≠ '/')) same
      rw [takeWhile_segment (first s List.mem_cons_self),
        takeWhile_segment (second t List.mem_cons_self), String.toList_inj] at head
      subst head
      rw [List.append_cancel_left_eq] at same
      rw [ih (fun s member => first s (.tail _ member)) (fun s member => second s (.tail _ member))
        same]

end CredentialGate.Url
