import CredentialGate.Proofs.Session.Slot

/-! A slot in a file beside one in memory. Whatever is done to both, and in whatever order, the file
holds the bytes of the credential that is in memory. What it gives back is the credential without
the blanks around it, so a token that starts or ends with a blank is not the one that was saved. -/
namespace CredentialGate.Session

open Files

inductive SlotUse
  | load
  | save (credential : Credential)
  | clear
  /-- Another slot takes over at the same path. -/
  | reopen

namespace SlotUse

/-- What is in a slot behind a use that writes. -/
def written? : SlotUse → Option (Option Credential)
  | save credential => some (some credential)
  | clear => some none
  | load | reopen => none

/-- What a use tells of the credential in a slot. -/
def tells? (held? : Option Credential) : SlotUse → Option Credential
  | load => held?
  | _ => none

end SlotUse

/-- The credential of the last save, unless a clear has followed it. -/
def lastSaved? (uses : List SlotUse) : Option Credential :=
  (uses.reverse.findSome? SlotUse.written?).getD none

namespace Slot

def reopened : Slot → Slot
  | .memory held? => .memory held?
  | .file stored => .file ⟨stored.path⟩

/-- The answer to a use, which tells a credential if one has been loaded, and what comes of the slot
and of the tree. -/
def use (slot : Slot) (t : Tree) :
    SlotUse → Except SlotFailure (Option Credential) × Slot × Tree
  | .load => (slot.load t, slot, t)
  | .save credential =>
    let (result, slot, t) := slot.save credential t
    (result.map fun _ => none, slot, t)
  | .clear =>
    let (result, slot, t) := slot.clear t
    (result.map fun _ => none, slot, t)
  | .reopen => (.ok none, slot.reopened, t)

/-- The answers to uses in a row. -/
def answers (slot : Slot) (t : Tree) :
    List SlotUse → List (Except SlotFailure (Option Credential))
  | [] => []
  | use :: uses =>
    let (answer, slot, t) := slot.use t use
    answer :: slot.answers t uses

end Slot

/-- Nothing stands at the path, and a file may: the directories that it stands in are there, or they
can be made. -/
structure Awaits (t : Tree) (p : FilePath) : Prop where
  vacant : t.contains p = false
  parents : (t.makeParents p).1 = true
  room : ((t.makeParents p).2.openFile? p).isSome = true

/-- The tree holds at the path what a slot in memory holds: the bytes of its credential, or none and
room for some. -/
def Mirrors (t : Tree) (p : FilePath) : Option Credential → Prop
  | none => Awaits t p
  | some credential => t.readBytes? p = some (Text.utf8 credential.token)

section

variable {t : Tree} {p : FilePath} {held? : Option Credential}

theorem Awaits.makeParents (awaits : Awaits t p) :
    t.makeParents p = (true, (t.makeParents p).2) := by
  rw [← awaits.parents]

/-- Where a file has been removed another may be put. -/
theorem awaits_erased {place : Place} {f : File} (located : t.locate p = some place)
    (standing : t.node? place = some (.file f)) (plain : p.endsInDirectory = false) :
    Awaits (t.erase place) p := by
  obtain ⟨within, gone⟩ := Tree.erase_found standing
  have found := within.locate located
  have made := Tree.makeParents_located found
  refine ⟨?_, by rw [made], ?_⟩
  · simp [Tree.contains, Tree.find?, found, gone]
  · simp [made, Tree.openFile?, found, gone, plain]

theorem Mirrors.load (mirrors : Mirrors t p held?) :
    (FileSlot.mk p).load t = .ok (held?.bind withoutBlanks?) := by
  cases held? with
  | none => simp [FileSlot.load, mirrors.vacant]
  | some credential => exact FileSlot.load_kept mirrors

theorem Mirrors.save (mirrors : Mirrors t p held?) (credential : Credential) :
    ∃ u, (FileSlot.mk p).save credential t = (.ok (), u) ∧ Mirrors u p (some credential) := by
  cases held? with
  | none => exact FileSlot.save_fits mirrors.makeParents mirrors.room credential
  | some former =>
    obtain ⟨place, f, located, standing, -, plain⟩ := Tree.readBytes?_stands mirrors
    have opened := Tree.openFile?_again located standing plain
    exact FileSlot.save_fits (Tree.makeParents_located located) (Option.isSome_of_eq_some opened)
      credential

theorem Mirrors.clear (mirrors : Mirrors t p held?) :
    ∃ u, (FileSlot.mk p).clear t = (.ok (), u) ∧ Mirrors u p none := by
  cases held? with
  | none => exact ⟨t, by simp [FileSlot.clear, mirrors.vacant], mirrors⟩
  | some former =>
    obtain ⟨place, f, located, standing, -, plain⟩ := Tree.readBytes?_stands mirrors
    have there : t.find? p = some (.file f) := by
      simp [Tree.find?, located, standing, plain]
    refine ⟨t.erase place, ?_, awaits_erased located standing plain⟩
    simp [FileSlot.clear, Tree.contains, there, Tree.remove?, Tree.file?, located]

theorem use_memory (held? : Option Credential) (t : Tree) (use : SlotUse) :
    (Slot.memory held?).use t use =
      (.ok (use.tells? held?), .memory (use.written?.getD held?), t) := by
  cases use <;> rfl

/-- One use keeps the file and the memory alike, and is answered without blanks. -/
theorem Mirrors.use (mirrors : Mirrors t p held?) (use : SlotUse) :
    ∃ u, (Slot.file ⟨p⟩).use t use =
        (.ok ((use.tells? held?).bind withoutBlanks?), .file ⟨p⟩, u) ∧
      Mirrors u p (use.written?.getD held?) := by
  cases use with
  | load =>
    refine ⟨t, ?_, mirrors⟩
    rw [Slot.use, Slot.load, mirrors.load]
    rfl
  | save credential =>
    obtain ⟨u, saved, next⟩ := mirrors.save credential
    refine ⟨u, ?_, next⟩
    simp only [Slot.use, Slot.save, saved]
    rfl
  | clear =>
    obtain ⟨u, cleared, next⟩ := mirrors.clear
    refine ⟨u, ?_, next⟩
    simp only [Slot.use, Slot.clear, cleared]
    rfl
  | reopen => exact ⟨t, rfl, mirrors⟩

/-- A run of uses is answered as in memory, but without blanks. -/
theorem Mirrors.answers (mirrors : Mirrors t p held?) (other : Tree) (uses : List SlotUse) :
    (Slot.file ⟨p⟩).answers t uses =
      ((Slot.memory held?).answers other uses).map (·.map (·.bind withoutBlanks?)) := by
  induction uses generalizing t held? with
  | nil => rfl
  | cons use uses ih =>
    obtain ⟨u, answered, next⟩ := mirrors.use use
    simp only [Slot.answers, answered, use_memory, List.map_cons, ih next]
    rfl

/-- A load from memory tells the credential that was saved last. -/
theorem answers_memory (held? : Option Credential) (t : Tree) (before after : List SlotUse) :
    ((Slot.memory held?).answers t (before ++ .load :: after))[before.length]? =
      some (.ok ((before.reverse.findSome? SlotUse.written?).getD held?)) := by
  induction before generalizing held? with
  | nil => rfl
  | cons use before ih =>
    simp only [List.cons_append, Slot.answers, use_memory, List.length_cons,
      List.getElem?_cons_succ, ih, List.reverse_cons, List.findSome?_append, List.findSome?_cons,
      List.findSome?_nil]
    cases before.reverse.findSome? SlotUse.written? <;> cases use.written? <;> rfl

/-- No use is answered otherwise for the blanks if no blanks stand around what is saved. -/
theorem answers_bare (held? : Option Credential) (t : Tree) (uses : List SlotUse)
    (held : ∀ c, held? = some c → withoutBlanks? c = some c)
    (saved : ∀ c, .save c ∈ uses → withoutBlanks? c = some c) :
    ((Slot.memory held?).answers t uses).map (·.map (·.bind withoutBlanks?)) =
      (Slot.memory held?).answers t uses := by
  induction uses generalizing held? with
  | nil => rfl
  | cons use uses ih =>
    have now : (use.tells? held?).bind withoutBlanks? = use.tells? held? := by
      cases use with
      | load => cases held? <;> simp_all [SlotUse.tells?]
      | save | clear | reopen => rfl
    have next : ∀ c, use.written?.getD held? = some c → withoutBlanks? c = some c := by
      cases use <;> simp_all [SlotUse.written?]
    have rest := ih _ next fun c member => saved c (List.mem_cons_of_mem use member)
    simp only [Slot.answers, use_memory, List.map_cons, rest, List.cons.injEq, and_true]
    exact congrArg Except.ok now

/-- However a slot in a file is used, from a time on when no file was there: every use succeeds, and
every load gives what a slot in memory would, the credential of the last save or none, but without
the blanks around it. So both slots are alike as long as no blanks stand around what is saved, and
any other credential tells them apart. -/
theorem file_slot_answers (awaits : Awaits t p) (uses : List SlotUse) :
    let inFile := (Slot.file ⟨p⟩).answers t
    let inMemory := (Slot.memory none).answers t
    inFile uses = (inMemory uses).map (·.map (·.bind withoutBlanks?)) ∧
    (∀ before after, uses = before ++ .load :: after →
      (inMemory uses)[before.length]? = some (.ok (lastSaved? before)) ∧
      (inFile uses)[before.length]? = some (.ok ((lastSaved? before).bind withoutBlanks?))) ∧
    ((∀ c, .save c ∈ uses → c.token ≠ "" ∧ Text.trim c.token = c.token) →
      inFile uses = inMemory uses) ∧
    ∀ c : Credential, Text.trim c.token ≠ c.token →
      inFile [.save c, .load] ≠ inMemory [.save c, .load] := by
  intro inFile inMemory
  have mirrors : Mirrors t p none := awaits
  have law (uses : List SlotUse) :
      inFile uses = (inMemory uses).map (·.map (·.bind withoutBlanks?)) := mirrors.answers t uses
  refine ⟨law uses, fun before after split => ?_, fun saved => ?_, fun c blanks same => ?_⟩
  · have told : (inMemory uses)[before.length]? = some (.ok (lastSaved? before)) := by
      rw [split]
      exact answers_memory none t before after
    exact ⟨told, by rw [law, List.getElem?_map, told]; rfl⟩
  · rw [law]
    exact answers_bare none t uses (by simp) fun c member =>
      (withoutBlanks?_eq_self_iff c).2 (saved c member)
  · have told := (law [.save c, .load]).symm.trans same
    have kept : withoutBlanks? c = some c := by
      simpa [inMemory, Slot.answers, use_memory, SlotUse.tells?, SlotUse.written?, Except.map]
        using told
    exact blanks ((withoutBlanks?_eq_self_iff c).1 kept).2

/-- A token with blanks around it loses them in a file, below a directory that is not there yet. -/
theorem spaced_token_answers :
    let path : FilePath := ⟨"nested/api_token"⟩
    let uses : List SlotUse := [.load, .save ⟨"\tabc "⟩, .reopen, .load, .clear, .load]
    Awaits .empty path ∧ (Slot.file ⟨path⟩).answers .empty uses =
      [.ok none, .ok none, .ok none, .ok (some ⟨"abc"⟩), .ok none, .ok none] := by
  intro path uses
  have awaits : Awaits .empty path := ⟨by decide +kernel, by decide +kernel, by decide +kernel⟩
  refine ⟨awaits, (file_slot_answers awaits uses).1.trans ?_⟩
  have bare : withoutBlanks? ⟨"\tabc "⟩ = some ⟨"abc"⟩ := by decide +kernel
  simp [uses, Slot.answers, use_memory, SlotUse.tells?, SlotUse.written?, Except.map, bare]

/-- The token that is loaded from a file is not always the one that has been saved. -/
theorem spaced_token_altered :
    let inFile := (Slot.file ⟨⟨"api_token"⟩⟩).answers .empty [.save ⟨" abc "⟩, .load]
    let inMemory := (Slot.memory none).answers .empty [.save ⟨" abc "⟩, .load]
    inMemory = [.ok none, .ok (some ⟨" abc "⟩)] ∧ inFile = [.ok none, .ok (some ⟨"abc"⟩)] ∧
      inFile ≠ inMemory := by
  intro inFile inMemory
  have awaits : Awaits .empty ⟨"api_token"⟩ :=
    ⟨by decide +kernel, by decide +kernel, by decide +kernel⟩
  have bare : withoutBlanks? ⟨" abc "⟩ = some ⟨"abc"⟩ := by decide +kernel
  have loaded : inFile = [.ok none, .ok (some ⟨"abc"⟩)] := by
    have mirrors : Mirrors .empty ⟨"api_token"⟩ none := awaits
    refine (mirrors.answers .empty _).trans ?_
    simp [Slot.answers, use_memory, SlotUse.tells?, SlotUse.written?, Except.map, bare]
  refine ⟨rfl, loaded, ?_⟩
  rw [loaded]
  simp [inMemory, Slot.answers, use_memory, SlotUse.tells?, SlotUse.written?]

end

end CredentialGate.Session
