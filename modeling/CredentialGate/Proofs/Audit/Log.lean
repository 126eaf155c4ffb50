import CredentialGate.Audit.Log
import CredentialGate.Proofs.Audit.Event
import CredentialGate.Proofs.Audit.Uuid
import CredentialGate.Proofs.Files.Tree
import Mathlib.Data.List.TakeWhile

/-! An audit log and its file, over every way to use the log. While the file has its name, all the
logs that have been opened on it are the same one, and the file holds the lines of the events that
they have recorded. No event can break a line, so the lines are read back as the events. -/
namespace CredentialGate.Audit

open Files

/-! Lines and events -/

theorem mapM_ok {f : α → Except ε β} {items : List α} {g : α → β}
    (each : ∀ a ∈ items, f a = .ok (g a)) : items.mapM f = .ok (items.map g) := by
  induction items with
  | nil => rfl
  | cons a items ih =>
    rw [List.forall_mem_cons] at each
    rw [List.mapM_cons, each.1, ih each.2]
    rfl

/-- A line that starts with a brace is not one of blanks. -/
theorem trim_brace (cs : List Char) :
    (Text.trim (String.ofList ('\x7b' :: cs))).isEmpty = false := by
  have visible : Text.isBlank '\x7b' = false := by decide
  have start : Text.trimStart ('\x7b' :: cs) = '\x7b' :: cs := by simp [Text.trimStart, visible]
  have kept : Text.trimEnd ('\x7b' :: cs) ≠ [] := by
    rw [Text.trimEnd, Ne, List.reverse_eq_nil_iff, List.dropWhile_eq_nil_iff]
    intro blank
    simp [blank '\x7b' (by simp)] at visible
  simpa [Text.trim, start] using kept

/-- The written events are the lines of a text. -/
theorem lines_of_events (events : List Event) : ∃ lines : List (List Char),
    events.map (·.document.write) = lines.map (fun line => Text.utf8 (String.ofList line)) ∧
      ∀ line ∈ lines, Text.Unbroken line ∧ ∃ cs, line = '\x7b' :: cs := by
  induction events with
  | nil => exact ⟨[], rfl, by simp⟩
  | cons e events ih =>
    obtain ⟨lines, written, shaped⟩ := ih
    obtain ⟨cs, text, unbroken⟩ := e.document_text
    refine ⟨('\x7b' :: cs) :: lines, by rw [List.map_cons, List.map_cons, text, written], ?_⟩
    exact List.forall_mem_cons.2 ⟨⟨unbroken, cs, rfl⟩, shaped⟩

theorem utf8_ended (lines : List (List Char)) :
    Text.utf8 (String.ofList (lines.flatMap (· ++ ['\n']))) =
      (lines.map fun line => Text.utf8 (String.ofList line)).flatMap (· ++ [Json.lineFeed]) := by
  have ending : String.utf8EncodeChar '\n' = [Json.lineFeed] := by decide
  simp [Text.utf8_ofList, List.flatMap_assoc, List.flatMap_map, ending]

/-- The lines of events are read as the events. -/
theorem events_read_back {events : List Event}
    (times : ∀ e ∈ events, Timestamp.read? e.time.display = some e.time) :
    ∃ content, Text.utf8 content = events.flatMap Event.line ∧ eventsOf content = .ok events := by
  obtain ⟨lines, written, shaped⟩ := lines_of_events events
  refine ⟨String.ofList (lines.flatMap (· ++ ['\n'])), ?_, ?_⟩
  · rw [utf8_ended, ← written, List.flatMap_map]
    rfl
  · have visible : ∀ line ∈ lines.map String.ofList, (!(Text.trim line).isEmpty) = true := by
      rw [List.forall_mem_map]
      intro line member
      obtain ⟨-, cs, rfl⟩ := shaped line member
      rw [trim_brace]
      rfl
    have read : ∀ e ∈ events, (Event.read e.document.write).mapError (fun _ => LogFailure.badLine) =
        .ok e := by
      intro e member
      rw [Event.read_document (Uuid.read?_display e.id) (times e member)]
      rfl
    have texts : (lines.map String.ofList).map Text.utf8 = events.map (·.document.write) := by
      rw [written, List.map_map]
      rfl
    have mapped : (lines.map String.ofList).mapM (fun line =>
        (Event.read (Text.utf8 line)).mapError fun _ => LogFailure.badLine) =
          ((lines.map String.ofList).map Text.utf8).mapM (fun bytes =>
            (Event.read bytes).mapError fun _ => LogFailure.badLine) := by
      simp only [List.mapM_map]
      rfl
    rw [eventsOf, Text.lines_ended fun line member => (shaped line member).1,
      List.filter_eq_self.2 visible, mapped, texts, List.mapM_map]
    exact (mapM_ok read).trans (by rw [List.map_id'])

namespace Log

/-- What can come of the logs at a path: a tree, the logs that have been opened, the last one first,
and the events that have been recorded, in their order. -/
inductive Uses (p : FilePath) (first : Tree) : Tree → List Log → List Event → Prop
  | untouched : Uses p first first [] []
  | opened {t u : Tree} {logs : List Log} {events : List Event} {log : Log} :
      Uses p first t logs events → openAt p t = (.ok log, u) → Uses p first u (log :: logs) events
  | refused {t u : Tree} {logs : List Log} {events : List Event} {e : LogFailure} :
      Uses p first t logs events → openAt p t = (.error e, u) → Uses p first u logs events
  | recorded {t : Tree} {logs : List Log} {events : List Event} {log : Log} {event : Event} :
      Uses p first t logs events → log ∈ logs →
      Uses p first (log.record event t) logs (events ++ [event])

/-- The file of a log has its name, and holds exactly these bytes. -/
structure Holds (log : Log) (t : Tree) (b : Bytes) : Prop where
  parents : t.makeParents log.path = (true, t)
  plain : log.path.endsInDirectory = false
  stands : ∃ place mode, t.locate log.path = some place ∧
    t.node? place = some (.file ⟨log.serial, .bytes b, mode⟩)

variable {log : Log} {t u : Tree} {b : Bytes} {p : FilePath}

theorem Holds.openAt (holds : Holds log t b) : openAt log.path t = (.ok log, t) := by
  obtain ⟨parents, plain, place, mode, located, standing⟩ := holds
  simp [Log.openAt, parents, Tree.openFile?_again located standing plain]

theorem Holds.readBytes? (holds : Holds log t b) : t.readBytes? log.path = some b := by
  obtain ⟨-, plain, place, mode, located, standing⟩ := holds
  exact Tree.readBytes?_found located plain standing

theorem Holds.record (holds : Holds log t b) (e : Event) :
    Holds log (log.record e t) (b ++ e.line) := by
  obtain ⟨parents, plain, place, mode, located, standing⟩ := holds
  have within := Tree.within_appendTo t log.serial e.line
  refine ⟨Tree.makeParents_again parents within, plain, place, mode, within.locate located, ?_⟩
  rw [Log.record, Tree.node?_appendTo, standing]
  simp [Tree.appended]

/-- Where no file is, a log starts with an empty one. -/
theorem holds_opened (vacant : (t.makeParents p).2.file? p = none)
    (opened : openAt p t = (.ok log, u)) : log.path = p ∧ Holds log u [] := by
  unfold Log.openAt at opened
  rcases made : t.makeParents p with ⟨_ | _, v⟩
  · simp [made] at opened
  · rw [made] at opened vacant
    dsimp only at opened vacant
    cases found : v.openFile? p with
    | none => simp [found] at opened
    | some entry =>
      obtain ⟨place, f, w⟩ := entry
      rw [found] at opened
      cases opened
      obtain ⟨within, located, standing, plain⟩ := Tree.openFile?_stands found
      refine ⟨rfl, Tree.makeParents_again made within, plain, place, f.mode, located, ?_⟩
      rcases Tree.openFile?_before found with before | ⟨-, fresh⟩
      · simp [Tree.file?, Tree.find?, Tree.openFile?_located found, before, plain] at vacant
      · rw [standing, ← fresh]

/-- A log that cannot be opened leaves no file behind. -/
theorem refused_vacant {e : LogFailure} (vacant : (t.makeParents p).2.file? p = none)
    (refused : openAt p t = (.error e, u)) : (u.makeParents p).2.file? p = none := by
  have settled : u = (t.makeParents p).2 := by
    unfold Log.openAt at refused
    rcases made : t.makeParents p with ⟨_ | _, v⟩
    · simp only [made] at refused
      exact (Prod.mk.inj refused).2.symm
    · simp only [made] at refused
      split at refused
      · exact (Prod.mk.inj refused).2.symm
      · cases refused
  have again : (t.makeParents p).2.makeParents p = t.makeParents p :=
    Tree.makeParents_settled rfl
  rw [settled, again]
  exact vacant

/-- Before the first log is opened nothing is recorded; from then on there is one log, and its file
holds the lines of what has been recorded. -/
theorem Uses.framed {first : Tree} {logs : List Log} {events : List Event}
    (vacant : (first.makeParents p).2.file? p = none) (used : Uses p first t logs events) :
    (logs = [] ∧ events = [] ∧ (t.makeParents p).2.file? p = none) ∨
      ∃ log, log.path = p ∧ (∀ other ∈ logs, other = log) ∧
        Holds log t (events.flatMap Event.line) := by
  induction used with
  | untouched => exact .inl ⟨rfl, rfl, vacant⟩
  | @opened t u logs events log _ opened ih =>
    rcases ih with ⟨rfl, rfl, unused⟩ | ⟨one, rfl, same, holds⟩
    · obtain ⟨rfl, holds⟩ := holds_opened unused opened
      exact .inr ⟨log, rfl, by simp, holds⟩
    · rw [holds.openAt] at opened
      cases opened
      exact .inr ⟨_, rfl, List.forall_mem_cons.2 ⟨rfl, same⟩, holds⟩
  | @refused t u logs events e _ refused ih =>
    rcases ih with ⟨rfl, rfl, unused⟩ | ⟨one, rfl, same, holds⟩
    · exact .inl ⟨rfl, rfl, refused_vacant unused refused⟩
    · rw [holds.openAt] at refused
      cases refused
  | @recorded t logs events log event _ member ih =>
    rcases ih with ⟨rfl, rfl, unused⟩ | ⟨one, rfl, same, holds⟩
    · cases member
    · cases same log member
      refine .inr ⟨log, rfl, same, ?_⟩
      rw [List.flatMap_append, List.flatMap_singleton]
      exact holds.record event

/-- Whatever is recorded at a path that names no file at first, by all the logs that are opened on
it in turn or side by side: each event is one line, which ends where its line feed stands; the file
consists of these lines; it is read as the events, none lost or altered; and opening it once more
changes nothing. The times have to be read back from the form that they are written in. -/
theorem recorded_events_read_back {first : Tree} {logs : List Log} {events : List Event}
    (vacant : ∀ f, first.node? (first.placeNamed p) ≠ some (.file f))
    (used : Uses p first t logs events)
    (times : ∀ e ∈ events, Timestamp.read? e.time.display = some e.time) :
    (∀ e ∈ events, ∃ body, e.line = body ++ [Json.lineFeed] ∧ Json.lineFeed ∉ body) ∧
      ∀ log ∈ logs, t.readBytes? p = some (events.flatMap Event.line) ∧
        log.readAll t = .ok events ∧ openAt p t = (.ok log, t) := by
  refine ⟨fun e _ => ⟨_, rfl, e.document_unbroken⟩, fun log member => ?_⟩
  rcases used.framed (Tree.makeParents_vacant vacant) with ⟨rfl, -⟩ | ⟨one, rfl, same, holds⟩
  · cases member
  · cases same log member
    obtain ⟨content, text, read⟩ := events_read_back times
    have bytes := holds.readBytes?
    refine ⟨bytes, ?_, holds.openAt⟩
    rw [readAll, Tree.readText?, bytes, ← text, Option.bind_some, Text.ofUtf8_utf8]
    exact read

/-- Two events whose texts are full of line ends, with the log opened again between them. -/
theorem broken_texts_read_back :
    let p : FilePath := ⟨"audit/log.jsonl"⟩
    let log : Log := ⟨p, 0⟩
    let time : Timestamp := ⟨⟨2024, 2, 29⟩, 86399, 500⟩
    let received : Event := ⟨⟨1⟩, time, .reviewReceived (some "a\nb\r\n") none (some "")⟩
    let confirmed : Event := ⟨⟨2⟩, time, .authenticated "\"\u2028\\" "\t\x00\r"⟩
    let reopened := (openAt p (log.record received (openAt p .empty).2)).2
    log.readAll (log.record confirmed reopened) = .ok [received, confirmed] := by
  intro p log time received confirmed reopened
  have vacant (f : File) : Tree.empty.node? (Tree.empty.placeNamed p) ≠ some (.file f) := by
    have nothing : Tree.empty.node? (Tree.empty.placeNamed p) = none := by decide +kernel
    simp [nothing]
  have opened : openAt p .empty = (.ok log, (openAt p .empty).2) :=
    Prod.ext (by decide +kernel) rfl
  have again : openAt p (log.record received (openAt p .empty).2) = (.ok log, reopened) :=
    Prod.ext (by decide +kernel) rfl
  have first : Uses p .empty _ [log] [received] :=
    .recorded (.opened .untouched opened) List.mem_cons_self
  have used : Uses p .empty (log.record confirmed reopened) [log, log] [received, confirmed] :=
    .recorded (.opened first again) List.mem_cons_self
  have times : ∀ e ∈ [received, confirmed], Timestamp.read? e.time.display = some e.time := by
    decide +kernel
  exact ((recorded_events_read_back vacant used times).2 log List.mem_cons_self).2.1

end Log

end CredentialGate.Audit
