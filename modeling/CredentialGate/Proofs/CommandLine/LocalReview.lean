import CredentialGate.CommandLine.Run
import CredentialGate.Proofs.Store.Database
import CredentialGate.Proofs.Webhook

/-! A review at the command line and the same review over the wire. The one hands the request to the
review as it is and records nothing, the other writes it out, reads it again and records it; both
come to the same answer. -/
namespace CredentialGate.CommandLine

open Files Json Review

/-- What the command line tells of a token, the webhook answers to its review, whether it is asked
before the command has opened the database or after. What is printed holds the whole response. -/
theorem local_review_agrees {path : FilePath} {t opened : Tree} {d : Store.Database}
    (available : Store.Database.openAt path t = (.ok d, opened)) {token : String}
    {request : Webhook.Request} (posted : request.method = "POST")
    (routed : Webhook.pathOf request.target = Webhook.reviewPath)
    (body : request.body = (Review.Request.forToken token).document.write)
    (fits : request.body.length ≤ Webhook.bodyLimit) (sink : Sink σ) (s : σ) :
    let outcome := (review (d.lookup opened) (.discard : Sink Unit) (.forToken token) ()).1
    reviewToken path token t =
      (⟨[outcome.body.document.displayOver],
        ["HTTP " ++ toString outcome.status ++ " " ++ Webhook.phraseOf outcome.status], none, none⟩,
        opened) ∧
    Holds (Text.utf8 outcome.body.document.displayOver) outcome.body.document.datum ∧
    ∀ now, now = t ∨ now = opened →
      let reply := (Webhook.answer (d.lookup now) sink request s).1
      reply.status = outcome.status ∧ Response.read reply.body = .ok outcome.body := by
  intro outcome
  have decided : outcome = .of (verdict (d.lookup opened) (.forToken token)) := review_outcome ..
  refine ⟨by simp only [reviewToken, available, outcome], Response.displayed _, fun now when => ?_⟩
  have same : verdict (d.lookup now) (.forToken token) =
      verdict (d.lookup opened) (.forToken token) := by
    rcases when with rfl | rfl
    · exact verdict_congr (Store.Database.openAt_lookup available) _
    · rfl
  dsimp only
  rw [Webhook.answer_written posted routed body fits, same, decided]
  exact ⟨rfl, Response.read_document _⟩

/-- A token with a quotation mark and a line break is known to both. -/
theorem quoted_token_reviewed :
    let token := "a\"\n"
    let table : Store.Table :=
      ⟨[⟨⟨"Alice", "alice@example.org", "lab"⟩, some token⟩], by simp, by simp⟩
    let tree : Tree := ⟨[(["users"], .file ⟨0, .users table, fileMode⟩)], 1, []⟩
    let d : Store.Database := .stored ["users"]
    let request : Webhook.Request :=
      ⟨"POST", "/authenticate", (Review.Request.forToken token).document.write⟩
    let reply := (Webhook.answer (d.lookup tree) (.discard : Sink Unit) request ()).1
    Store.Database.openAt ⟨"users"⟩ tree = (.ok d, tree) ∧
      request.body.length ≤ Webhook.bodyLimit ∧
      (reviewToken ⟨"users"⟩ token tree).1.remarks = ["HTTP 200 OK"] ∧ reply.status = 200 ∧
      Response.read reply.body = .ok (.authenticated "alice@example.org" []) := by
  intro token table tree d request reply
  have named : Store.Database.unnamedPath ⟨"users"⟩ = false := by decide
  have relative : FilePath.isAbsolute ⟨"users"⟩ = false := by decide +kernel
  have located : tree.locate ⟨"users"⟩ = some ["users"] := by
    simp only [Tree.locate, Tree.startOf, relative]
    decide
  have keeps : Store.Database.Keeps ⟨"users"⟩ (d, tree) table :=
    .stored named located (if_pos (by decide)) (by decide) rfl
  have available := keeps.openAt named
  have routed : Webhook.pathOf request.target = Webhook.reviewPath := by decide
  have fits : request.body.length ≤ Webhook.bodyLimit := by decide
  obtain ⟨told, -, answered⟩ :=
    local_review_agrees available rfl routed rfl fits (.discard : Sink Unit) ()
  obtain ⟨status, read⟩ := answered tree (.inl rfl)
  refine ⟨available, fits, ?_, status, read⟩
  rw [told]
  decide

end CredentialGate.CommandLine
