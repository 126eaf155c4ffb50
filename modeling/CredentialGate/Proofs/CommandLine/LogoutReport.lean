import CredentialGate.Proofs.CommandLine.Logout

/-! What a logout at the command line prints. The message of the session is taken for the outcome,
and the call that ends the session decides that message alone, whatever the check before has left in
it. A failure whose response says nothing leaves no message, and is taken for a success. -/
namespace CredentialGate.CommandLine

open Files Http Session

/-- The message that the end of a session leaves, by how its call has ended. -/
def parting : Except BackendFailure Unit → String
  | .ok () => ""
  | .error e => e.userMessage

theorem logout_message (others : Collaborators σ) (s : Situation σ) :
    (logout others s).controller.message =
      parting (others.logout s.controller.bearer? s.world).1 := by
  rcases answered : others.logout s.controller.bearer? s.world with ⟨e | _, world⟩
  · by_cases policy : s.controller.policy = .clearOnFailure <;>
      simp [logout, Situation.ask, Situation.change, answered, policy, clearSlot,
        Controller.transition, Controller.publish, parting]
  · simp [logout, Situation.ask, Situation.change, answered, clearSlot, Controller.transition,
      Controller.publish, parting]

/-- What a logout prints, by how its call has ended. -/
def logoutNotice (ended : Except BackendFailure Unit) : String :=
  if (parting ended).isEmpty then "Logged out" else "Logout failed: " ++ parting ended

theorem describeLogout_logout (others : Collaborators σ) (s : Situation σ) :
    describeLogout (logout others s).controller =
      logoutNotice (others.logout s.controller.bearer? s.world).1 := by
  rw [describeLogout, logout_message, logoutNotice]

/-- A line of a failure begins in another way than that of a success. -/
theorem failed_ne_ended (rest : String) : "Logout failed" ++ rest ≠ "Logged out\n" := by
  intro same
  have letters := congrArg String.toList same
  simp [String.toList_append] at letters

theorem logoutNotice_silent {ended : Except BackendFailure Unit} (silent : parting ended = "") :
    logoutNotice ended ++ "\n" = "Logged out\n" := by
  rw [logoutNotice, silent]
  rfl

theorem logoutNotice_failed {ended : Except BackendFailure Unit} (message : parting ended ≠ "") :
    logoutNotice ended ++ "\n" = "Logout failed" ++ (": " ++ parting ended ++ "\n") := by
  have filled : ¬ (parting ended).isEmpty = true := by rwa [String.isEmpty_iff]
  have colon : "Logout failed: " = "Logout failed" ++ ": " := rfl
  rw [logoutNotice, if_neg filled, colon, String.append_assoc, String.append_assoc,
    String.append_assoc]

/-- One of the two lines is printed, and which one depends on the message only. -/
theorem notice_iff (ended : Except BackendFailure Unit) :
    (logoutNotice ended ++ "\n" = "Logged out\n" ↔ parting ended = "") ∧
      ((∃ rest, logoutNotice ended ++ "\n" = "Logout failed" ++ rest) ↔ parting ended ≠ "") := by
  by_cases silent : parting ended = ""
  · rw [logoutNotice_silent silent]
    simp [silent, (failed_ne_ended _).symm]
  · rw [logoutNotice_failed silent]
    simp [silent, failed_ne_ended]

section

variable {response? : Option Response} {ended : Except BackendFailure Unit}

theorem ended_iff (ends : Ending response? ended) :
    ended = .ok () ↔ ∃ r, response? = some r ∧ r.isSuccess = true := by
  cases ends with
  | granted success => simp [success]
  | denied failure => simp [failure]
  | lost _ => simp

/-- No message is left by a success, or by a failure whose response says nothing. -/
theorem parting_eq_empty_iff (ends : Ending response? ended) :
    parting ended = "" ↔
      ended = .ok () ∨ ∃ r, response? = some r ∧ r.isSuccess = false ∧ r.complaint = "" := by
  cases ends with
  | granted _ => exact iff_of_true rfl (.inl rfl)
  | denied failure => simp [parting, BackendFailure.userMessage, failure]
  | lost unanswered => simp [parting, BackendFailure.userMessage_unanswered unanswered]

theorem parting_ne_empty_iff (ends : Ending response? ended) :
    parting ended ≠ "" ↔ ended ≠ .ok () ∧ ∀ r, response? = some r → r.complaint ≠ "" := by
  cases ends with
  | granted _ => simp [parting]
  | denied _ => simp [parting, BackendFailure.userMessage]
  | lost unanswered => simp [parting, BackendFailure.userMessage_unanswered unanswered]

end

theorem Outcome.of_print (line : String) : of (.print line) = ⟨0, line ++ "\n", "", none⟩ := by
  simp [of, Report.print, text, String.join]

section

variable {around : Surroundings σ} {env : Config.Environment} {backends : Backends} {w : World σ}
  {settings : Config.Settings} {policy? : Option LogoutPolicy}

theorem execute_logout_outcome (configured : backendsOf settings.client = .ok backends) :
    let policy := policy?.getD settings.client.logoutPolicy
    let slot : FileSlot := ⟨settings.client.storagePath env⟩
    let others := backends.collaborators around.network
    let resumed := start others (opening policy ⟨w.network, .file slot, w.tree⟩)
    let ended := (others.logout resumed.controller.bearer? resumed.world).1
    Outcome.of (execute around settings env (.session policy? .logout) w).1 =
      ⟨0, logoutNotice ended ++ "\n", "", none⟩ := by
  intro policy slot others resumed ended
  have configured : backendsOf (underPolicy settings.client policy?) = .ok backends := configured
  have told : describeLogout (logout others resumed).controller = logoutNotice ended :=
    describeLogout_logout others resumed
  rw [execute_logout, session, configured, ← told]
  exact Outcome.of_print _

/-- A logout at the command line reports a success exactly if there was one, or if the last response
was a failure that says nothing, as one without a body. It reports a failure in every other case. -/
theorem logout_reported (configured : backendsOf settings.client = .ok backends) :
    let policy := policy?.getD settings.client.logoutPolicy
    let slot : FileSlot := ⟨settings.client.storagePath env⟩
    let others := backends.collaborators around.network
    let resumed := start others (opening policy ⟨w.network, .file slot, w.tree⟩)
    let ended := (others.logout resumed.controller.bearer? resumed.world).1
    let response? := lastResponse? around.network
      (backends.primary.logoutRequest resumed.controller.bearer?) resumed.world.network
    let outcome := Outcome.of (execute around settings env (.session policy? .logout) w).1
    outcome.code = 0 ∧
      (ended = .ok () ↔ ∃ r, response? = some r ∧ r.isSuccess = true) ∧
      (outcome.output = "Logged out\n" ↔
        ended = .ok () ∨ ∃ r, response? = some r ∧ r.isSuccess = false ∧ r.complaint = "") ∧
      ((∃ rest, outcome.output = "Logout failed" ++ rest) ↔
        ended ≠ .ok () ∧ ∀ r, response? = some r → r.complaint ≠ "") := by
  intro policy slot others resumed ended response? outcome
  have ends : Ending response? ended :=
    backends.primary.logout_ends around.network resumed.controller.bearer? resumed.world.network
  have printed : outcome = ⟨0, logoutNotice ended ++ "\n", "", none⟩ :=
    execute_logout_outcome configured
  obtain ⟨success, failure⟩ := notice_iff ended
  rw [printed]
  exact ⟨rfl, ended_iff ends, success.trans (parting_eq_empty_iff ends),
    failure.trans (parting_ne_empty_iff ends)⟩

/-- The network that answers every request alike. -/
def answering (r : Response) : Network Unit := ⟨fun _ s => (some r, s)⟩

theorem lastResponse?_answering {r : Response} (stays : r.status ∉ redirectStatuses)
    {request : Except BackendFailure Request} (built : request.toOption.isSome = true) :
    lastResponse? (answering r) request () = some r :=
  lastResponse?_final stays (fun _ => rfl) built

/-- A failure whose response says something is reported. -/
theorem told_failure_reported :
    let response : Response := ⟨500, none, Text.utf8 "\x7b\"message\":\"busy\"\x7d", true⟩
    let around : Surroundings Unit :=
      ⟨answering response, fun _ _ => true, ⟨0⟩, ⟨2024, 1, 1⟩, none, none⟩
    let settings : Config.Settings := { Config.Settings.standard with
      client := { Config.Client.standard with
        identityApiUrl? := some "http://127.0.0.1:9"
        storagePath? := some ⟨"api_token"⟩ } }
    let outcome :=
      Outcome.of (execute around settings ⟨[], none⟩ (.session none .logout) ⟨⟨[], 0, []⟩, ()⟩).1
    ∃ rest, outcome.output = "Logout failed" ++ rest := by
  intro response around settings outcome
  let backends : Backends := ⟨.of settings.client.primaryUrl settings.client.paths,
    .of "http://127.0.0.1:9" settings.client.identityApiPrefix⟩
  have configured : backendsOf settings.client = .ok backends := rfl
  let resumed := start (backends.collaborators around.network)
    (opening settings.client.logoutPolicy ⟨(), .file ⟨⟨"api_token"⟩⟩, ⟨[], 0, []⟩⟩)
  have unheld : resumed.controller.bearer? = none := by decide +kernel
  have last : lastResponse? around.network
      (backends.primary.logoutRequest resumed.controller.bearer?) resumed.world.network =
      some response := by
    rw [unheld]
    exact lastResponse?_answering (by decide) (by decide +kernel)
  have reported := @logout_reported Unit around ⟨[], none⟩ backends ⟨⟨[], 0, []⟩, ()⟩ settings none
    configured
  refine reported.2.2.2.2 ⟨fun ended => ?_, fun r same => ?_⟩
  · obtain ⟨r, same, success⟩ := reported.2.1.1 ended
    cases last.symm.trans same
    cases success
  · cases last.symm.trans same
    decide +kernel

/-- A failure whose response says nothing is reported as a success. -/
theorem silent_failure_unreported :
    let response : Response := ⟨500, none, [], true⟩
    let around : Surroundings Unit :=
      ⟨answering response, fun _ _ => true, ⟨0⟩, ⟨2024, 1, 1⟩, none, none⟩
    let settings : Config.Settings := { Config.Settings.standard with
      client := { Config.Client.standard with
        identityApiUrl? := some "http://127.0.0.1:9"
        storagePath? := some ⟨"api_token"⟩ } }
    let backends : Backends := ⟨.of settings.client.primaryUrl settings.client.paths,
      .of "http://127.0.0.1:9" settings.client.identityApiPrefix⟩
    let others := backends.collaborators around.network
    let resumed := start others
      (opening settings.client.logoutPolicy ⟨(), .file ⟨⟨"api_token"⟩⟩, ⟨[], 0, []⟩⟩)
    let outcome :=
      Outcome.of (execute around settings ⟨[], none⟩ (.session none .logout) ⟨⟨[], 0, []⟩, ()⟩).1
    backendsOf settings.client = .ok backends ∧
      (others.logout resumed.controller.bearer? resumed.world).1 = .error (.response 500 "") ∧
      outcome.output = "Logged out\n" := by
  intro response around settings backends others resumed outcome
  have configured : backendsOf settings.client = .ok backends := rfl
  have unheld : resumed.controller.bearer? = none := by decide +kernel
  have last : lastResponse? around.network
      (backends.primary.logoutRequest resumed.controller.bearer?) resumed.world.network =
      some response := by
    rw [unheld]
    exact lastResponse?_answering (by decide) (by decide +kernel)
  have ends := backends.primary.logout_ends around.network resumed.controller.bearer?
    resumed.world.network
  rw [last] at ends
  have silent : response.complaint = "" := by decide +kernel
  have failed := ends.refused rfl
  rw [silent, ← Backends.logout_answer] at failed
  have printed := @execute_logout_outcome Unit around ⟨[], none⟩ backends ⟨⟨[], 0, []⟩, ()⟩ settings
    none configured
  have notice := congrArg (logoutNotice · ++ "\n") failed
  exact ⟨configured, failed, (congrArg Outcome.output printed).trans notice⟩

end

end CredentialGate.CommandLine
