import CredentialGate.Store.Table
import Mathlib.Data.List.Nodup
import Mathlib.Data.List.Pairwise

/-! The rows of a table after a statement, and when a statement fails. -/
namespace CredentialGate.Store

/-- A token that both rows hold makes them one. -/
def Row.Apart (r s : Row) : Prop :=
  ∀ token, r.token? = some token → s.token? = some token → r = s

instance : Std.Symm Row.Apart :=
  ⟨fun _ _ apart token held again => (apart token again held).symm⟩

namespace Table

theorem ofRows_eq_ok_iff {rows : List Row} {t : Table} : ofRows rows = .ok t ↔ t.rows = rows := by
  constructor
  · intro made
    unfold ofRows at made
    split at made
    · split at made
      · cases made
        rfl
      · cases made
    · cases made
  · rintro rfl
    simp [ofRows, t.emails, t.tokens]

/-- Rows of one e-mail are one row. -/
theorem row_unique (t : Table) {r s : Row} (member : r ∈ t.rows) (also : s ∈ t.rows)
    (same : r.user.email = s.user.email) : r = s :=
  List.inj_on_of_nodup_map t.emails member also same

/-- Tokens are distinct where no two rows hold one. -/
theorem tokens_nodup_iff {rows : List Row} (emails : (rows.map (·.user.email)).Nodup) :
    (rows.filterMap (·.token?)).Nodup ↔ ∀ r ∈ rows, ∀ s ∈ rows, r.Apart s := by
  have distinct : rows.Nodup := .of_map _ emails
  rw [List.Nodup, List.pairwise_filterMap]
  constructor
  · intro apart
    have pairwise : rows.Pairwise Row.Apart := apart.imp fun differ token held again =>
      absurd rfl (differ token held token again)
    exact fun r member s also => pairwise.forall_of_forall (fun _ _ _ _ _ => rfl) member also
  · intro holder
    refine distinct.pairwise_of_forall_ne fun r member s also different token held other again => ?_
    rintro rfl
    exact different (holder r member s also _ held again)

/-- A token has one holder. -/
theorem holder_unique (t : Table) {r s : Row} {token : String} (member : r ∈ t.rows)
    (also : s ∈ t.rows) (held : r.token? = some token) (again : s.token? = some token) : r = s :=
  (tokens_nodup_iff t.emails).1 t.tokens r member s also token held again

theorem find?_eq_some_iff (t : Table) (token : String) (user : User) :
    t.find? token = some user ↔ ⟨user, some token⟩ ∈ t.rows := by
  simp only [find?, Option.map_eq_some_iff]
  constructor
  · rintro ⟨r, found, rfl⟩
    have held : r.token? = some token := by simpa using List.find?_some found
    exact held ▸ List.mem_of_find?_eq_some found
  · intro member
    have exists_holder : (t.rows.find? fun r => r.token? = some token).isSome := by
      simpa using ⟨_, member, rfl⟩
    obtain ⟨r, found⟩ := Option.isSome_iff_exists.1 exists_holder
    have held : r.token? = some token := by simpa using List.find?_some found
    rw [found]
    exact ⟨r, rfl, by rw [t.holder_unique (List.mem_of_find?_eq_some found) member held rfl]⟩

theorem hasEmail_iff (t : Table) (email : String) :
    t.hasEmail email = true ↔ ∃ r ∈ t.rows, r.user.email = email := by
  simp [hasEmail]

theorem mem_changed (t : Table) (email : String) (change : Row → Row) (r : Row) :
    r ∈ t.changed email change ↔
      (∃ old ∈ t.rows, old.user.email = email ∧ r = change old) ∨
        r ∈ t.rows ∧ r.user.email ≠ email := by
  simp only [changed, List.mem_map]
  constructor
  · rintro ⟨old, member, rfl⟩
    split
    · exact .inl ⟨old, member, ‹_›, rfl⟩
    · exact .inr ⟨member, ‹_›⟩
  · rintro (⟨old, member, same, rfl⟩ | ⟨member, other⟩)
    · exact ⟨old, member, if_pos same⟩
    · exact ⟨r, member, if_neg other⟩

theorem changed_emails (t : Table) {email : String} {change : Row → Row}
    (kept : ∀ r, (change r).user.email = r.user.email) :
    (t.changed email change).map (·.user.email) = t.rows.map (·.user.email) := by
  rw [changed, List.map_map, List.map_congr_left]
  intro r _
  simp only [Function.comp]
  split
  · exact kept r
  · rfl

theorem mem_inserted (t : Table) (user : User) (token : String) (r : Row) :
    r ∈ t.inserted user token ↔
      r = ⟨user, some token⟩ ∨ r ∈ t.rows ∧ r.user.email ≠ user.email := by
  unfold inserted
  split
  · rename_i present
    obtain ⟨old, member, same⟩ := (t.hasEmail_iff user.email).1 present
    rw [mem_changed]
    refine or_congr_left ⟨?_, ?_⟩
    · rintro ⟨old, -, same, rfl⟩
      simp [same]
    · rintro rfl
      exact ⟨old, member, same, by simp [same]⟩
  · rename_i absent
    rw [t.hasEmail_iff] at absent
    rw [List.mem_append, List.mem_singleton, or_comm]
    refine or_congr_right ⟨fun member => ⟨member, fun same => absent ⟨r, member, same⟩⟩, (·.1)⟩

theorem inserted_emails (t : Table) (user : User) (token : String) :
    ((t.inserted user token).map (·.user.email)).Nodup := by
  unfold inserted
  split
  · rw [t.changed_emails]
    · exact t.emails
    · exact fun _ => rfl
  · rename_i absent
    rw [t.hasEmail_iff] at absent
    rw [List.map_append, List.map_singleton, ← List.concat_eq_append, List.nodup_concat]
    exact ⟨by simpa using absent, t.emails⟩

/-- The insert repeats no token unless another user holds it. -/
theorem inserted_tokens (t : Table) (user : User) (token : String) :
    ((t.inserted user token).filterMap (·.token?)).Nodup ↔
      ∀ r ∈ t.rows, r.token? = some token → r.user.email = user.email := by
  rw [tokens_nodup_iff (t.inserted_emails user token)]
  simp only [mem_inserted]
  constructor
  · intro holder r member held
    by_contra other
    have same := holder r (.inr ⟨member, other⟩) ⟨user, some token⟩ (.inl rfl) token held rfl
    exact other (by rw [same])
  -- Two rows share a token only if one is the new row, and then the other has its e-mail.
  · rintro free r (rfl | ⟨member, other⟩) s (rfl | ⟨also, another⟩) shared held again
    · rfl
    · cases held
      exact absurd (free s also again) another
    · cases again
      exact absurd (free r member held) other
    · exact t.holder_unique member also held again

/-- An upsert fails if another user holds the token, and changes the row of the user otherwise. -/
theorem upsert_cases (t : Table) (user : User) (token : String) :
    (∃ r ∈ t.rows, r.user.email ≠ user.email ∧ r.token? = some token) ∧
        t.upsert user token = .error tokenTaken ∨
      (∀ r ∈ t.rows, r.token? = some token → r.user.email = user.email) ∧
        ∃ u, t.upsert user token = .ok u ∧ u.rows = t.inserted user token := by
  by_cases free : ∀ r ∈ t.rows, r.token? = some token → r.user.email = user.email
  · refine .inr ⟨free, ⟨_, t.inserted_emails user token, (t.inserted_tokens user token).2 free⟩, ?_,
      rfl⟩
    exact ofRows_eq_ok_iff.2 rfl
  · have repeats := mt (t.inserted_tokens user token).1 free
    refine .inl ⟨by grind, ?_⟩
    simp [upsert, ofRows, t.inserted_emails user token, repeats]

theorem cleared_emails (t : Table) (email : String) :
    ((t.changed email fun r => { r with token? := none }).map (·.user.email)).Nodup := by
  rw [t.changed_emails]
  · exact t.emails
  · exact fun _ => rfl

theorem cleared_tokens (t : Table) (email : String) :
    ((t.changed email fun r => { r with token? := none }).filterMap (·.token?)).Nodup := by
  rw [tokens_nodup_iff (t.cleared_emails email)]
  simp only [mem_changed]
  rintro r (⟨_, -, -, rfl⟩ | ⟨member, -⟩) s (⟨_, -, -, rfl⟩ | ⟨also, -⟩) token held again
  · cases held
  · cases held
  · cases again
  · exact t.holder_unique member also held again

/-- A revocation fails if the user is unknown, and only takes the token away otherwise. -/
theorem revoke_cases (t : Table) (email : String) :
    (∀ r ∈ t.rows, r.user.email ≠ email) ∧ t.revoke email = .error (.userNotFound email) ∨
      (∃ r ∈ t.rows, r.user.email = email) ∧ ∃ u, t.revoke email = .ok u ∧
        u.rows = t.changed email fun r => { r with token? := none } := by
  by_cases present : t.hasEmail email = true
  · refine .inr ⟨(t.hasEmail_iff email).1 present,
      ⟨_, t.cleared_emails email, t.cleared_tokens email⟩, ?_, rfl⟩
    rw [revoke, if_pos present]
    exact ofRows_eq_ok_iff.2 rfl
  · refine .inl ⟨?_, by rw [revoke, if_neg present]⟩
    rw [t.hasEmail_iff] at present
    grind

end Table

end CredentialGate.Store
