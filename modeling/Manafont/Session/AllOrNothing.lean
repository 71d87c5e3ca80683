import Manafont.Session.ManafontSessionManager

/-!
# Is redeeming a ticket all or nothing?

One call of `VerifyCreateSessionAsync`, with a fault or none at each await.  It has
two save points on one context.  `TryRevokeAsync` saves the session with the revoked
token, and then only `SaveChangesAsync` can still throw; when it saves nothing it
says so in a result that the method does not look at, and `SaveChangesAsync` saves the
session alone.

So a call is all or nothing exactly when it does not come to the first save point or
both go the same way (`allOrNothing_iff`).
-/

namespace Manafont.Session

open Db Async

/-- A call that persisted a session has spent the ticket, and a call that throws has
left the tokens and the sessions as they were. -/
structure AllOrNothing (backend : Backend) (ticket : Option DotNetString) (db : Database)
    (call : Except Exn ManafontGameSession × Database) : Prop where
  spent : db.sessions.length < call.2.sessions.length → ∃ id token, ticket = some id ∧
    call.2.tokens id = some token ∧ backend.hasStatus token Statuses.valid = false
  undone : ∀ e, call.1 = .error e →
    call.2.tokens = db.tokens ∧ call.2.sessions = db.sessions

section AllOrNothing

variable {backend : Backend} {faults : Await → Option Exn} {db : Database}
  {ticket : Option DotNetString}

theorem AllOrNothing.of_throws {call : Except Exn ManafontGameSession × Database}
    (h : ∃ e, call = (.error e, db)) : AllOrNothing backend ticket db call := by
  obtain ⟨e, rfl⟩ := h
  exact ⟨fun hlt => absurd hlt (Nat.lt_irrefl _), fun _ _ => ⟨rfl, rfl⟩⟩

theorem not_allOrNothing_of_error {changes : Changes} {db' : Database} {e : Exn}
    (hadded : changes.added ≠ []) (hdb' : db'.sessions = (db.commit changes).sessions) :
    ¬ AllOrNothing backend ticket db (.error e, db') := by
  intro h
  have hlen := congrArg List.length ((h.undone e rfl).2.symm.trans hdb')
  have hpos := List.length_pos_iff.mpr hadded
  rw [Database.commit_sessions, List.length_append, List.length_map] at hlen
  omega

/-- **`redeem` is all or nothing exactly when both save points go the same way.** -/
theorem allOrNothing_redeem_iff {token : OpenIddictToken} {changes : Changes}
    {session : ManafontGameSession} (hticket : ticket = some token.id)
    (hstored : db.tokens token.id = some token)
    (hvalid : backend.hasStatus token Statuses.valid = true) (hadded : changes.added ≠ []) :
    AllOrNothing backend ticket db
        (run (performAlone backend faults) (redeem token changes session) db) ↔
      (faults .tryRevoke = none ↔ faults .saveChanges = none) := by
  rw [run_redeem hstored]
  rcases hrevoke : faults .tryRevoke with _ | e₁ <;> rcases hsave : faults .saveChanges with _ | e₂
  · -- both save: the token is revoked
    refine iff_of_true ⟨fun _ => ?_, fun e he => ?_⟩ Iff.rfl
    · exact ⟨token.id, _, hticket, Database.revoke_tokens_self token _,
        backend.hasStatus_revoked token⟩
    · cases he
  · -- the first saves the session and the second throws
    refine iff_of_false (not_allOrNothing_of_error hadded rfl) ?_
    simp
  · -- the second saves the session and leaves the token valid
    refine iff_of_false (fun h => ?_) (by simp)
    have hpos := List.length_pos_iff.mpr hadded
    obtain ⟨id, row, hid, hrow, hfalse⟩ := h.spent
      (by simp only [Database.commit_sessions, List.length_append, List.length_map]; omega)
    rw [hticket] at hid
    cases hid
    rw [Database.commit_tokens, hstored] at hrow
    cases hrow
    rw [hvalid] at hfalse
    cases hfalse
  · exact iff_of_true (.of_throws ⟨e₂, rfl⟩) (by simp)

end AllOrNothing

/-- **A call is all or nothing exactly when it does not come to `TryRevokeAsync`, or
`TryRevokeAsync` and `SaveChangesAsync` both save or both fail.** -/
theorem allOrNothing_iff (backend : Backend) (faults : Await → Option Exn) (guid : DotNetString)
    (ticket : Option DotNetString) (db : Database) :
    AllOrNothing backend ticket db
        (run (performAlone backend faults) (verifyCreateSessionAsync guid ticket) db) ↔
      ((∃ token user sessions, Redeemable backend faults db ticket token user sessions) →
        (faults .tryRevoke = none ↔ faults .saveChanges = none)) := by
  by_cases h : ∃ token user sessions, Redeemable backend faults db ticket token user sessions
  · obtain ⟨token, user, sessions, hr⟩ := h
    rw [run_verifyCreateSessionAsync_of_redeemable hr,
      allOrNothing_redeem_iff hr.ticket_eq hr.stored hr.valid (by simp [pendingChanges])]
    exact ⟨fun hiff _ => hiff, fun himp => himp ⟨token, user, sessions, hr⟩⟩
  · refine iff_of_true (.of_throws (throws_verifyCreateSessionAsync guid ?_)) fun hr => absurd hr h
    exact fun token user sessions hr => h ⟨token, user, sessions, hr⟩

def faultAt (place : Await) (e : Exn) (at' : Await) : Option Exn :=
  if at' = place then some e else none

/-- The ticket `t` of the user `u`, redeemed with a fault at one await. -/
def redeemWithFault (place : Await) (e : Exn) : Except Exn ManafontGameSession × Database :=
  run (performAlone .loading (faultAt place e)) (verifyCreateSessionAsync [0x67] (some [0x74]))
    (.issued [0x75] [[0x74]])

/-- **Half of a redemption**: the cancellation token fires between the two save points, or
`TryRevokeAsync` fails. -/
theorem half_redeemed :
    ¬ AllOrNothing .loading (some [0x74]) (.issued [0x75] [[0x74]])
        (redeemWithFault .saveChanges .operationCanceled) ∧
      ¬ AllOrNothing .loading (some [0x74]) (.issued [0x75] [[0x74]])
        (redeemWithFault .tryRevoke (.other "DbUpdateException")) := by
  constructor
  · intro h
    have hsessions := (h.undone .operationCanceled rfl).2
    cases hsessions
  · intro h
    obtain ⟨id, row, hid, hrow, hfalse⟩ := h.spent (by decide)
    cases hid
    cases hrow
    cases hfalse

end Manafont.Session
