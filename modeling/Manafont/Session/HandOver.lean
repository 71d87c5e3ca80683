import Manafont.Session.ManafontSessionManager

/-!
# Does a session pass to the new login?

One call of `VerifyCreateSessionAsync` with nothing to interrupt it.  For the id of a
valid token of an existing user it should hand the session over: revoke the old ones,
store a new one and spend the token.

`GameSessions` decides.  The class does not initialise it and the context includes
nothing, so it is null on a user that `FindAsync` has loaded, and the `Any` that comes
first throws (`run_of_spendable`).  A ticket that is nobody's is refused as it should be
(`run_of_not_spendable`), but for the empty one, which OpenIddict does not look up.  So the
hand-over is kept exactly where there is nothing to hand over (`handOver_iff`).
-/

namespace Manafont.Session

open Db Async

/-- The ticket is the id of a valid token of an existing user. -/
structure Spendable (backend : Backend) (db : Database) (ticket : Option DotNetString)
    (token : OpenIddictToken) (user : DotNetString) : Prop where
  ticket_eq : ticket = some token.id
  stored : db.tokens token.id = some token
  valid : backend.hasStatus token Statuses.valid = true
  subject : token.subject = some user
  user_exists : db.users user = true

/-- The user has a new session and no other valid one, and the token is spent. -/
structure HandedOver (backend : Backend) (db db' : Database) (token : OpenIddictToken)
    (user : DotNetString) (session : ManafontGameSession) : Prop where
  valid : session.status = .valid
  user_eq : session.user = user
  stored : session ∈ db'.sessions
  new : ∀ old ∈ db.sessions, old.id ≠ session.id
  others_revoked : ∀ other ∈ db'.sessions, other.user = user → other.id ≠ session.id →
    other.status = .revoked
  spent : ∃ row, db'.tokens token.id = some row ∧ backend.hasStatus row Statuses.valid = false
  other_users : db'.sessions.filter (fun other => other.user ≠ user) =
    db.sessions.filter fun other => other.user ≠ user
  other_tokens : ∀ id, id ≠ token.id → db'.tokens id = db.tokens id

/-- A spendable ticket hands the session over; any other is refused with
`SecurityException`, and the database is as it was. -/
structure HandOver (backend : Backend) (ticket : Option DotNetString) (db : Database)
    (call : Except Exn ManafontGameSession × Database) : Prop where
  handed : ∀ token user, Spendable backend db ticket token user →
    ∃ session, call.1 = .ok session ∧ HandedOver backend db call.2 token user session
  refused : (∀ token user, ¬ Spendable backend db ticket token user) →
    (∃ message, call.1 = .error (.security message)) ∧ call.2 = db

def callUninterrupted (backend : Backend) (guid : DotNetString) (ticket : Option DotNetString)
    (db : Database) : Except Exn ManafontGameSession × Database :=
  run (performAlone backend fun _ => none) (verifyCreateSessionAsync guid ticket) db

section HandOver

variable {backend : Backend} {guid : DotNetString} {ticket : Option DotNetString} {db : Database}

theorem answer_findById_of_ne {id : DotNetString} (h : id ≠ []) :
    answer backend (.findById (some id)) db = (.ok (db.tokens id), db) := by
  cases id with
  | nil => exact absurd rfl h
  | cons c cs => rfl

/-- **A spendable ticket is not spent**: `GameSessions` is null, and `Any` throws. -/
theorem run_of_spendable (hunloaded : backend.LeavesUnloaded) {token : OpenIddictToken}
    {user : DotNetString} (h : Spendable backend db ticket token user) (hid : token.id ≠ []) :
    callUninterrupted backend guid ticket db = (.error (.argumentNull "source"), db) := by
  have hfind : answer backend (.findById ticket) db = (.ok (some token), db) := by
    rw [h.ticket_eq, answer_findById_of_ne hid, h.stored]
  have hstatus : answer backend (.hasStatus token Statuses.valid) db = (.ok true, db) := by
    rw [answer, h.valid]
  have hsubject : answer backend (.getSubject token) db = (.ok (some user), db) := by
    rw [answer, h.subject]
  have huser : answer backend (.findUser user) db =
      (.ok (some { id := user, gameSessions := none }), db) := by
    rw [answer_findUser_of_exists h.user_exists, hunloaded db user]
  rw [callUninterrupted, verifyCreateSessionAsync]
  refine (run_perform_bind_of_ok ((performAlone_of_none rfl).trans hfind)).trans ?_
  refine (run_perform_bind_of_ok ((performAlone_of_none rfl).trans hstatus)).trans ?_
  refine (run_perform_bind_of_ok ((performAlone_of_none rfl).trans hsubject)).trans ?_
  refine (run_perform_bind_of_ok ((performAlone_of_none rfl).trans huser)).trans ?_
  rfl

/-- **A ticket that cannot be spent is refused**, and the database is as it was. -/
theorem run_of_not_spendable (guid : DotNetString) {id : DotNetString} (hid : id ≠ [])
    (h : ∀ token user, ¬ Spendable backend db (some id) token user) :
    ∃ message, callUninterrupted backend guid (some id) db = (.error (.security message), db) := by
  rw [callUninterrupted, verifyCreateSessionAsync,
    run_perform_bind_of_ok ((performAlone_of_none rfl).trans (answer_findById_of_ne hid))]
  rcases hstored : db.tokens id with _ | token
  · exact ⟨_, rfl⟩
  have htoken : token.id = id := db.tokens_id _ _ hstored
  refine Exists.imp
    (fun message hrun => (run_perform_bind_of_ok (performAlone_of_none rfl)).trans hrun) ?_
  rcases hvalid : backend.hasStatus token Statuses.valid with _ | _
  · exact ⟨_, run_perform_bind_of_ok (performAlone_of_none rfl)⟩
  refine Exists.imp
    (fun message hrun => (run_perform_bind_of_ok (performAlone_of_none rfl)).trans hrun) ?_
  rcases hsubject : token.subject with _ | subject
  · exact ⟨_, rfl⟩
  by_cases hexists : db.users subject = true
  · exact absurd {
      ticket_eq := by rw [htoken], stored := by rw [htoken, hstored], valid := hvalid
      subject := hsubject, user_exists := hexists } (h token subject)
  · have huser : performAlone backend (fun _ => none) (.findUser subject) db = _ :=
      (performAlone_of_none rfl).trans (answer_findUser_of_not_exists hexists)
    exact ⟨_, (run_perform_bind_of_ok huser).trans rfl⟩

/-- An empty ticket is not looked up. -/
theorem run_of_empty (hticket : ticket = none ∨ ticket = some []) :
    callUninterrupted backend guid ticket db =
      (.error (.argument "The identifier cannot be null or empty." "identifier"), db) := by
  rw [callUninterrupted, verifyCreateSessionAsync]
  rcases hticket with rfl | rfl
  · exact run_perform_bind_of_error (performAlone_of_none rfl)
  · exact run_perform_bind_of_error (performAlone_of_none rfl)

theorem not_handOver_of_error {e : Exn} {db' : Database} (he : ∀ message, e ≠ .security message) :
    ¬ HandOver backend ticket db (.error e, db') := by
  intro h
  by_cases hspendable : ∃ token user, Spendable backend db ticket token user
  · obtain ⟨token, user, hspendable⟩ := hspendable
    obtain ⟨session, hok, -⟩ := h.handed token user hspendable
    cases hok
  · obtain ⟨⟨message, herror⟩, -⟩ :=
      h.refused fun token user hs => hspendable ⟨token, user, hs⟩
    cases herror
    exact he message rfl

end HandOver

/-- **The hand-over is kept exactly for a ticket that is not empty and cannot be spent.** -/
theorem handOver_iff (backend : Backend) (hunloaded : backend.LeavesUnloaded)
    (guid : DotNetString) (ticket : Option DotNetString) (db : Database) :
    HandOver backend ticket db (callUninterrupted backend guid ticket db) ↔
      ticket ≠ none ∧ ticket ≠ some [] ∧
        ∀ token user, ¬ Spendable backend db ticket token user := by
  by_cases hempty : ticket = none ∨ ticket = some []
  · rw [run_of_empty hempty]
    refine iff_of_false (not_handOver_of_error fun _ he => by cases he) ?_
    rintro ⟨hnull, hne, -⟩
    exact hempty.elim hnull hne
  · obtain ⟨hnull, hne⟩ := not_or.mp hempty
    obtain ⟨id, rfl⟩ := Option.ne_none_iff_exists'.mp hnull
    have hid : id ≠ [] := fun h => hne (congrArg some h)
    by_cases hspendable : ∃ token user, Spendable backend db (some id) token user
    · obtain ⟨token, user, hs⟩ := hspendable
      have htoken : token.id ≠ [] := by
        have heq := Option.some.inj hs.ticket_eq
        rwa [← heq]
      rw [run_of_spendable hunloaded hs htoken]
      refine iff_of_false (not_handOver_of_error fun _ he => by cases he) ?_
      rintro ⟨-, -, hno⟩
      exact hno token user hs
    · have hno : ∀ token user, ¬ Spendable backend db (some id) token user :=
        fun token user hs => hspendable ⟨token, user, hs⟩
      obtain ⟨message, hrun⟩ := run_of_not_spendable guid hid hno
      rw [hrun]
      exact iff_of_true ⟨fun token user hs => absurd hs (hno token user),
        fun _ => ⟨⟨message, rfl⟩, rfl⟩⟩ ⟨hnull, hne, hno⟩

/-- The theorem on a ticket that nobody has issued. -/
theorem nobodys_handOver_iff :
    HandOver .unloading (some [0x74]) (.issued [0x75] [])
        (callUninterrupted .unloading [0x67] (some [0x74]) (.issued [0x75] [])) ↔
      (some [0x74] : Option DotNetString) ≠ none ∧ (some [0x74] : Option DotNetString) ≠ some [] ∧
        ∀ token user, ¬ Spendable .unloading (.issued [0x75] []) (some [0x74]) token user :=
  handOver_iff .unloading Backend.unloading_leavesUnloaded [0x67] (some [0x74]) (.issued [0x75] [])

/-- **A valid ticket of an existing user is not handed over.** -/
theorem issued_not_handOver :
    Backend.unloading.LeavesUnloaded ∧
      callUninterrupted .unloading [0x67] (some [0x74]) (.issued [0x75] [[0x74]]) =
        (.error (.argumentNull "source"), .issued [0x75] [[0x74]]) ∧
      ¬ HandOver .unloading (some [0x74]) (.issued [0x75] [[0x74]])
        (callUninterrupted .unloading [0x67] (some [0x74]) (.issued [0x75] [[0x74]])) := by
  have hrun : callUninterrupted .unloading [0x67] (some [0x74]) (.issued [0x75] [[0x74]]) =
      (.error (.argumentNull "source"), .issued [0x75] [[0x74]]) := rfl
  refine ⟨Backend.unloading_leavesUnloaded, hrun, ?_⟩
  rw [hrun]
  exact not_handOver_of_error fun _ he => by cases he

end Manafont.Session
