import Manafont.Session.OneRedemption

/-!
# Does a user have one live session?

Calls of `VerifyCreateSessionAsync` on one database, as before, but now it is the users
that count.  A call revokes the sessions that were loaded with its user and stores a
new one.  A session that another call stores in between is not among them.

So what decides is whether, at each commit, every valid session of the user that is
stored by then was loaded.  In a run where it was, every user keeps at most one valid
session (`oneSession_of_run`).  `twoLogins_leave_two_sessions` is a run of two calls with two
tickets of one user.
-/

namespace Manafont.Session

open Db Async

def countValid (user : DotNetString) (sessions : List ManafontGameSession) : Nat :=
  sessions.countP fun session => session.user = user ∧ session.status = .valid

def OneSession (db : Database) : Prop := ∀ user, countValid user db.sessions ≤ 1

/-- The context has loaded every valid session of the user it adds a session for. -/
def Covers (changes : Changes) (db : Database) : Prop :=
  ∀ added ∈ changes.added, ∀ session ∈ db.sessions,
    session.user = added.user → session.status = .valid →
      ∃ loaded ∈ changes.modified, loaded.id = session.id

/-- A commit that goes through covers the sessions that are stored by then. -/
def CommitsCover (fault : Option Exn) : StorageOp → Database → Prop
  | .tryRevoke token changes, db =>
    fault = none → db.tokens token.id = some token → Covers changes db
  | .saveChanges changes, db => fault = none → Covers changes db
  | _, _ => True

/-- Nothing is asked of the changes of the other calls but the invariant. -/
def AnyChange (_ _ : Database) : Prop := True

instance : Std.Refl AnyChange where
  refl _ := trivial

instance : IsTrans Database AnyChange where
  trans _ _ _ _ _ := trivial

section OneSession

variable {db : Database} {changes : Changes}

theorem covers_of_sessions_nil (h : db.sessions = []) : Covers changes db := by
  intro _ _ session hs
  rw [h] at hs
  cases hs

theorem covers_of_added_nil (h : changes.added = []) : Covers changes db := by
  intro added hadded
  rw [h] at hadded
  cases hadded

/-! ### One commit -/

theorem countValid_commit (user : DotNetString) :
    countValid user (db.commit changes).sessions =
      countValid user (db.sessions.map changes.rewrite) + countValid user changes.added := by
  rw [countValid, Database.commit_sessions, List.countP_append]
  rfl

theorem rewrite_eq_of_valid (hrevoked : ∀ session ∈ changes.modified, session.status = .revoked)
    {row : ManafontGameSession} (h : (changes.rewrite row).status = .valid) :
    changes.rewrite row = row ∧ ∀ session ∈ changes.modified, session.id ≠ row.id := by
  rcases changes.rewrite_eq_or row with hrow | hmem
  · exact hrow
  · rw [hrevoked _ hmem] at h
    cases h

theorem countValid_rewrite_le (hrevoked : ∀ session ∈ changes.modified, session.status = .revoked)
    (user : DotNetString) :
    countValid user (db.sessions.map changes.rewrite) ≤ countValid user db.sessions := by
  rw [countValid, List.countP_map]
  apply List.countP_mono_left
  intro row _ h
  simp only [Function.comp_apply, decide_eq_true_eq] at h ⊢
  rwa [(rewrite_eq_of_valid hrevoked h.2).1] at h

/-- A user whose valid sessions are covered has none left. -/
theorem countValid_rewrite_of_covers
    (hrevoked : ∀ session ∈ changes.modified, session.status = .revoked)
    (hcovers : Covers changes db) {added : ManafontGameSession} (hadded : added ∈ changes.added) :
    countValid added.user (db.sessions.map changes.rewrite) = 0 := by
  rw [countValid, List.countP_map, List.countP_eq_zero]
  intro row hrow h
  simp only [Function.comp_apply, decide_eq_true_eq] at h
  obtain ⟨hsame, hleft⟩ := rewrite_eq_of_valid hrevoked h.2
  rw [hsame] at h
  obtain ⟨loaded, hloaded, hid⟩ := hcovers added hadded row hrow h.1 h.2
  exact hleft loaded hloaded hid

/-- **A commit that covers the stored sessions** leaves every user one valid session at most. -/
theorem OneSession.commit (h : OneSession db)
    (hrevoked : ∀ session ∈ changes.modified, session.status = .revoked)
    {added : ManafontGameSession} (hadded : changes.added = [added]) (hcovers : Covers changes db) :
    OneSession (db.commit changes) := by
  intro user
  rw [countValid_commit, hadded]
  by_cases hu : user = added.user
  · subst hu
    rw [countValid_rewrite_of_covers hrevoked hcovers (by rw [hadded]; exact List.mem_singleton_self _),
      Nat.zero_add]
    exact List.countP_le_length
  · have hnone : countValid user [added] = 0 := by
      rw [countValid, List.countP_eq_zero]
      intro session hs hsession
      rw [List.mem_singleton.mp hs, decide_eq_true_eq] at hsession
      exact hu hsession.1.symm
    rw [hnone, Nat.add_zero]
    exact (countValid_rewrite_le hrevoked user).trans (h user)

/-! ### Runs -/

theorem revoked_of_mem_pendingChanges {guid : DotNetString} {user : ManafontUser}
    {sessions : List ManafontGameSession} :
    ∀ session ∈ (pendingChanges guid user sessions).modified, session.status = .revoked := by
  intro session hs
  obtain ⟨loaded, -, rfl⟩ := List.mem_map.mp hs
  rfl

/-- **`redeem` among other calls**, when its commits cover what is stored. -/
theorem safe_redeem_of_covers {backend : Backend} {guid : DotNetString} {token : OpenIddictToken}
    {user : ManafontUser} {sessions : List ManafontGameSession} :
    Safe (perform backend) CommitsCover OneSession AnyChange (fun _ _ => True)
      (redeem token (pendingChanges guid user sessions) (newSession guid user)) db := by
  rw [safe_iff_keeps]
  refine keeps_redeem (fun _ _ => trivial) ?_ ?_
  · intro t _ hI hC hstored
    exact ⟨hI.commit revoked_of_mem_pendingChanges rfl (hC rfl hstored), trivial,
      fun _ _ _ => trivial⟩
  · intro t _ hI hC
    exact ⟨hI.commit revoked_of_mem_pendingChanges rfl (hC rfl), trivial, trivial⟩

end OneSession

section Runs

variable {ι : Type} [DecidableEq ι]

/-- **Every user keeps at most one valid session** in every run whose commits cover what is
stored. -/
theorem oneSession_of_run (backend : Backend) (tickets : ι → Option DotNetString)
    (guids : ι → DotNetString) (db : Database) (hone : OneSession db)
    (schedule : List (ι × Option Exn))
    (hmeets : (calls tickets guids db).Meets (perform backend) CommitsCover schedule) :
    OneSession ((calls tickets guids db).run (perform backend) schedule).store := by
  have hsafe : ∀ i, Safe (perform backend) CommitsCover OneSession AnyChange (fun _ _ => True)
      ((calls tickets guids db).method i) (calls tickets guids db).store := fun i =>
    safe_verifyCreateSessionAsync (fun _ _ => trivial) fun _ _ _ _ _ _ => safe_redeem_of_covers
  exact (Pool.run_safe (fun _ _ _ _ _ _ h => h) schedule hone hsafe hmeets).1

end Runs

/-! ### Two logins of one user -/

def twoLogins : Pool storage Exn ManafontGameSession Bool Database :=
  calls (fun i => if i then some [0x73] else some [0x74])
    (fun i => if i then [0x31] else [0x30]) (.issued [0x75] [[0x73], [0x74]])

/-- One call after the other. -/
def twoLoginsInTurn : List (Bool × Option Exn) :=
  List.replicate 7 (false, none) ++ List.replicate 7 (true, none)

theorem twoLoginsInTurn_covers :
    twoLogins.Meets (perform .loading) CommitsCover twoLoginsInTurn := by
  refine ⟨.of_eq rfl trivial, .of_eq rfl trivial, .of_eq rfl trivial, .of_eq rfl trivial,
    .of_eq rfl trivial, .of_eq rfl ?_, .of_eq rfl ?_, .of_eq rfl trivial, .of_eq rfl trivial,
    .of_eq rfl trivial, .of_eq rfl trivial, .of_eq rfl trivial, .of_eq rfl ?_, .of_eq rfl ?_,
    trivial⟩
  · exact fun _ _ => covers_of_sessions_nil rfl
  · exact fun _ => covers_of_added_nil rfl
  · -- the second call has loaded what the first has stored
    intro _ _ added _ session hs _ _
    obtain rfl := List.mem_singleton.mp hs
    exact ⟨_, List.mem_singleton_self _, rfl⟩
  · exact fun _ => covers_of_added_nil rfl

/-- The theorem on them: the second login revokes the session of the first. -/
theorem twoLogins_oneSession :
    (twoLogins.run (perform .loading) twoLoginsInTurn).store.sessions.map (·.status) =
        [.revoked, .valid] ∧
      OneSession (twoLogins.run (perform .loading) twoLoginsInTurn).store := by
  refine ⟨rfl, ?_⟩
  exact oneSession_of_run .loading (fun i : Bool => if i then some [0x73] else some [0x74])
    (fun i => if i then [0x31] else [0x30]) (.issued [0x75] [[0x73], [0x74]])
    (fun _ => Nat.zero_le 1) twoLoginsInTurn twoLoginsInTurn_covers

/-- Both calls load the user before either commits. -/
def twoLoginsSchedule : List (Bool × Option Exn) :=
  List.replicate 4 (false, none) ++ List.replicate 4 (true, none) ++
    List.replicate 3 (false, none) ++ List.replicate 3 (true, none)

/-- **Two logins leave one user two valid sessions.** -/
theorem twoLogins_leave_two_sessions :
    Backend.loading.LoadsSessions ∧ OneSession twoLogins.store ∧
      (∀ i, Returned (twoLogins.run (perform .loading) twoLoginsSchedule) i) ∧
      ¬ OneSession (twoLogins.run (perform .loading) twoLoginsSchedule).store := by
  refine ⟨Backend.loading_loadsSessions, fun _ => Nat.zero_le 1, fun i => ?_, fun h => ?_⟩
  · cases i with
    | false => exact ⟨_, rfl⟩
    | true => exact ⟨_, rfl⟩
  · have htwo : countValid [0x75]
        (twoLogins.run (perform .loading) twoLoginsSchedule).store.sessions = 2 := rfl
    have hle := h [0x75]
    omega

end Manafont.Session
