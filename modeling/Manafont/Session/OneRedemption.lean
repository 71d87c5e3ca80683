import Mathlib.Data.List.Basic
import Manafont.Session.ManafontSessionManager

/-!
# Is a ticket redeemed once?

Any number of calls of `VerifyCreateSessionAsync` on one database, interleaved at
their awaits.  `TryRevokeAsync` stores a session and spends its ticket at one stroke, and
of two calls that have read one token only one can do so.  The other is told `false`
and goes on: its `SaveChangesAsync` stores the second session.

`redeemedOnce_of_run` says that this is the only way.  In a run in which
`SaveChangesAsync` goes through only when nothing is left to save, every ticket is
redeemed at most once.  `race_redeems_twice` is a run of two calls with one ticket.
-/

namespace Manafont.Session

open Db Async

section Calls

variable {ι : Type} (tickets : ι → Option DotNetString) (guids : ι → DotNetString)

/-- The calls before their first step, each with its ticket and the key that
`Guid.NewGuid` gives its session. -/
def calls (db : Database) : Pool storage Exn ManafontGameSession ι Database :=
  { store := db, method := fun i => verifyCreateSessionAsync (guids i) (tickets i) }

/-- `Guid.NewGuid` gives a new key each time. -/
structure FreshGuids (db : Database) : Prop where
  injective : Function.Injective guids
  fresh : ∀ i, ∀ session ∈ db.sessions, session.id ≠ guids i

def MadeWith (ticket : DotNetString) (session : ManafontGameSession) : Prop :=
  ∃ i, tickets i = some ticket ∧ session.id = guids i

open Classical in
noncomputable def countMade (ticket : DotNetString) (sessions : List ManafontGameSession) : Nat :=
  sessions.countP fun session => MadeWith tickets guids ticket session

def Returned (pool : Pool storage Exn ManafontGameSession ι Database) (i : ι) : Prop :=
  ∃ session, pool.method i = .done (.ok session)

/-- The calls with a ticket have stored at most one session, and at most one of them
has returned. -/
structure RedeemedOnce (pool : Pool storage Exn ManafontGameSession ι Database)
    (ticket : DotNetString) : Prop where
  one_session : countMade tickets guids ticket pool.store.sessions ≤ 1
  one_return : ∀ i j, tickets i = some ticket → tickets j = some ticket →
    Returned pool i → Returned pool j → i = j

end Calls

/-- `SaveChangesAsync` goes through only when the context has nothing left to save, that is
after a `TryRevokeAsync` that has saved it. -/
def SavesNothing (fault : Option Exn) : StorageOp → Database → Prop
  | .saveChanges changes, _ => fault = none → changes = .empty
  | _, _ => True

def KeepsSessions (db db' : Database) : Prop :=
  ∀ session ∈ db.sessions, ∃ session' ∈ db'.sessions, session'.id = session.id

instance : Std.Refl KeepsSessions where
  refl _ session hs := ⟨session, hs, rfl⟩

instance : IsTrans Database KeepsSessions where
  trans _ _ _ h h' session hs := by
    obtain ⟨session', hs', hid⟩ := h session hs
    obtain ⟨session'', hs'', hid'⟩ := h' session' hs'
    exact ⟨session'', hs'', hid'.trans hid⟩

theorem keepsSessions_commit (changes : Changes) (db : Database) :
    KeepsSessions db (db.commit changes) := by
  intro session hs
  refine ⟨changes.rewrite session, ?_, changes.rewrite_id session⟩
  exact List.mem_append_left _ (List.mem_map_of_mem hs)

section Redemption

variable {ι : Type} {tickets : ι → Option DotNetString} {guids : ι → DotNetString}
  {backend : Backend} {db : Database}

/-! ### The sessions of a ticket -/

open Classical in
theorem countMade_eq_zero {ticket : DotNetString} {sessions : List ManafontGameSession}
    (h : ∀ session ∈ sessions, ¬ MadeWith tickets guids ticket session) :
    countMade tickets guids ticket sessions = 0 := by
  rw [countMade, List.countP_eq_zero]
  intro session hs
  rw [decide_eq_true_eq]
  exact h session hs

open Classical in
theorem eq_of_countMade_le_one {ticket : DotNetString} {sessions : List ManafontGameSession}
    (h : countMade tickets guids ticket sessions ≤ 1) {s s' : ManafontGameSession}
    (hs : s ∈ sessions) (hs' : s' ∈ sessions) (hm : MadeWith tickets guids ticket s)
    (hm' : MadeWith tickets guids ticket s') : s = s' := by
  rw [countMade, List.countP_eq_length_filter] at h
  have hmem : s ∈ sessions.filter fun s => MadeWith tickets guids ticket s :=
    List.mem_filter.mpr ⟨hs, decide_eq_true hm⟩
  have hmem' : s' ∈ sessions.filter fun s => MadeWith tickets guids ticket s :=
    List.mem_filter.mpr ⟨hs', decide_eq_true hm'⟩
  match hl : sessions.filter fun s => MadeWith tickets guids ticket s with
  | [] =>
    rw [hl] at hmem
    cases hmem
  | [x] =>
    rw [hl, List.mem_singleton] at hmem hmem'
    rw [hmem, hmem']
  | x :: y :: rest =>
    rw [hl] at h
    exact absurd h (by simp)

open Classical in
theorem countMade_commit (ticket : DotNetString) (changes : Changes) :
    countMade tickets guids ticket (db.commit changes).sessions =
      countMade tickets guids ticket db.sessions + countMade tickets guids ticket changes.added := by
  rw [countMade, Database.commit_sessions, List.countP_append, List.countP_map]
  congr 1
  apply List.countP_congr
  intro session _
  rw [Function.comp_apply, decide_eq_true_eq, decide_eq_true_eq, MadeWith, changes.rewrite_id,
    MadeWith]

theorem madeWith_newSession (hinj : Function.Injective guids) {i : ι} {user : ManafontUser}
    {ticket : DotNetString} :
    MadeWith tickets guids ticket (newSession (guids i) user) ↔ tickets i = some ticket := by
  constructor
  · rintro ⟨j, hj, hid⟩
    obtain rfl : i = j := hinj hid
    exact hj
  · intro hi
    exact ⟨i, hi, rfl⟩

/-- The invariant: a ticket with a session is spent, and has no second one. -/
def TicketsSpent (tickets : ι → Option DotNetString) (guids : ι → DotNetString)
    (backend : Backend) (db : Database) : Prop :=
  ∀ ticket, countMade tickets guids ticket db.sessions ≤ 1 ∧
    (0 < countMade tickets guids ticket db.sessions → ∀ token, db.tokens ticket = some token →
      backend.hasStatus token Statuses.valid = false)

theorem ticketsSpent_of_fresh (h : FreshGuids guids db) : TicketsSpent tickets guids backend db := by
  intro ticket
  have hzero : countMade tickets guids ticket db.sessions = 0 := by
    apply countMade_eq_zero
    rintro session hs ⟨i, -, hid⟩
    exact h.fresh i session hs hid
  rw [hzero]
  exact ⟨Nat.zero_le _, fun h0 => absurd h0 (Nat.lt_irrefl 0)⟩

/-- **A `TryRevokeAsync` that saves** stores the one session of its ticket. -/
theorem TicketsSpent.revoke (hinj : Function.Injective guids)
    (h : TicketsSpent tickets guids backend db) {i : ι} {token : OpenIddictToken}
    {user : ManafontUser} {changes : Changes} (hticket : tickets i = some token.id)
    (hstored : db.tokens token.id = some token)
    (hvalid : backend.hasStatus token Statuses.valid = true)
    (hadded : changes.added = [newSession (guids i) user]) :
    TicketsSpent tickets guids backend ((db.commit changes).revoke token) := by
  intro ticket
  have hcount : countMade tickets guids ticket (db.commit changes).sessions = _ :=
    countMade_commit ticket changes
  rw [Database.revoke_sessions, hcount, hadded]
  by_cases ht : ticket = token.id
  · subst ht
    have hzero : countMade tickets guids token.id db.sessions = 0 := by
      by_contra hne
      have hfalse := (h token.id).2 (Nat.pos_of_ne_zero hne) token hstored
      rw [hvalid] at hfalse
      cases hfalse
    have hone : countMade tickets guids token.id [newSession (guids i) user] ≤ 1 :=
      List.countP_le_length
    refine ⟨by omega, fun _ row hrow => ?_⟩
    rw [Database.revoke_tokens_self] at hrow
    cases hrow
    exact backend.hasStatus_revoked token
  · have hnone : countMade tickets guids ticket [newSession (guids i) user] = 0 := by
      apply countMade_eq_zero
      intro session hs hmade
      rw [List.mem_singleton.mp hs, madeWith_newSession hinj, hticket] at hmade
      exact ht (Option.some.inj hmade).symm
    rw [hnone, Nat.add_zero, Database.revoke_tokens_of_ne ht, Database.commit_tokens]
    exact h ticket

/-! ### Runs -/

def EndsStored (guid : DotNetString) : Except Exn ManafontGameSession → Database → Prop
  | .ok _, db => ∃ session ∈ db.sessions, session.id = guid
  | .error _, _ => True

theorem EndsStored.mono {guid : DotNetString} {r : Except Exn ManafontGameSession}
    {db' : Database} (hkeeps : KeepsSessions db db') (h : EndsStored guid r db) :
    EndsStored guid r db' := by
  cases r with
  | error e => trivial
  | ok session =>
    obtain ⟨stored, hs, hid⟩ := h
    obtain ⟨stored', hs', hid'⟩ := hkeeps stored hs
    exact ⟨stored', hs', hid'.trans hid⟩

/-- **`redeem` among other calls**, when only the first of its save points stores anything. -/
theorem safe_redeem (hinj : Function.Injective guids) {i : ι} {token : OpenIddictToken}
    {user : ManafontUser} {sessions : List ManafontGameSession}
    (hticket : tickets i = some token.id)
    (hvalid : backend.hasStatus token Statuses.valid = true) :
    Safe (perform backend) SavesNothing (TicketsSpent tickets guids backend) KeepsSessions
      (EndsStored (guids i)) (redeem token (pendingChanges (guids i) user sessions)
        (newSession (guids i) user)) db := by
  rw [safe_iff_keeps]
  refine keeps_redeem (fun _ _ => trivial) ?_ ?_
  · intro t _ hI _ hstored
    refine ⟨hI.revoke hinj hticket hstored hvalid rfl, keepsSessions_commit _ t,
      fun t' hkeeps _ => ?_⟩
    have hmem : newSession (guids i) user ∈
        ((t.commit (pendingChanges (guids i) user sessions)).revoke token).sessions :=
      List.mem_append_right _ (List.mem_singleton_self _)
    exact hkeeps _ hmem
  · intro t _ _ hC
    cases congrArg Changes.added (hC rfl)

end Redemption

section Runs

variable {ι : Type} [DecidableEq ι]

/-- **Every ticket is redeemed at most once** in every run in which `SaveChangesAsync` goes
through only when nothing is left to save. -/
theorem redeemedOnce_of_run (backend : Backend) (tickets : ι → Option DotNetString)
    (guids : ι → DotNetString) (db : Database) (hfresh : FreshGuids guids db)
    (schedule : List (ι × Option Exn))
    (hmeets : (calls tickets guids db).Meets (perform backend) SavesNothing schedule)
    (ticket : DotNetString) :
    RedeemedOnce tickets guids ((calls tickets guids db).run (perform backend) schedule) ticket := by
  have hsafe : ∀ i, Safe (perform backend) SavesNothing (TicketsSpent tickets guids backend)
      KeepsSessions (EndsStored (guids i)) ((calls tickets guids db).method i)
      (calls tickets guids db).store := fun i =>
    safe_verifyCreateSessionAsync (fun _ _ => trivial) fun token user sessions t hticket hvalid =>
      safe_redeem hfresh.injective hticket hvalid
  obtain ⟨hspent, hends⟩ := Pool.run_safe (fun i _ _ _ hkeeps _ h => h.mono hkeeps) schedule
    (ticketsSpent_of_fresh hfresh) hsafe hmeets
  refine ⟨(hspent ticket).1, ?_⟩
  rintro i j hi hj ⟨s, hs⟩ ⟨s', hs'⟩
  obtain ⟨stored, hmem, hid⟩ := Safe.of_done hs (hends i)
  obtain ⟨stored', hmem', hid'⟩ := Safe.of_done hs' (hends j)
  have hone := eq_of_countMade_le_one (hspent ticket).1 hmem hmem' ⟨i, hi, hid⟩ ⟨j, hj, hid'⟩
  apply hfresh.injective
  rw [← hid, hone, hid']

end Runs

/-! ### Two calls with one ticket -/

def race : Pool storage Exn ManafontGameSession Bool Database :=
  calls (fun _ => some [0x74]) (fun i => if i then [0x31] else [0x30]) (.issued [0x75] [[0x74]])

theorem race_freshGuids :
    FreshGuids (fun i : Bool => if i then [0x31] else [0x30]) (.issued [0x75] [[0x74]]) where
  injective := by
    intro i j h
    cases i <;> cases j <;> first | rfl | exact absurd h (by decide)
  fresh := by simp [Database.issued]

/-- One call after the other.  The second finds its ticket spent, and asks for the status. -/
def raceInTurn : List (Bool × Option Exn) :=
  List.replicate 7 (false, none) ++ List.replicate 3 (true, none)

theorem raceInTurn_meets : race.Meets (perform .loading) SavesNothing raceInTurn :=
  ⟨.of_eq rfl trivial, .of_eq rfl trivial, .of_eq rfl trivial, .of_eq rfl trivial,
    .of_eq rfl trivial, .of_eq rfl trivial, .of_eq rfl fun _ => rfl, .of_eq rfl trivial,
    .of_eq rfl trivial, .of_eq rfl trivial, trivial⟩

/-- The theorem on them: the first call returns and the second throws. -/
theorem race_redeemedOnce :
    Returned (race.run (perform .loading) raceInTurn) false ∧
      (∃ e, (race.run (perform .loading) raceInTurn).method true = .done (.error e)) ∧
      RedeemedOnce (fun _ : Bool => some [0x74]) (fun i => if i then [0x31] else [0x30])
        (race.run (perform .loading) raceInTurn) [0x74] := by
  have honce := redeemedOnce_of_run .loading (fun _ => some [0x74])
    (fun i => if i then [0x31] else [0x30]) (.issued [0x75] [[0x74]]) race_freshGuids raceInTurn
  exact ⟨⟨_, rfl⟩, ⟨_, rfl⟩, honce raceInTurn_meets [0x74]⟩

/-- Both calls find the token before either revokes it. -/
def raceSchedule : List (Bool × Option Exn) :=
  [(false, none), (true, none)] ++ List.replicate 6 (false, none) ++ List.replicate 6 (true, none)

/-- **Two calls redeem one ticket**: both return, and each has stored a session. -/
theorem race_redeems_twice :
    Backend.loading.LoadsSessions ∧ (∀ i, Returned (race.run (perform .loading) raceSchedule) i) ∧
      (race.run (perform .loading) raceSchedule).store.sessions.map (·.id) = [[0x30], [0x31]] ∧
      ¬ RedeemedOnce (fun _ : Bool => some [0x74]) (fun i => if i then [0x31] else [0x30])
        (race.run (perform .loading) raceSchedule) [0x74] := by
  have hreturned : ∀ i, Returned (race.run (perform .loading) raceSchedule) i := by
    intro i
    cases i with
    | false => exact ⟨_, rfl⟩
    | true => exact ⟨_, rfl⟩
  refine ⟨Backend.loading_loadsSessions, hreturned, rfl, fun h => ?_⟩
  have heq := h.one_return false true rfl rfl (hreturned false) (hreturned true)
  cases heq

end Manafont.Session
