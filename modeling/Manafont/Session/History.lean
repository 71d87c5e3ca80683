import Mathlib.Data.List.Nodup
import Manafont.Session.OneRedemption

/-!
# What calls make of the tables

Any number of calls of `VerifyCreateSessionAsync`, interleaved at their awaits, with a fault or
none at each.  Nothing is asked of the run.  The tables only move forward (`Later`): users
stay as they are, a token and a stored session are never changed but to be revoked, each session
keeps its place, and no two sessions have one key (`later_of_run`).

A session that the calls have added belongs to the user of the ticket it was made with
(`Issued`): the ticket was the id of a valid token of that user before the run
(`issued_of_run`).

A call relies on the others not to use its key, and guarantees to add no other key than its
own.  A commit writes over a stored session only what was loaded before, so that the row
has no column to lose but its status.
-/

namespace Manafont.Session

open Db Async

def OnlyRevoked (session session' : ManafontGameSession) : Prop :=
  session' = session ∨ session' = { session with status := .revoked }

def sessionIds (db : Database) : List DotNetString := db.sessions.map (·.id)

/-- `db'` is a later state of the tables. -/
structure Later (db db' : Database) : Prop where
  users : db'.users = db.users
  tokens : ∀ id, db'.tokens id = db.tokens id ∨ ∃ token, db.tokens id = some token ∧
    db'.tokens id = some { token with status := some Statuses.revoked }
  sessions : ∀ (k : Nat) (session : ManafontGameSession), db.sessions[k]? = some session →
    ∃ session', db'.sessions[k]? = some session' ∧ OnlyRevoked session session'

theorem OnlyRevoked.id_eq {session session' : ManafontGameSession}
    (h : OnlyRevoked session session') : session'.id = session.id := by
  rcases h with rfl | rfl <;> rfl

theorem OnlyRevoked.user_eq {session session' : ManafontGameSession}
    (h : OnlyRevoked session session') : session'.user = session.user := by
  rcases h with rfl | rfl <;> rfl

theorem OnlyRevoked.trans {session session' session'' : ManafontGameSession}
    (h : OnlyRevoked session session') (h' : OnlyRevoked session' session'') :
    OnlyRevoked session session'' := by
  rcases h with rfl | rfl
  · exact h'
  · rcases h' with rfl | rfl
    · exact .inr rfl
    · exact .inr rfl

theorem OnlyRevoked.revoke_eq {session session' : ManafontGameSession}
    (h : OnlyRevoked session session') :
    ({ session with status := .revoked } : ManafontGameSession) =
      { session' with status := .revoked } := by
  rcases h with rfl | rfl <;> rfl

instance : Std.Refl Later where
  refl _ := ⟨rfl, fun _ => .inl rfl, fun _ session h => ⟨session, h, .inl rfl⟩⟩

instance : IsTrans Database Later where
  trans := by
    intro db db' db'' h h'
    refine ⟨h'.users.trans h.users, fun id => ?_, fun k session hk => ?_⟩
    · rcases h'.tokens id with hsame | ⟨token, htoken, hrevoked⟩
      · rw [hsame]
        exact h.tokens id
      · rcases h.tokens id with hsame | ⟨token', htoken', hrevoked'⟩
        · rw [hsame] at htoken
          exact .inr ⟨token, htoken, hrevoked⟩
        · rw [hrevoked'] at htoken
          cases htoken
          exact .inr ⟨token', htoken', hrevoked⟩
    · obtain ⟨session', hk', honly⟩ := h.sessions k session hk
      obtain ⟨session'', hk'', honly'⟩ := h'.sessions k session' hk'
      exact ⟨session'', hk'', honly.trans honly'⟩

section Later

variable {db db' : Database} {session : ManafontGameSession}

theorem Later.exists_session (h : Later db db') (hs : session ∈ db.sessions) :
    ∃ session' ∈ db'.sessions, OnlyRevoked session session' := by
  obtain ⟨k, hk⟩ := List.getElem?_of_mem hs
  obtain ⟨session', hk', honly⟩ := h.sessions k session hk
  exact ⟨session', List.mem_of_getElem? hk', honly⟩

theorem Later.token_of_valid (h : Later db db') {backend : Backend} {id : DotNetString}
    {token : OpenIddictToken} (htoken : db'.tokens id = some token)
    (hvalid : backend.hasStatus token Statuses.valid = true) : db.tokens id = some token := by
  rcases h.tokens id with hsame | ⟨row, -, hrevoked⟩
  · rw [← hsame]
    exact htoken
  · rw [hrevoked] at htoken
    cases htoken
    rw [backend.hasStatus_revoked row] at hvalid
    cases hvalid

theorem later_revoke {token : OpenIddictToken} (h : db.tokens token.id = some token) :
    Later db (db.revoke token) := by
  refine ⟨rfl, fun id => ?_, fun k session hk => ⟨session, hk, .inl rfl⟩⟩
  by_cases hid : id = token.id
  · subst hid
    exact .inr ⟨token, h, Database.revoke_tokens_self token db⟩
  · exact .inl (Database.revoke_tokens_of_ne hid db)

/-! ### One commit -/

theorem sessionIds_commit (changes : Changes) (db : Database) :
    sessionIds (db.commit changes) = sessionIds db ++ changes.added.map (·.id) := by
  rw [sessionIds, Database.commit_sessions, List.map_append, List.map_map]
  congr 1
  exact List.map_congr_left fun session _ => changes.rewrite_id session

/-- What is written over a stored session is the session itself, revoked. -/
def Revises (changes : Changes) (db : Database) : Prop :=
  ∀ session ∈ changes.modified, ∃ row ∈ db.sessions, session = { row with status := .revoked }

/-- Sessions that were stored once are still there to be revoked. -/
theorem revises_pendingChanges {guid : DotNetString} {user : ManafontUser}
    {sessions : List ManafontGameSession} (hloaded : ∀ session ∈ sessions, session ∈ db.sessions)
    (hlater : Later db db') : Revises (pendingChanges guid user sessions) db' := by
  intro session hs
  obtain ⟨loaded, hmem, rfl⟩ := List.mem_map.mp hs
  obtain ⟨row, hrow, honly⟩ := hlater.exists_session (hloaded loaded hmem)
  exact ⟨row, hrow, honly.revoke_eq⟩

/-- **A row after such a commit** is as it was or revoked, when no two rows have one key. -/
theorem onlyRevoked_rewrite {changes : Changes} (hrevises : Revises changes db)
    (hnodup : (sessionIds db).Nodup) (hs : session ∈ db.sessions) :
    OnlyRevoked session (changes.rewrite session) := by
  rcases changes.rewrite_eq_or session with ⟨hsame, -⟩ | hmem
  · exact .inl hsame
  · obtain ⟨row, hrow, heq⟩ := hrevises _ hmem
    have hid : row.id = session.id := by
      rw [← changes.rewrite_id session, heq]
    obtain rfl : row = session := List.inj_on_of_nodup_map hnodup hrow hs hid
    exact .inr heq

theorem later_commit {changes : Changes} (hrevises : Revises changes db)
    (hnodup : (sessionIds db).Nodup) : Later db (db.commit changes) := by
  refine ⟨rfl, fun _ => .inl rfl, fun k session hk => ⟨changes.rewrite session, ?_, ?_⟩⟩
  · have hlt := (List.getElem?_eq_some_iff.mp hk).1
    rw [Database.commit_sessions, List.getElem?_append_left (by rwa [List.length_map]),
      List.getElem?_map, hk]
    rfl
  · exact onlyRevoked_rewrite hrevises hnodup (List.mem_of_getElem? hk)

end Later

/-! ### One call -/

section Calls

variable {ι : Type} (backend : Backend) (tickets : ι → Option DotNetString)
  (guids : ι → DotNetString)

/-- The session was made with the ticket of a call: the id of a valid token of its user. -/
def Issued (db : Database) (session : ManafontGameSession) : Prop :=
  ∃ i token, session.id = guids i ∧ tickets i = some token.id ∧ db.tokens token.id = some token ∧
    backend.hasStatus token Statuses.valid = true ∧ token.subject = some session.user ∧
    db.users session.user = true

/-- The invariant: the tables have moved forward from `db₀`, no two sessions have one key, and the
added ones were issued. -/
structure Grown (db₀ db : Database) : Prop where
  later : Later db₀ db
  nodup : (sessionIds db).Nodup
  issued : ∀ (k : Nat) (session : ManafontGameSession), db₀.sessions.length ≤ k →
    db.sessions[k]? = some session → Issued backend tickets guids db₀ session

/-- What a call relies on: the others do not use its key. -/
structure LeavesKey (guid : DotNetString) (db db' : Database) : Prop where
  later : Later db db'
  unused : guid ∉ sessionIds db → guid ∉ sessionIds db'

/-- What a call guarantees: it adds no key but its own. -/
structure AddsKey (guid : DotNetString) (db db' : Database) : Prop where
  later : Later db db'
  added : ∀ id ∈ sessionIds db', id ∈ sessionIds db ∨ id = guid

/-- A call that returns has its session stored, though it may be revoked by now. -/
def EndsIssued (guid : DotNetString) : Except Exn ManafontGameSession → Database → Prop
  | .ok session, db => session.id = guid ∧ ∃ row ∈ db.sessions, OnlyRevoked session row
  | .error _, _ => True

instance (guid : DotNetString) : Std.Refl (LeavesKey guid) where
  refl db := ⟨Std.Refl.refl db, fun h => h⟩

instance (guid : DotNetString) : IsTrans Database (LeavesKey guid) where
  trans _ _ _ h h' := ⟨IsTrans.trans _ _ _ h.later h'.later, fun hid => h'.unused (h.unused hid)⟩

instance (guid : DotNetString) : Std.Refl (AddsKey guid) where
  refl db := ⟨Std.Refl.refl db, fun _ h => .inl h⟩

variable {backend tickets guids} {db₀ db db' : Database}

theorem AddsKey.leavesKey {guid guid' : DotNetString} (h : AddsKey guid db db')
    (hne : guid' ≠ guid) : LeavesKey guid' db db' :=
  ⟨h.later, fun hid hid' => (h.added guid' hid').elim hid hne⟩

theorem EndsIssued.mono {guid : DotNetString} {r : Except Exn ManafontGameSession}
    (hlater : Later db db') (h : EndsIssued guid r db) : EndsIssued guid r db' := by
  cases r with
  | error e => trivial
  | ok session =>
    obtain ⟨hid, row, hrow, honly⟩ := h
    obtain ⟨row', hrow', honly'⟩ := hlater.exists_session hrow
    exact ⟨hid, row', hrow', honly.trans honly'⟩

theorem Issued.of_onlyRevoked {session session' : ManafontGameSession}
    (h : Issued backend tickets guids db session) (honly : OnlyRevoked session session') :
    Issued backend tickets guids db session' := by
  rw [Issued, honly.id_eq, honly.user_eq]
  exact h

theorem FreshGuids.not_mem (h : FreshGuids guids db) (i : ι) : guids i ∉ sessionIds db := by
  intro hmem
  obtain ⟨session, hs, hid⟩ := List.mem_map.mp hmem
  exact h.fresh i session hs hid

theorem grown_of_nodup (h : (sessionIds db).Nodup) : Grown backend tickets guids db db := by
  refine ⟨Std.Refl.refl db, h, fun k session hk hsession => ?_⟩
  rw [List.getElem?_eq_none hk] at hsession
  cases hsession

theorem Grown.revoke {token : OpenIddictToken} (h : Grown backend tickets guids db₀ db)
    (htoken : db.tokens token.id = some token) :
    Grown backend tickets guids db₀ (db.revoke token) :=
  ⟨IsTrans.trans _ _ _ h.later (later_revoke htoken), h.nodup, h.issued⟩

theorem Grown.commit {changes : Changes} {added : ManafontGameSession}
    (h : Grown backend tickets guids db₀ db) (hrevises : Revises changes db)
    (hadded : changes.added = [added]) (hunused : added.id ∉ sessionIds db)
    (hissued : Issued backend tickets guids db₀ added) :
    Grown backend tickets guids db₀ (db.commit changes) := by
  refine ⟨IsTrans.trans _ _ _ h.later (later_commit hrevises h.nodup), ?_,
    fun k session hk hs => ?_⟩
  · rw [sessionIds_commit, hadded, List.map_singleton]
    exact h.nodup.append (List.nodup_singleton _) (List.disjoint_singleton.mpr hunused)
  · rw [Database.commit_sessions, hadded] at hs
    by_cases hlt : k < db.sessions.length
    · rw [List.getElem?_append_left (by rwa [List.length_map]), List.getElem?_map] at hs
      obtain ⟨row, hrow, rfl⟩ := Option.map_eq_some_iff.mp hs
      exact (h.issued k row hk hrow).of_onlyRevoked
        (onlyRevoked_rewrite hrevises h.nodup (List.mem_of_getElem? hrow))
    · rw [List.getElem?_append_right (by rw [List.length_map]; omega)] at hs
      rwa [List.mem_singleton.mp (List.mem_of_getElem? hs)]

theorem addsKey_commit {changes : Changes} {added : ManafontGameSession}
    (hrevises : Revises changes db) (hnodup : (sessionIds db).Nodup)
    (hadded : changes.added = [added]) : AddsKey added.id db (db.commit changes) := by
  refine ⟨later_commit hrevises hnodup, fun id hid => ?_⟩
  rw [sessionIds_commit, hadded] at hid
  exact (List.mem_append.mp hid).imp_right List.mem_singleton.mp

/-- What `redeem` needs of the store, as long as the others leave its key alone. -/
structure Redeems (backend : Backend) (tickets : ι → Option DotNetString)
    (guids : ι → DotNetString) (db₀ : Database) (i : ι) (changes : Changes) (db : Database) :
    Prop where
  grown : Grown backend tickets guids db₀ db
  revises : Revises changes db
  unused : guids i ∉ sessionIds db

section Verified

variable {I : Database → Prop} {i : ι} {token : OpenIddictToken} {user : ManafontUser}
  {sessions : List ManafontGameSession} {t : Database}

theorem Verified.redeems {t' : Database} (hstored : backend.LoadsStored)
    (h : Verified backend I (LeavesKey (guids i)) (tickets i) token user sessions db t)
    (hunused : guids i ∉ sessionIds db) (hR : LeavesKey (guids i) t t')
    (hI : Grown backend tickets guids db₀ t') :
    Redeems backend tickets guids db₀ i (pendingChanges (guids i) user sessions) t' := by
  obtain ⟨t₁, -, -, -, hloaded, hR₁⟩ := h.loaded
  refine ⟨hI, ?_, hR.unused (h.rely.unused hunused)⟩
  exact revises_pendingChanges (fun session hs => (hstored _ _ _ hloaded session hs).1)
    (IsTrans.trans _ _ _ hR₁.later hR.later)

theorem Verified.issued {R : Database → Database → Prop}
    (h : Verified backend I R (tickets i) token user sessions db t)
    (hgrown : ∀ s, I s → Grown backend tickets guids db₀ s) :
    Issued backend tickets guids db₀ (newSession (guids i) user) := by
  obtain ⟨t₀, -, hI₀, htoken, -⟩ := h.found
  obtain ⟨t₁, -, hI₁, hexists, -⟩ := h.loaded
  refine ⟨i, token, rfl, h.ticket_eq, (hgrown t₀ hI₀).later.token_of_valid htoken h.valid, h.valid,
    h.subject, ?_⟩
  rw [← (hgrown t₁ hI₁).later.users]
  exact hexists

end Verified

/-- **`redeem` among other calls**: it stores its session, under a key that is not used. -/
theorem keeps_redeem_grown {i : ι} {token : OpenIddictToken} {user : ManafontUser}
    {sessions : List ManafontGameSession} {t : Database} (hstored : backend.LoadsStored)
    (h : Verified backend (Grown backend tickets guids db₀) (LeavesKey (guids i)) (tickets i) token
      user sessions db t) (hunused : guids i ∉ sessionIds db) :
    Keeps (perform backend) (fun _ _ _ => True) (Grown backend tickets guids db₀)
      (LeavesKey (guids i)) (AddsKey (guids i)) (EndsIssued (guids i))
      (redeem token (pendingChanges (guids i) user sessions) (newSession (guids i) user)) t := by
  have hmem : ∀ s : Database, newSession (guids i) user ∈
      (s.commit (pendingChanges (guids i) user sessions)).sessions :=
    fun s => List.mem_append_right _ (List.mem_singleton_self _)
  refine keeps_redeem (fun _ _ => trivial) ?_ ?_
  · intro t₁ hR₁ hI₁ _ htoken
    have hredeems := h.redeems hstored hunused hR₁ hI₁
    have hcommit := addsKey_commit hredeems.revises hI₁.nodup rfl
    have hgrown := hI₁.commit hredeems.revises rfl hredeems.unused (h.issued fun _ hs => hs)
    refine ⟨hgrown.revoke htoken,
      ⟨IsTrans.trans _ _ _ hcommit.later (later_revoke htoken), hcommit.added⟩, ?_⟩
    exact fun t₂ hR₂ _ => ⟨rfl, hR₂.later.exists_session (hmem t₁)⟩
  · intro t₁ hR₁ hI₁ _
    have hredeems := h.redeems hstored hunused hR₁ hI₁
    exact ⟨hI₁.commit hredeems.revises rfl hredeems.unused (h.issued fun _ hs => hs),
      addsKey_commit hredeems.revises hI₁.nodup rfl, rfl, _, hmem t₁, .inl rfl⟩

/-- **A call among others**, whatever becomes of each of its operations. -/
theorem keeps_call {i : ι} (hstored : backend.LoadsStored) (hunused : guids i ∉ sessionIds db) :
    Keeps (perform backend) (fun _ _ _ => True) (Grown backend tickets guids db₀)
      (LeavesKey (guids i)) (AddsKey (guids i)) (EndsIssued (guids i))
      (verifyCreateSessionAsync (guids i) (tickets i)) db :=
  keeps_verifyCreateSessionAsync (fun _ _ => trivial)
    fun _ _ _ _ h => keeps_redeem_grown hstored h hunused

end Calls

/-! ### Runs -/

section Runs

variable {ι : Type} [DecidableEq ι] {backend : Backend} {tickets : ι → Option DotNetString}
  {guids : ι → DotNetString} {db : Database}

variable (tickets) in
/-- The invariant and what is left of each call, at any point of a run. -/
theorem grown_of_run (hstored : backend.LoadsStored) (hfresh : FreshGuids guids db)
    (hnodup : (sessionIds db).Nodup) (schedule : List (ι × Option Exn)) :
    Grown backend tickets guids db ((calls tickets guids db).run (perform backend) schedule).store ∧
      ∀ i, Keeps (perform backend) (fun _ _ _ => True) (Grown backend tickets guids db)
        (LeavesKey (guids i)) (AddsKey (guids i)) (EndsIssued (guids i))
        (((calls tickets guids db).run (perform backend) schedule).method i)
        ((calls tickets guids db).run (perform backend) schedule).store :=
  Pool.run_keeps (fun _ _ _ _ hij h => h.leavesKey fun heq => hij (hfresh.injective heq).symm)
    (fun _ _ _ _ hR _ h => h.mono hR.later) schedule (grown_of_nodup hnodup)
    (fun i => keeps_call hstored (hfresh.not_mem i))
    (Pool.meets_of_forall (fun _ _ _ => trivial) _ _)

/-- **The tables only move forward**, from any point of any run to any later one, and no two
sessions have one key. -/
theorem later_of_run (backend : Backend) (hstored : backend.LoadsStored)
    (tickets : ι → Option DotNetString) (guids : ι → DotNetString) (db : Database)
    (hfresh : FreshGuids guids db) (hnodup : (sessionIds db).Nodup)
    (schedule schedule' : List (ι × Option Exn)) :
    Later ((calls tickets guids db).run (perform backend) schedule).store
        ((calls tickets guids db).run (perform backend) (schedule ++ schedule')).store ∧
      (sessionIds ((calls tickets guids db).run (perform backend)
        (schedule ++ schedule')).store).Nodup := by
  refine ⟨?_, (grown_of_run tickets hstored hfresh hnodup (schedule ++ schedule')).1.nodup⟩
  obtain ⟨hgrown, hkeeps⟩ := grown_of_run tickets hstored hfresh hnodup schedule
  rw [Pool.run_append]
  exact Pool.run_moves (fun _ _ _ _ hij h => h.leavesKey fun heq => hij (hfresh.injective heq).symm)
    (fun _ _ _ _ hR _ h => h.mono hR.later) (fun _ _ _ h => h.later) schedule' hgrown hkeeps
    (Pool.meets_of_forall (fun _ _ _ => trivial) _ _)

/-- Sessions are there only for those who had a ticket. -/
structure IssuedOnly (backend : Backend) (tickets : ι → Option DotNetString)
    (guids : ι → DotNetString) (db : Database)
    (pool : Pool storage Exn ManafontGameSession ι Database) : Prop where
  /-- A session that was not stored before was made for the user of a valid ticket. -/
  stored : ∀ session ∈ pool.store.sessions, session.id ∉ sessionIds db →
    Issued backend tickets guids db session
  /-- A session that was returned is stored, as it is or revoked. -/
  returned : ∀ i session, pool.method i = .done (.ok session) →
    session.id = guids i ∧ ∃ row ∈ pool.store.sessions, OnlyRevoked session row

/-- **Nobody gets a session for another user's ticket**, in any run. -/
theorem issued_of_run (backend : Backend) (hstored : backend.LoadsStored)
    (tickets : ι → Option DotNetString) (guids : ι → DotNetString) (db : Database)
    (hfresh : FreshGuids guids db) (hnodup : (sessionIds db).Nodup)
    (schedule : List (ι × Option Exn)) :
    IssuedOnly backend tickets guids db
      ((calls tickets guids db).run (perform backend) schedule) := by
  obtain ⟨hgrown, hkeeps⟩ := grown_of_run tickets hstored hfresh hnodup schedule
  refine ⟨fun session hs hid => ?_, fun i session hi => Keeps.of_done hi (hkeeps i)⟩
  obtain ⟨k, hk⟩ := List.getElem?_of_mem hs
  refine hgrown.issued k session (Nat.le_of_not_lt fun hlt => hid ?_) hk
  obtain ⟨row, hrow, honly⟩ := hgrown.later.sessions k _ (List.getElem?_eq_getElem hlt)
  rw [hk] at hrow
  cases hrow
  rw [honly.id_eq]
  exact List.mem_map_of_mem (List.getElem_mem hlt)

/-- **Calls of which none comes to `redeem`** leave the tables as they are, and none returns. -/
theorem idle_of_run (hnever : ∀ i token user sessions t,
      ¬ Verified backend (· = db) Eq (tickets i) token user sessions db t)
    (schedule : List (ι × Option Exn)) :
    ((calls tickets guids db).run (perform backend) schedule).store = db ∧
      ∀ i, ¬ Returned ((calls tickets guids db).run (perform backend) schedule) i := by
  have hcall : ∀ i, Keeps (perform backend) (fun _ _ _ => True) (· = db) Eq Eq
      (fun r _ => ∀ session, r ≠ .ok session) ((calls tickets guids db).method i)
      (calls tickets guids db).store :=
    fun i => keeps_verifyCreateSessionAsync (fun _ _ _ h => by cases h)
      fun token user sessions t h => absurd h (hnever i token user sessions t)
  have hstart : (fun t => t = db) (calls tickets guids db).store := rfl
  have hothers : ∀ i j : ι, ∀ s s' : Database, i ≠ j → s = s' → s = s' := fun _ _ _ _ _ h => h
  obtain ⟨hstore, hends⟩ := Pool.run_keeps hothers (fun _ _ _ _ _ _ h => h) schedule hstart hcall
    (Pool.meets_of_forall (fun _ _ _ => trivial) _ _)
  refine ⟨hstore, ?_⟩
  rintro i ⟨session, hi⟩
  exact Keeps.of_done hi (hends i) session rfl

/-- **As the context is configured nothing ever happens**: where `FindAsync` leaves `GameSessions`
null, no run changes the database, and no call returns. -/
theorem unloaded_of_run (backend : Backend) (hunloaded : backend.LeavesUnloaded)
    (tickets : ι → Option DotNetString) (guids : ι → DotNetString) (db : Database)
    (schedule : List (ι × Option Exn)) :
    ((calls tickets guids db).run (perform backend) schedule).store = db ∧
      ∀ i, ¬ Returned ((calls tickets guids db).run (perform backend) schedule) i := by
  refine idle_of_run ?_ schedule
  intro i token user sessions t h
  obtain ⟨t', -, -, -, hloaded, -⟩ := h.loaded
  rw [hunloaded t' user.id] at hloaded
  cases hloaded

end Runs

/-! ### The race again -/

/-- The theorem on the two calls with one ticket: the second moves the tables on from where the
first has left them. -/
theorem race_later :
    Later (race.run (perform .loading) (raceSchedule.take 8)).store
        (race.run (perform .loading) (raceSchedule.take 8 ++ raceSchedule.drop 8)).store ∧
      (sessionIds (race.run (perform .loading)
        (raceSchedule.take 8 ++ raceSchedule.drop 8)).store).Nodup := by
  have hlater := later_of_run .loading Backend.loading_loadsSessions.loadsStored
    (fun _ => some [0x74]) (fun i => if i then [0x31] else [0x30]) (.issued [0x75] [[0x74]])
    race_freshGuids List.nodup_nil (raceSchedule.take 8) (raceSchedule.drop 8)
  exact hlater

/-- The theorem on them: both sessions belong to the user of the ticket. -/
theorem race_issuedOnly :
    IssuedOnly .loading (fun _ : Bool => some [0x74]) (fun i => if i then [0x31] else [0x30])
      (.issued [0x75] [[0x74]]) (race.run (perform .loading) raceSchedule) := by
  have hissued := issued_of_run .loading Backend.loading_loadsSessions.loadsStored
    (fun _ => some [0x74]) (fun i => if i then [0x31] else [0x30]) (.issued [0x75] [[0x74]])
    race_freshGuids List.nodup_nil raceSchedule
  exact hissued

/-- The theorem on them, where nothing is loaded. -/
theorem race_unloaded :
    (race.run (perform .unloading) raceSchedule).store = .issued [0x75] [[0x74]] ∧
      ∀ i, ¬ Returned (race.run (perform .unloading) raceSchedule) i := by
  have hunloaded := unloaded_of_run .unloading Backend.unloading_leavesUnloaded
    (fun _ : Bool => some [0x74]) (fun i => if i then [0x31] else [0x30]) (.issued [0x75] [[0x74]])
    raceSchedule
  exact hunloaded

end Manafont.Session
