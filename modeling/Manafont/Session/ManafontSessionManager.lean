import Manafont.Library.RelyGuarantee
import Manafont.Db.Model

/-!
# `ManafontSessionManager`

`Manafont.Session/ManafontSessionManager.cs`.  `VerifyCreateSessionAsync` waits for
OpenIddict and EF Core eight times; each is an operation of `StorageOp`, and what lies
between two of them is done in one go.  The changes of the context are passed along.

`perform backend fault op` is what an operation does when the environment chooses
`fault` for it: `none` lets it through and `some e` makes it fail.  `TryRevokeAsync`
answers `false` instead of failing, and also when the row of the token is not the one
that was read; it answers `true` when it has saved the changes of the context with the
status `revoked`.

The method is the checks up to the new session, and then `redeem`: revoke and save.
Among other calls it is safe when `redeem` is (`safe_verifyCreateSessionAsync`).  Alone it is
`redeem` for a ticket that is `Redeemable` (`run_verifyCreateSessionAsync_of_redeemable`), and for
any other it throws and changes nothing (`throws_verifyCreateSessionAsync`).
-/

namespace Manafont.Session

open Db

inductive StorageOp where
  | findById (identifier : Option DotNetString)
  | hasStatus (token : OpenIddictToken) (status : DotNetString)
  | getStatus (token : OpenIddictToken)
  | getSubject (token : OpenIddictToken)
  | findUser (key : DotNetString)
  | addAsync (changes : Changes) (session : ManafontGameSession)
  | tryRevoke (token : OpenIddictToken) (changes : Changes)
  | saveChanges (changes : Changes)

abbrev StorageOp.Answer : StorageOp → Type
  | findById _ => Option OpenIddictToken
  | hasStatus _ _ => Bool
  | getStatus _ => Option DotNetString
  | getSubject _ => Option DotNetString
  | findUser _ => Option ManafontUser
  | addAsync _ _ => Changes
  | tryRevoke _ _ => Bool × Changes
  | saveChanges _ => Changes

abbrev storage : Signature := { Op := StorageOp, Answer := StorageOp.Answer }

abbrev StorageIo := Async storage Exn

def answer (backend : Backend) : (op : StorageOp) → Database → Except Exn op.Answer × Database
  | .findById none, db =>
    (.error (.argument "The identifier cannot be null or empty." "identifier"), db)
  | .findById (some []), db =>
    (.error (.argument "The identifier cannot be null or empty." "identifier"), db)
  | .findById (some (c :: cs)), db => (.ok (db.tokens (c :: cs)), db)
  | .hasStatus token status, db => (.ok (backend.hasStatus token status), db)
  | .getStatus token, db => (.ok token.status, db)
  | .getSubject token, db => (.ok token.subject, db)
  | .findUser key, db =>
    (.ok (if db.users key then some { id := key, gameSessions := backend.gameSessions db key }
      else none), db)
  | .addAsync changes session, db =>
    (.ok { changes with added := changes.added ++ [session] }, db)
  | .tryRevoke token changes, db =>
    if db.tokens token.id = some token then
      (.ok (true, .empty), (db.commit changes).revoke token)
    else (.ok (false, changes), db)
  | .saveChanges changes, db => (.ok .empty, db.commit changes)

def perform (backend : Backend) (fault : Option Exn) (op : StorageOp) (db : Database) :
    Except Exn op.Answer × Database :=
  match fault with
  | none => answer backend op db
  | some e =>
    match op with
    | .tryRevoke _ changes => (.ok (false, changes), db)
    | _ => (.error e, db)

/-- `if (x is null) throw`. -/
def nonNull {α : Type} (e : Exn) : Option α → StorageIo α
  | some a => pure a
  | none => throw e

/-- The loop over `GameSessions`: each becomes `Revoked` and is marked for an update. -/
def revokeSessions (sessions : List ManafontGameSession) : Changes :=
  { modified := sessions.map fun session => { session with status := .revoked }, added := [] }

def newSession (guid : DotNetString) (user : ManafontUser) : ManafontGameSession :=
  { id := guid, user := user.id, characterId := none, status := .valid }

/-- The end of `VerifyCreateSessionAsync`.  The result of `TryRevokeAsync` is not looked at. -/
def redeem (token : OpenIddictToken) (changes : Changes) (session : ManafontGameSession) :
    StorageIo ManafontGameSession := do
  let (_, changes) ← Async.perform (S := storage) (.tryRevoke token changes)
  let _ ← Async.perform (S := storage) (.saveChanges changes)
  return session

/-- `VerifyCreateSessionAsync`.  `guid` is what `Guid.NewGuid` gives. -/
def verifyCreateSessionAsync (guid : DotNetString) (ticket : Option DotNetString) :
    StorageIo ManafontGameSession := do
  let name := (ticket.getD []).text
  let token ← Async.perform (S := storage) (.findById ticket)
  let token ← nonNull (.security s!"Token {name} is null!]") token
  let valid ← Async.perform (S := storage) (.hasStatus token Statuses.valid)
  if !valid then
    let status ← Async.perform (S := storage) (.getStatus token)
    let status := (status.getD []).text
    throw (.security s!"Token {name} is invalid: {status}")
  let subject ← Async.perform (S := storage) (.getSubject token)
  let subject ← nonNull (.security s!"Token {name} has null subject!") subject
  let manafontUser ← Async.perform (S := storage) (.findUser subject)
  let manafontUser ← nonNull (.security s!"Token {name} returned null user!") manafontUser
  let gameSessions ← nonNull (.argumentNull "source") manafontUser.gameSessions
  let changes := if gameSessions.isEmpty then .empty else revokeSessions gameSessions
  let session := newSession guid manafontUser
  let changes ← Async.perform (S := storage) (.addAsync changes session)
  redeem token changes session

def pendingChanges (guid : DotNetString) (user : ManafontUser)
    (sessions : List ManafontGameSession) : Changes :=
  { modified := (revokeSessions sessions).modified, added := [newSession guid user] }

/-- The loop is skipped for a user without sessions, which makes no difference. -/
theorem addAsync_pendingChanges (guid : DotNetString) (user : ManafontUser)
    (sessions : List ManafontGameSession) :
    let changes := if sessions.isEmpty then .empty else revokeSessions sessions
    { changes with added := changes.added ++ [newSession guid user] } =
      pendingChanges guid user sessions := by
  cases sessions <;> rfl

/-! ### The operations -/

section Operations

variable {backend : Backend} {db : Database}

def StorageOp.writes : StorageOp → Bool
  | tryRevoke _ _ => true
  | saveChanges _ => true
  | _ => false

theorem answer_of_read {op : StorageOp} (h : op.writes = false) : (answer backend op db).2 = db := by
  cases op with
  | findById identifier => rcases identifier with _ | ⟨_ | ⟨c, cs⟩⟩ <;> rfl
  | tryRevoke token changes => cases h
  | saveChanges changes => cases h
  | _ => rfl

/-- **Six of the eight operations leave the database as it is.** -/
theorem perform_of_read {op : StorageOp} (h : op.writes = false) (fault : Option Exn) :
    (perform backend fault op db).2 = db := by
  cases fault with
  | none => exact answer_of_read h
  | some e => cases op <;> rfl

theorem answer_of_perform {op : StorageOp} {fault : Option Exn} {a : op.Answer}
    (hop : op.writes = false) (h : (perform backend fault op db).1 = .ok a) :
    (answer backend op db).1 = .ok a := by
  cases fault with
  | none => exact h
  | some e =>
    cases op with
    | tryRevoke token changes => cases hop
    | saveChanges changes => cases hop
    | _ => cases h

theorem answer_findById {ticket : Option DotNetString} {token : OpenIddictToken}
    (h : (answer backend (.findById ticket) db).1 = .ok (some token)) :
    ticket = some token.id ∧ db.tokens token.id = some token := by
  rcases ticket with _ | ⟨_ | ⟨c, cs⟩⟩
  · cases h
  · cases h
  · have ht : db.tokens (c :: cs) = some token := Except.ok.inj h
    have hid := db.tokens_id _ _ ht
    rw [hid]
    exact ⟨rfl, ht⟩

theorem id_ne_of_answer_findById {ticket : Option DotNetString} {token : OpenIddictToken}
    (h : (answer backend (.findById ticket) db).1 = .ok (some token)) : token.id ≠ [] := by
  rcases ticket with _ | ⟨_ | ⟨c, cs⟩⟩
  · cases h
  · cases h
  · rw [db.tokens_id _ _ (Except.ok.inj h)]
    exact List.cons_ne_nil c cs

theorem answer_findUser {key : DotNetString} {user : ManafontUser}
    (h : (answer backend (.findUser key) db).1 = .ok (some user)) :
    db.users key = true ∧ user = { id := key, gameSessions := backend.gameSessions db key } := by
  by_cases hexists : db.users key = true
  · have hfound := h
    rw [answer, if_pos hexists] at hfound
    exact ⟨hexists, (Option.some.inj (Except.ok.inj hfound)).symm⟩
  · rw [answer, if_neg hexists] at h
    cases h

theorem answer_findUser_of_exists {key : DotNetString} (h : db.users key = true) :
    answer backend (.findUser key) db =
      (.ok (some { id := key, gameSessions := backend.gameSessions db key }), db) :=
  congrArg (fun found => (Except.ok found, db)) (if_pos h)

theorem answer_findUser_of_not_exists {key : DotNetString} (h : ¬ db.users key = true) :
    answer backend (.findUser key) db = (.ok none, db) :=
  congrArg (fun found => (Except.ok found, db)) (if_neg h)

theorem perform_tryRevoke_of_unchanged {token : OpenIddictToken} (changes : Changes)
    (h : db.tokens token.id = some token) :
    perform backend none (.tryRevoke token changes) db =
      (.ok (true, .empty), (db.commit changes).revoke token) := if_pos h

theorem perform_tryRevoke_of_lost {token : OpenIddictToken} {fault : Option Exn}
    (changes : Changes) (h : ¬ (fault = none ∧ db.tokens token.id = some token)) :
    perform backend fault (.tryRevoke token changes) db = (.ok (false, changes), db) := by
  cases fault with
  | none => exact if_neg fun ht => h ⟨rfl, ht⟩
  | some e => rfl

theorem perform_saveChanges (changes : Changes) :
    perform backend none (.saveChanges changes) db = (.ok .empty, db.commit changes) := rfl

end Operations

/-! ### A call among others -/

/-- What a call knows when it comes to `redeem`, on a store `t` that it and the others have led to
from `db`: the token and the sessions of the user are those it found on the way. -/
structure Verified (backend : Backend) (I : Database → Prop) (R : Database → Database → Prop)
    (ticket : Option DotNetString) (token : OpenIddictToken) (user : ManafontUser)
    (sessions : List ManafontGameSession) (db t : Database) : Prop where
  ticket_eq : ticket = some token.id
  id_ne : token.id ≠ []
  found : ∃ t', R db t' ∧ I t' ∧ t'.tokens token.id = some token ∧ R t' t
  valid : backend.hasStatus token Statuses.valid = true
  subject : token.subject = some user.id
  loaded : ∃ t', R db t' ∧ I t' ∧ t'.users user.id = true ∧
    backend.gameSessions t' user.id = some sessions ∧ R t' t
  rely : R db t
  inv : I t

section Among

open Async

variable {backend : Backend} {C : Option Exn → StorageOp → Database → Prop} {I : Database → Prop}
  {R G : Database → Database → Prop} {Q : Except Exn ManafontGameSession → Database → Prop}

/-- **A call is what its `redeem` is**, with a token and sessions it has found. -/
theorem keeps_verifyCreateSessionAsync [IsTrans Database R] [Std.Refl G] {guid : DotNetString}
    {ticket : Option DotNetString} {db : Database} (hthrow : ∀ e t, Q (.error e) t)
    (hredeem : ∀ token user sessions t, Verified backend I R ticket token user sessions db t →
      Keeps (perform backend) C I R G Q
        (redeem token (pendingChanges guid user sessions) (newSession guid user)) t) :
    Keeps (perform backend) C I R G Q (verifyCreateSessionAsync guid ticket) db := by
  have htrans : ∀ {s t u : Database}, R s t → R t u → R s u := IsTrans.trans _ _ _
  rw [verifyCreateSessionAsync]
  refine Keeps.read_bind (fun f t => perform_of_read rfl f) ?_ fun t e _ _ => hthrow e t
  intro t₁ hR₁ hI₁ f₁ found _ hfind
  cases found with
  | none => exact Keeps.throw (hthrow _ _)
  | some token =>
    obtain ⟨hticket, hstored⟩ := answer_findById (answer_of_perform rfl hfind)
    have hne := id_ne_of_answer_findById (answer_of_perform rfl hfind)
    refine Keeps.read_bind (fun f t => perform_of_read rfl f) ?_ fun t e _ _ => hthrow e t
    intro t₂ hR₂ _ f₂ valid _ hvalid
    have hstatus := Except.ok.inj (answer_of_perform rfl hvalid)
    cases valid with
    | false =>
      refine Keeps.read_bind (fun f t => perform_of_read rfl f) ?_ fun t e _ _ => hthrow e t
      intro t₃ _ _ f₃ status _ _
      exact Keeps.throw (hthrow _ _)
    | true =>
      refine Keeps.read_bind (fun f t => perform_of_read rfl f) ?_ fun t e _ _ => hthrow e t
      intro t₃ hR₃ _ f₃ subject _ hget
      have hsubject : token.subject = subject := Except.ok.inj (answer_of_perform rfl hget)
      cases subject with
      | none => exact Keeps.throw (hthrow _ _)
      | some subject =>
        refine Keeps.read_bind (fun f t => perform_of_read rfl f) ?_ fun t e _ _ => hthrow e t
        intro t₄ hR₄ hI₄ f₄ found _ huser
        cases found with
        | none => exact Keeps.throw (hthrow _ _)
        | some user =>
          obtain ⟨hexists, rfl⟩ := answer_findUser (answer_of_perform rfl huser)
          rcases hloaded : backend.gameSessions t₄ subject with _ | sessions
          · exact Keeps.throw (hthrow _ _)
          · refine Keeps.read_bind (fun f t => perform_of_read rfl f) ?_ fun t e _ _ => hthrow e t
            intro t₅ hR₅ hI₅ f₅ changes _ hadd
            have hchanges := Except.ok.inj (answer_of_perform rfl hadd)
            rw [addAsync_pendingChanges] at hchanges
            rw [← hchanges]
            have hR₁₅ := htrans hR₂ (htrans hR₃ (htrans hR₄ hR₅))
            have hR₀₄ := htrans hR₁ (htrans hR₂ (htrans hR₃ hR₄))
            exact hredeem token _ sessions t₅ {
              ticket_eq := hticket, id_ne := hne, valid := hstatus, subject := hsubject
              found := ⟨t₁, hR₁, hI₁, hstored, hR₁₅⟩
              loaded := ⟨t₄, hR₀₄, hI₄, hexists, hloaded, hR₅⟩
              rely := htrans hR₁ hR₁₅, inv := hI₅ }

/-- **`redeem` is its two save points**: the one that revokes the token, and the one that saves
what the first has not. -/
theorem keeps_redeem [IsTrans Database R] [Std.Refl G] {token : OpenIddictToken}
    {changes : Changes} {session : ManafontGameSession} {db : Database}
    (hthrow : ∀ e t, Q (.error e) t)
    (hrevoke : ∀ t, R db t → I t → C none (.tryRevoke token changes) t →
      t.tokens token.id = some token → I ((t.commit changes).revoke token) ∧
        G t ((t.commit changes).revoke token) ∧
        ∀ t', R ((t.commit changes).revoke token) t' → I t' → Q (.ok session) t')
    (hsave : ∀ t, R db t → I t → C none (.saveChanges changes) t → I (t.commit changes) ∧
      G t (t.commit changes) ∧ Q (.ok session) (t.commit changes)) :
    Keeps (perform backend) C I R G Q (redeem token changes session) db := by
  rw [redeem]
  refine Keeps.perform_bind fun t hR hI f hC => ?_
  by_cases hwon : f = none ∧ t.tokens token.id = some token
  · -- the compare-and-set is won, and nothing is left for `SaveChangesAsync`
    obtain ⟨rfl, htoken⟩ := hwon
    obtain ⟨hI', hG', hend⟩ := hrevoke t hR hI hC htoken
    rw [perform_tryRevoke_of_unchanged _ htoken]
    refine ⟨hI', hG', ?_⟩
    refine Keeps.perform_bind fun t' hR' hI' f' _ => ?_
    cases f' with
    | some e => exact ⟨hI', Std.Refl.refl t', hthrow e t'⟩
    | none =>
      rw [perform_saveChanges, Database.commit_empty]
      exact ⟨hI', Std.Refl.refl t', hend t' hR' hI'⟩
  · -- it is lost, and `SaveChangesAsync` has the session left to save
    rw [perform_tryRevoke_of_lost _ hwon]
    refine ⟨hI, Std.Refl.refl t, ?_⟩
    refine Keeps.perform_bind fun t' hR' hI' f' hC' => ?_
    cases f' with
    | some e => exact ⟨hI', Std.Refl.refl t', hthrow e t'⟩
    | none => exact hsave t' (IsTrans.trans _ _ _ hR hR') hI' hC'

/-- **A call is safe when `redeem` is**, for a valid token with the id of the ticket. -/
theorem safe_verifyCreateSessionAsync [Std.Refl R] [IsTrans Database R] {guid : DotNetString}
    {ticket : Option DotNetString} {db : Database} (hthrow : ∀ e t, Q (.error e) t)
    (hredeem : ∀ token user sessions t, ticket = some token.id →
      backend.hasStatus token Statuses.valid = true →
      Safe (perform backend) C I R Q
        (redeem token (pendingChanges guid user sessions) (newSession guid user)) t) :
    Safe (perform backend) C I R Q (verifyCreateSessionAsync guid ticket) db := by
  rw [safe_iff_keeps]
  refine keeps_verifyCreateSessionAsync hthrow fun token user sessions t h => ?_
  rw [← safe_iff_keeps]
  exact hredeem token user sessions t h.ticket_eq h.valid

end Among

/-! ### A call alone -/

/-- The places where `VerifyCreateSessionAsync` waits.  A call comes by each at most once. -/
inductive Await where
  | findById
  | hasStatus
  | getStatus
  | getSubject
  | findUser
  | addAsync
  | tryRevoke
  | saveChanges
  deriving DecidableEq, Repr

def StorageOp.await : StorageOp → Await
  | findById _ => .findById
  | hasStatus _ _ => .hasStatus
  | getStatus _ => .getStatus
  | getSubject _ => .getSubject
  | findUser _ => .findUser
  | addAsync _ _ => .addAsync
  | tryRevoke _ _ => .tryRevoke
  | saveChanges _ => .saveChanges

section Alone

open Async

variable (backend : Backend) (faults : Await → Option Exn)

def performAlone (op : StorageOp) (db : Database) : Except Exn op.Answer × Database :=
  perform backend (faults op.await) op db

/-- The call comes to `redeem`: the ticket is the id of a valid token of an existing user,
and no await before it fails. -/
structure Redeemable (db : Database) (ticket : Option DotNetString) (token : OpenIddictToken)
    (user : ManafontUser) (sessions : List ManafontGameSession) : Prop where
  ticket_eq : ticket = some token.id
  id_ne : token.id ≠ []
  stored : db.tokens token.id = some token
  valid : backend.hasStatus token Statuses.valid = true
  subject : token.subject = some user.id
  user_exists : db.users user.id = true
  loaded : user.gameSessions = backend.gameSessions db user.id
  sessions_eq : user.gameSessions = some sessions
  findById : faults .findById = none
  hasStatus : faults .hasStatus = none
  getSubject : faults .getSubject = none
  findUser : faults .findUser = none
  addAsync : faults .addAsync = none

variable {backend faults} {db : Database} {ticket : Option DotNetString}

theorem performAlone_of_none {op : StorageOp} (h : faults op.await = none) :
    performAlone backend faults op db = answer backend op db := by
  rw [performAlone, h]
  rfl

theorem performAlone_of_some {op : StorageOp} {e : Exn} (h : faults op.await = some e)
    (hop : ∀ token changes, op ≠ .tryRevoke token changes) :
    performAlone backend faults op db = (.error e, db) := by
  rw [performAlone, h]
  cases op with
  | tryRevoke token changes => exact absurd rfl (hop token changes)
  | _ => rfl

theorem run_verifyCreateSessionAsync_of_redeemable {guid : DotNetString} {token : OpenIddictToken}
    {user : ManafontUser} {sessions : List ManafontGameSession}
    (h : Redeemable backend faults db ticket token user sessions) :
    run (performAlone backend faults) (verifyCreateSessionAsync guid ticket) db =
      run (performAlone backend faults)
        (redeem token (pendingChanges guid user sessions) (newSession guid user)) db := by
  have hfind : performAlone backend faults (.findById ticket) db = (.ok (some token), db) := by
    rw [performAlone_of_none h.findById, h.ticket_eq, ← h.stored]
    obtain ⟨c, cs, hid⟩ := List.exists_cons_of_ne_nil h.id_ne
    rw [hid]
    rfl
  have hstatus : performAlone backend faults (.hasStatus token Statuses.valid) db =
      (.ok true, db) := by
    rw [performAlone_of_none h.hasStatus, answer, h.valid]
  have hsubject : performAlone backend faults (.getSubject token) db = (.ok (some user.id), db) := by
    rw [performAlone_of_none h.getSubject, answer, h.subject]
  have huser : performAlone backend faults (.findUser user.id) db = (.ok (some user), db) := by
    rw [performAlone_of_none h.findUser, answer_findUser_of_exists h.user_exists, ← h.loaded]
  obtain ⟨key, loaded⟩ := user
  obtain rfl : loaded = some sessions := h.sessions_eq
  rw [verifyCreateSessionAsync]
  refine (run_perform_bind_of_ok hfind).trans ?_
  refine (run_perform_bind_of_ok hstatus).trans ?_
  refine (run_perform_bind_of_ok hsubject).trans ?_
  refine (run_perform_bind_of_ok huser).trans ?_
  refine (run_perform_bind_of_ok (performAlone_of_none h.addAsync)).trans ?_
  rw [addAsync_pendingChanges]

/-- **Any other call throws**, and the database is as it was. -/
theorem throws_verifyCreateSessionAsync (guid : DotNetString)
    (h : ∀ token user sessions, ¬ Redeemable backend faults db ticket token user sessions) :
    Throws (performAlone backend faults) (verifyCreateSessionAsync guid ticket) db := by
  rw [verifyCreateSessionAsync]
  rcases hfind : faults .findById with _ | e
  swap
  · exact .of_error (performAlone_of_some hfind (by simp))
  rcases ticket with _ | ⟨_ | ⟨c, cs⟩⟩
  · exact .of_error (performAlone_of_none hfind)
  · exact .of_error (performAlone_of_none hfind)
  refine .of_ok (performAlone_of_none hfind) ?_
  rcases hstored : db.tokens (c :: cs) with _ | token
  · exact .throw _
  have hid : token.id = c :: cs := db.tokens_id _ _ hstored
  rcases hstatus : faults .hasStatus with _ | e
  swap
  · exact .of_error (performAlone_of_some hstatus (by simp))
  refine .of_ok (performAlone_of_none hstatus) ?_
  rcases hvalid : backend.hasStatus token Statuses.valid with _ | _
  · rcases hget : faults .getStatus with _ | e
    · exact .of_ok (performAlone_of_none hget) (.throw _)
    · exact .of_error (performAlone_of_some hget (by simp))
  rcases hget : faults .getSubject with _ | e
  swap
  · exact .of_error (performAlone_of_some hget (by simp))
  refine .of_ok (performAlone_of_none hget) ?_
  rcases hsubject : token.subject with _ | subject
  · exact .throw _
  rcases huser : faults .findUser with _ | e
  swap
  · exact .of_error (performAlone_of_some huser (by simp))
  by_cases hexists : db.users subject = true
  swap
  · exact .of_ok ((performAlone_of_none huser).trans (answer_findUser_of_not_exists hexists)) (.throw _)
  refine .of_ok ((performAlone_of_none huser).trans (answer_findUser_of_exists hexists)) ?_
  rcases hloaded : backend.gameSessions db subject with _ | sessions
  · exact .throw _
  rcases hadd : faults .addAsync with _ | e
  swap
  · exact .of_error (performAlone_of_some hadd (by simp))
  exact absurd {
    ticket_eq := by rw [hid], id_ne := by rw [hid]; simp, stored := by rw [hid, hstored]
    valid := hvalid, subject := hsubject, user_exists := hexists, loaded := rfl, sessions_eq := hloaded
    findById := hfind, hasStatus := hstatus, getSubject := hget, findUser := huser
    addAsync := hadd } (h token { id := subject, gameSessions := _ } sessions)

/-- **`redeem` alone**: two save points, each with a fault of its own. -/
theorem run_redeem {token : OpenIddictToken} {changes : Changes} {session : ManafontGameSession}
    (h : db.tokens token.id = some token) :
    run (performAlone backend faults) (redeem token changes session) db =
      match faults .tryRevoke, faults .saveChanges with
      | none, none => (.ok session, (db.commit changes).revoke token)
      | none, some e => (.error e, (db.commit changes).revoke token)
      | some _, none => (.ok session, db.commit changes)
      | some _, some e => (.error e, db) := by
  rw [redeem]
  cases hrevoke : faults .tryRevoke with
  | none =>
    have hstored : performAlone backend faults (.tryRevoke token changes) db =
        (.ok (true, .empty), (db.commit changes).revoke token) := by
      rw [performAlone_of_none hrevoke]
      exact if_pos h
    refine (run_perform_bind_of_ok hstored).trans ?_
    cases hsave : faults .saveChanges with
    | none =>
      refine (run_perform_bind_of_ok (performAlone_of_none hsave)).trans ?_
      rw [Database.commit_empty]
      rfl
    | some e => exact run_perform_bind_of_error (performAlone_of_some hsave (by simp))
  | some e =>
    have hlost : performAlone backend faults (.tryRevoke token changes) db =
        (.ok (false, changes), db) := by
      rw [performAlone]
      exact perform_tryRevoke_of_lost changes (by simp [StorageOp.await, hrevoke])
    refine (run_perform_bind_of_ok hlost).trans ?_
    cases hsave : faults .saveChanges with
    | none => exact run_perform_bind_of_ok (performAlone_of_none hsave)
    | some e => exact run_perform_bind_of_error (performAlone_of_some hsave (by simp))

end Alone

end Manafont.Session
