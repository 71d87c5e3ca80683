import Manafont.Library.Machine
import Manafont.Session.HandOver
import Manafont.Session.History
import Manafont.Session.OneSession

/-!
# A ledger of tickets and sessions

What the session manager is for, without tables and awaits: a `Ledger` says for whom each ticket
can be redeemed and which sessions of each user are live.  To redeem a ticket is to spend it and
to make the new session the only live one of its user (`Ledger.redeem`).  A ledger redeems no
ticket twice (`Ledger.nodup_of_run`).

`ledgerOf` reads a ledger off the tables.  A commit that revises only sessions of the user and
covers those that are valid is `Ledger.redeem` (`ledgerOf_commit`), and so

* calls one after another, with nothing to interrupt them, answer as the ledger does
  (`serve_refines`), and
* calls at once are redemptions of the ledger one after another, in the order of their commits
  (`serializable_of_run`), as long as nobody commits what it has lost, and commits cover.
-/

namespace Manafont.Session

open Db Async

/-! ### Ledgers -/

/-- The user for whom each ticket can be redeemed, and the live sessions of each user. -/
@[ext]
structure Ledger (Ticket User Key : Type) where
  owner : Ticket → Option User
  live : User → Set Key

namespace Ledger

variable {Ticket User Key : Type} [DecidableEq Ticket] [DecidableEq User]

def redeem (ledger : Ledger Ticket User Key) (request : Ticket × Key) :
    Option (Ledger Ticket User Key) :=
  (ledger.owner request.1).map fun user => {
    owner := Function.update ledger.owner request.1 none
    live := Function.update ledger.live user {request.2} }

def attempt (ledger : Ledger Ticket User Key) (request : Ticket × Key) :
    Option (Key × User) × Ledger Ticket User Key :=
  ((ledger.owner request.1).map fun user => (request.2, user),
    (ledger.redeem request).getD ledger)

def attemptAll (ledger : Ledger Ticket User Key) :
    List (Ticket × Key) → List (Option (Key × User)) × Ledger Ticket User Key
  | [] => ([], ledger)
  | request :: requests =>
    let rest := (ledger.attempt request).2.attemptAll requests
    ((ledger.attempt request).1 :: rest.1, rest.2)

variable {ledger ledger' : Ledger Ticket User Key}

theorem redeem_of_owner {request : Ticket × Key} {user : User}
    (h : ledger.owner request.1 = some user) : ledger.redeem request = some {
      owner := Function.update ledger.owner request.1 none
      live := Function.update ledger.live user {request.2} } := by
  rw [redeem, h]
  rfl

theorem owner_of_redeem {request : Ticket × Key} (h : ledger.redeem request = some ledger') :
    ledger.owner request.1 ≠ none ∧
      ledger'.owner = Function.update ledger.owner request.1 none := by
  obtain ⟨user, huser, rfl⟩ := Option.map_eq_some_iff.mp h
  exact ⟨by rw [huser]; simp, rfl⟩

/-- A ticket that cannot be redeemed is not redeemed later. -/
theorem not_mem_of_run {ticket : Ticket} : ∀ (requests : List (Ticket × Key))
    {ledger : Ledger Ticket User Key}, ledger.owner ticket = none →
    Machine.run redeem ledger requests = some ledger' → ticket ∉ requests.map Prod.fst := by
  intro requests
  induction requests with
  | nil => exact fun _ _ => List.not_mem_nil
  | cons request requests ih =>
    intro ledger hnone hrun
    obtain ⟨next, hredeem, hrun⟩ := Machine.run_cons_eq_some.mp hrun
    obtain ⟨hsome, howner⟩ := owner_of_redeem hredeem
    have hne : ticket ≠ request.1 := by
      rintro rfl
      exact hsome hnone
    rw [List.map_cons, List.mem_cons, not_or]
    exact ⟨hne, ih (by rw [howner, Function.update_of_ne hne, hnone]) hrun⟩

/-- **No ticket is redeemed twice.** -/
theorem nodup_of_run : ∀ (requests : List (Ticket × Key)) {ledger : Ledger Ticket User Key},
    Machine.run redeem ledger requests = some ledger' → (requests.map Prod.fst).Nodup := by
  intro requests
  induction requests with
  | nil => exact fun _ => List.nodup_nil
  | cons request requests ih =>
    intro ledger hrun
    obtain ⟨next, hredeem, hrun⟩ := Machine.run_cons_eq_some.mp hrun
    rw [List.map_cons, List.nodup_cons]
    refine ⟨not_mem_of_run requests ?_ hrun, ih hrun⟩
    rw [(owner_of_redeem hredeem).2, Function.update_self]

end Ledger

/-! ### The ledger of a database -/

/-- The tickets that are ids of valid tokens of existing users, and the valid sessions.  A ticket
is not empty, as OpenIddict does not look an empty one up. -/
def ledgerOf (backend : Backend) (db : Database) :
    Ledger DotNetString DotNetString DotNetString where
  owner ticket :=
    if ticket = [] then none
    else (db.tokens ticket).bind fun token =>
      if backend.hasStatus token Statuses.valid then token.subject.filter db.users else none
  live user := { key | ∃ session ∈ db.sessions,
    session.id = key ∧ session.user = user ∧ session.status = .valid }

/-- The same, and the session revised is one of the user. -/
def RevisesOf (user : DotNetString) (changes : Changes) (db : Database) : Prop :=
  ∀ session ∈ changes.modified, ∃ row ∈ db.sessions, row.user = user ∧
    session = { row with status := .revoked }

section Commit

variable {backend : Backend} {db : Database} {token : OpenIddictToken} {user : ManafontUser}
  {changes : Changes} {guid : DotNetString}

theorem owner_eq_some_iff {ticket subject : DotNetString} :
    (ledgerOf backend db).owner ticket = some subject ↔
      ticket ≠ [] ∧ ∃ token, db.tokens ticket = some token ∧
        backend.hasStatus token Statuses.valid = true ∧ token.subject = some subject ∧
        db.users subject = true := by
  simp only [ledgerOf]
  by_cases hticket : ticket = []
  · simp [hticket]
  · rw [if_neg hticket, Option.bind_eq_some_iff]
    simp [hticket, Option.filter_eq_some_iff]

theorem RevisesOf.revises {user : DotNetString} (h : RevisesOf user changes db) :
    Revises changes db := by
  intro session hs
  obtain ⟨row, hrow, -, heq⟩ := h session hs
  exact ⟨row, hrow, heq⟩

theorem RevisesOf.revoked {user : DotNetString} (h : RevisesOf user changes db) :
    ∀ session ∈ changes.modified, session.status = .revoked := by
  intro session hs
  obtain ⟨row, -, -, rfl⟩ := h session hs
  rfl

theorem rewrite_of_other {row : ManafontGameSession} (hrevises : RevisesOf user.id changes db)
    (hnodup : (sessionIds db).Nodup) (hrow : row ∈ db.sessions) (hne : row.user ≠ user.id) :
    changes.rewrite row = row := by
  rcases changes.rewrite_eq_or row with ⟨hsame, -⟩ | hmem
  · exact hsame
  · obtain ⟨row', hrow', huser, heq⟩ := hrevises _ hmem
    have hid : row'.id = row.id := by
      rw [← changes.rewrite_id row, heq]
    obtain rfl : row' = row := List.inj_on_of_nodup_map hnodup hrow' hrow hid
    exact absurd huser hne

theorem live_commit_self (hrevises : RevisesOf user.id changes db)
    (hadded : changes.added = [newSession guid user]) (hcovers : Covers changes db) :
    (ledgerOf backend (db.commit changes)).live user.id = {guid} := by
  refine Set.eq_singleton_iff_unique_mem.mpr ⟨⟨newSession guid user, ?_, rfl, rfl, rfl⟩, ?_⟩
  · rw [Database.commit_sessions, hadded]
    exact List.mem_append_right _ (List.mem_singleton_self _)
  · rintro key ⟨session, hs, rfl, huser, hvalid⟩
    rw [Database.commit_sessions, hadded] at hs
    rcases List.mem_append.mp hs with hs | hs
    · obtain ⟨row, hrow, rfl⟩ := List.mem_map.mp hs
      obtain ⟨hsame, hleft⟩ := rewrite_eq_of_valid hrevises.revoked hvalid
      rw [hsame] at huser hvalid
      obtain ⟨loaded, hloaded, hid⟩ := hcovers (newSession guid user)
        (by rw [hadded]; exact List.mem_singleton_self _) row hrow huser hvalid
      exact absurd hid (hleft loaded hloaded)
    · rw [List.mem_singleton.mp hs]
      rfl

theorem live_commit_of_ne {other : DotNetString} (hrevises : RevisesOf user.id changes db)
    (hnodup : (sessionIds db).Nodup) (hadded : changes.added = [newSession guid user])
    (hne : other ≠ user.id) :
    (ledgerOf backend (db.commit changes)).live other = (ledgerOf backend db).live other := by
  ext key
  constructor
  · rintro ⟨session, hs, rfl, rfl, hvalid⟩
    rw [Database.commit_sessions, hadded] at hs
    rcases List.mem_append.mp hs with hs | hs
    · obtain ⟨row, hrow, rfl⟩ := List.mem_map.mp hs
      have hsame := (rewrite_eq_of_valid hrevises.revoked hvalid).1
      rw [hsame] at hvalid ⊢
      exact ⟨row, hrow, rfl, rfl, hvalid⟩
    · rw [List.mem_singleton.mp hs] at hne
      exact absurd rfl hne
  · rintro ⟨row, hrow, rfl, rfl, hvalid⟩
    refine ⟨row, ?_, rfl, rfl, hvalid⟩
    rw [Database.commit_sessions, List.mem_append]
    exact .inl (List.mem_map.mpr ⟨row, hrow, rewrite_of_other hrevises hnodup hrow hne⟩)

/-- **A commit is a redemption of the ledger.** -/
theorem ledgerOf_commit (hnodup : (sessionIds db).Nodup) (hrevises : RevisesOf user.id changes db)
    (hadded : changes.added = [newSession guid user]) (hcovers : Covers changes db)
    (howner : (ledgerOf backend db).owner token.id = some user.id) :
    (ledgerOf backend db).redeem (token.id, guid) =
      some (ledgerOf backend ((db.commit changes).revoke token)) := by
  rw [Ledger.redeem_of_owner howner]
  refine congrArg some (Ledger.ext ?_ ?_)
  · funext ticket
    show Function.update (ledgerOf backend db).owner token.id none ticket = _
    by_cases hticket : ticket = token.id
    · subst hticket
      rw [Function.update_self]
      simp only [ledgerOf]
      rw [Database.revoke_tokens_self]
      simp [backend.hasStatus_revoked token]
    · rw [Function.update_of_ne hticket]
      simp only [ledgerOf]
      rw [Database.revoke_tokens_of_ne hticket]
      rfl
  · funext other
    show Function.update (ledgerOf backend db).live user.id {guid} other =
      (ledgerOf backend (db.commit changes)).live other
    by_cases hother : other = user.id
    · subst hother
      rw [Function.update_self, live_commit_self hrevises hadded hcovers]
    · rw [Function.update_of_ne hother, live_commit_of_ne hrevises hnodup hadded hother]

end Commit

/-! ### Calls one after another -/

/-- The requests, served one after another with nothing to interrupt them: the sessions that are
returned, and the database. -/
def serve (backend : Backend) :
    List (Option DotNetString × DotNetString) → Database →
      List (Option ManafontGameSession) × Database
  | [], db => ([], db)
  | (ticket, guid) :: requests, db =>
    let call := callUninterrupted backend guid ticket db
    let rest := serve backend requests call.2
    (call.1.toOption :: rest.1, rest.2)

/-- The request as the ledger sees it.  A null ticket is no one's, and neither is an empty one. -/
def asked (request : Option DotNetString × DotNetString) : DotNetString × DotNetString :=
  (request.1.getD [], request.2)

section Serve

variable {backend : Backend} {db : Database} {guid : DotNetString}

/-- **A call with a ticket that can be redeemed** redeems it. -/
theorem call_of_owner (hloads : backend.LoadsSessions) (hnodup : (sessionIds db).Nodup)
    (guid : DotNetString) {ticket subject : DotNetString}
    (howner : (ledgerOf backend db).owner ticket = some subject) :
    ∃ session db', callUninterrupted backend guid (some ticket) db = (.ok session, db') ∧
      session.id = guid ∧ session.user = subject ∧
      (ledgerOf backend db).redeem (ticket, guid) = some (ledgerOf backend db') ∧
      sessionIds db' = sessionIds db ++ [guid] := by
  obtain ⟨hne, token, htoken, hvalid, hsubject, hexists⟩ := owner_eq_some_iff.mp howner
  obtain rfl : token.id = ticket := db.tokens_id _ _ htoken
  obtain ⟨sessions, hloaded, hmem⟩ := hloads db subject
  let user : ManafontUser := { id := subject, gameSessions := some sessions }
  have hredeemable : Redeemable backend (fun _ => none) db (some token.id) token user sessions := {
    ticket_eq := rfl, id_ne := hne, stored := htoken, valid := hvalid, subject := hsubject
    user_exists := hexists, loaded := hloaded.symm, sessions_eq := rfl, findById := rfl
    hasStatus := rfl, getSubject := rfl, findUser := rfl, addAsync := rfl }
  have hrevises : RevisesOf user.id (pendingChanges guid user sessions) db := by
    intro session hs
    obtain ⟨loaded, hl, rfl⟩ := List.mem_map.mp hs
    obtain ⟨hrow, huser⟩ := (hmem loaded).mp hl
    exact ⟨loaded, hrow, huser, rfl⟩
  have hcovers : Covers (pendingChanges guid user sessions) db := by
    intro added hadded session hs huser _
    rw [List.mem_singleton.mp hadded] at huser
    exact ⟨_, List.mem_map_of_mem ((hmem session).mpr ⟨hs, huser⟩), rfl⟩
  refine ⟨newSession guid user, (db.commit (pendingChanges guid user sessions)).revoke token,
    ?_, rfl, rfl, ledgerOf_commit hnodup hrevises rfl hcovers howner, ?_⟩
  · rw [callUninterrupted, run_verifyCreateSessionAsync_of_redeemable hredeemable,
      run_redeem htoken]
  · exact sessionIds_commit _ db

theorem call_of_no_owner (guid : DotNetString) {ticket : Option DotNetString}
    (h : (ledgerOf backend db).owner (ticket.getD []) = none) :
    ∃ e, callUninterrupted backend guid ticket db = (.error e, db) := by
  refine throws_verifyCreateSessionAsync guid fun token user sessions hr => ?_
  have howner : (ledgerOf backend db).owner (ticket.getD []) = some user.id := by
    rw [hr.ticket_eq, owner_eq_some_iff]
    exact ⟨hr.id_ne, token, hr.stored, hr.valid, hr.subject, hr.user_exists⟩
  rw [h] at howner
  cases howner

/-- **Calls one after another answer as the ledger does**, and leave the database at the ledger's
state, when each finds the stored sessions of its user loaded. -/
theorem serve_refines (backend : Backend) (hloads : backend.LoadsSessions) :
    ∀ (requests : List (Option DotNetString × DotNetString)) (db : Database),
    (sessionIds db ++ requests.map Prod.snd).Nodup →
    (serve backend requests db).1.map (Option.map fun session => (session.id, session.user)) =
        ((ledgerOf backend db).attemptAll (requests.map asked)).1 ∧
      ledgerOf backend (serve backend requests db).2 =
        ((ledgerOf backend db).attemptAll (requests.map asked)).2 := by
  intro requests
  induction requests with
  | nil => exact fun _ _ => ⟨rfl, rfl⟩
  | cons request requests ih =>
    intro db hnodup
    obtain ⟨ticket, guid⟩ := request
    rw [List.map_cons, serve, Ledger.attemptAll]
    cases howner : (ledgerOf backend db).owner (ticket.getD []) with
    | none =>
      obtain ⟨e, hcall⟩ := call_of_no_owner guid howner
      have hattempt : (ledgerOf backend db).attempt (asked (ticket, guid)) =
          (none, ledgerOf backend db) := by
        rw [Ledger.attempt, Ledger.redeem, asked, howner]
        rfl
      have hrest := ih db (hnodup.sublist (List.Sublist.append_left
        (List.sublist_cons_self guid (requests.map Prod.snd)) _))
      rw [hcall, hattempt]
      exact ⟨congrArg (none :: ·) hrest.1, hrest.2⟩
    | some subject =>
      have hticket : ticket = some (ticket.getD []) := by
        cases ticket with
        | none => exact absurd rfl (owner_eq_some_iff.mp howner).1
        | some ticket => rfl
      obtain ⟨session, db', hcall, rfl, huser, hredeem, hids⟩ :=
        call_of_owner hloads (List.Nodup.of_append_left hnodup) guid howner
      have hattempt : (ledgerOf backend db).attempt (asked (ticket, session.id)) =
          (some (session.id, subject), ledgerOf backend db') := by
        rw [Ledger.attempt, asked, hredeem, howner]
        rfl
      have hrest := ih db' (by rw [hids, List.append_assoc]; exact hnodup)
      rw [hticket, hcall, ← hticket, hattempt, ← huser]
      exact ⟨congrArg (some (session.id, session.user) :: ·) hrest.1, hrest.2⟩

end Serve

/-! ### Calls at once -/

/-- Nobody commits in `SaveChangesAsync`, and what commits covers the stored sessions. -/
def CommitsOwn (fault : Option Exn) (op : StorageOp) (db : Database) : Prop :=
  SavesNothing fault op db ∧ CommitsCover fault op db

section Serial

variable {ι : Type} (backend : Backend) (tickets : ι → Option DotNetString)
  (guids : ι → DotNetString)

/-- The calls have been redemptions of the ledger one after another, in this order, which is the
order of their sessions in the table. -/
structure SerialBy (db₀ db : Database) (order : List ι) : Prop where
  ids : sessionIds db = sessionIds db₀ ++ order.map guids
  redeemed : Machine.run Ledger.redeem (ledgerOf backend db₀)
    (order.map fun i => asked (tickets i, guids i)) = some (ledgerOf backend db)

structure Serial (db₀ db : Database) : Prop where
  grown : Grown backend tickets guids db₀ db
  order : ∃ order, SerialBy backend tickets guids db₀ db order

variable {backend tickets guids} {db₀ db : Database}

theorem SerialBy.append {order : List ι} (h : SerialBy backend tickets guids db₀ db order) {i : ι}
    {db' : Database} (hids : sessionIds db' = sessionIds db ++ [guids i])
    (hredeem : (ledgerOf backend db).redeem (asked (tickets i, guids i)) =
      some (ledgerOf backend db')) : SerialBy backend tickets guids db₀ db' (order ++ [i]) := by
  refine ⟨?_, ?_⟩
  · rw [hids, h.ids, List.map_append, List.append_assoc]
    rfl
  · rw [List.map_append, Machine.run_append, h.redeemed]
    show (Machine.run Ledger.redeem (ledgerOf backend db) [_]) = _
    rw [Machine.run, hredeem]
    rfl

/-- **`redeem` among calls that commit what is theirs.** -/
theorem keeps_redeem_serial {i : ι} {token : OpenIddictToken} {user : ManafontUser}
    {sessions : List ManafontGameSession} {t : Database} (hstored : backend.LoadsStored)
    (h : Verified backend (Serial backend tickets guids db₀) (LeavesKey (guids i)) (tickets i)
      token user sessions db t) (hunused : guids i ∉ sessionIds db) :
    Keeps (perform backend) CommitsOwn (Serial backend tickets guids db₀) (LeavesKey (guids i))
      (AddsKey (guids i)) (EndsIssued (guids i))
      (redeem token (pendingChanges (guids i) user sessions) (newSession (guids i) user)) t := by
  refine keeps_redeem (fun _ _ => trivial) ?_ ?_
  · intro t₁ hR₁ hI₁ hC htoken
    have hgrown := hI₁.grown
    have hredeems := h.redeems hstored hunused hR₁ hgrown
    have hcommit := addsKey_commit hredeems.revises hgrown.nodup rfl
    obtain ⟨t₀, -, -, hexists, hloaded, hR₀⟩ := h.loaded
    have hlater : Later t₀ t₁ := IsTrans.trans _ _ _ hR₀.later hR₁.later
    have hrevises : RevisesOf user.id (pendingChanges (guids i) user sessions) t₁ := by
      intro session hs
      obtain ⟨loaded, hmem, rfl⟩ := List.mem_map.mp hs
      obtain ⟨hrow, huser⟩ := hstored _ _ _ hloaded loaded hmem
      obtain ⟨row, hrow', honly⟩ := hlater.exists_session hrow
      exact ⟨row, hrow', honly.user_eq.trans huser, honly.revoke_eq⟩
    have howner : (ledgerOf backend t₁).owner token.id = some user.id := by
      refine owner_eq_some_iff.mpr ⟨h.id_ne, token, htoken, h.valid, h.subject, ?_⟩
      rw [hlater.users]
      exact hexists
    have hredeem := ledgerOf_commit hgrown.nodup hrevises rfl (hC.2 rfl htoken) howner
    obtain ⟨order, horder⟩ := hI₁.order
    refine ⟨⟨(hgrown.commit hredeems.revises rfl hredeems.unused
        (h.issued fun _ hs => hs.grown)).revoke htoken, order ++ [i],
        horder.append (sessionIds_commit _ t₁) ?_⟩,
      ⟨IsTrans.trans _ _ _ hcommit.later (later_revoke htoken), hcommit.added⟩, ?_⟩
    · rw [asked, h.ticket_eq]
      exact hredeem
    · exact fun t₂ hR₂ _ => ⟨rfl, hR₂.later.exists_session
        (List.mem_append_right _ (List.mem_singleton_self _))⟩
  · intro t₁ _ _ hC
    cases congrArg Changes.added (hC.1 rfl)

end Serial

section Runs

variable {ι : Type} [DecidableEq ι]

/-- **Calls at once are calls one after another**: in every run in which nobody commits what it
has lost and every commit covers what is stored, the tables end where the ledger does when it
redeems the tickets of some calls in the order of their sessions.  These calls are different
and so are their tickets, and every call that has returned is among them. -/
theorem serializable_of_run (backend : Backend) (hstored : backend.LoadsStored)
    (tickets : ι → Option DotNetString) (guids : ι → DotNetString) (db : Database)
    (hfresh : FreshGuids guids db) (hnodup : (sessionIds db).Nodup)
    (schedule : List (ι × Option Exn))
    (hmeets : (calls tickets guids db).Meets (perform backend) CommitsOwn schedule) :
    ∃ order : List ι, order.Nodup ∧ (order.map tickets).Nodup ∧
      SerialBy backend tickets guids db
        ((calls tickets guids db).run (perform backend) schedule).store order ∧
      ∀ i, Returned ((calls tickets guids db).run (perform backend) schedule) i → i ∈ order := by
  have hcall : ∀ i, Keeps (perform backend) CommitsOwn (Serial backend tickets guids db)
      (LeavesKey (guids i)) (AddsKey (guids i)) (EndsIssued (guids i))
      ((calls tickets guids db).method i) (calls tickets guids db).store := fun i =>
    keeps_verifyCreateSessionAsync (fun _ _ => trivial) fun _ _ _ _ h =>
      keeps_redeem_serial hstored h (hfresh.not_mem i)
  have hstart : Serial backend tickets guids db (calls tickets guids db).store :=
    ⟨grown_of_nodup hnodup, [], (List.append_nil _).symm, rfl⟩
  obtain ⟨hserial, hends⟩ := Pool.run_keeps
    (fun _ _ _ _ hij h => h.leavesKey fun heq => hij (hfresh.injective heq).symm)
    (fun _ _ _ _ hR _ h => h.mono hR.later) schedule hstart hcall hmeets
  obtain ⟨order, horder⟩ := hserial.order
  have htickets : (order.map tickets).Nodup := by
    have hrequests := Ledger.nodup_of_run _ horder.redeemed
    rw [List.map_map] at hrequests
    exact List.Nodup.of_map (Option.getD · []) (by rwa [List.map_map])
  refine ⟨order, htickets.of_map, htickets, horder, ?_⟩
  rintro i ⟨session, hi⟩
  obtain ⟨hid, row, hrow, honly⟩ := Keeps.of_done hi (hends i)
  have hmem : guids i ∈ sessionIds
      ((calls tickets guids db).run (perform backend) schedule).store := by
    rw [← hid, ← honly.id_eq]
    exact List.mem_map_of_mem hrow
  rw [horder.ids] at hmem
  obtain ⟨j, hj, heq⟩ := List.mem_map.mp ((List.mem_append.mp hmem).resolve_left (hfresh.not_mem i))
  rwa [← hfresh.injective heq]

end Runs

/-! ### One user with two tickets -/

/-- The theorem on three requests, of which the second has no ticket and the third a spent one. -/
theorem three_requests_refine :
    (serve .loading [(some [0x74], [0x31]), (none, [0x32]), (some [0x74], [0x33])]
        (.issued [0x75] [[0x74]])).1.map (Option.map fun session => (session.id, session.user)) =
        ((ledgerOf .loading (.issued [0x75] [[0x74]])).attemptAll
          ([(some [0x74], [0x31]), (none, [0x32]), (some [0x74], [0x33])].map asked)).1 ∧
      ledgerOf .loading (serve .loading [(some [0x74], [0x31]), (none, [0x32]),
          (some [0x74], [0x33])] (.issued [0x75] [[0x74]])).2 =
        ((ledgerOf .loading (.issued [0x75] [[0x74]])).attemptAll
          ([(some [0x74], [0x31]), (none, [0x32]), (some [0x74], [0x33])].map asked)).2 :=
  serve_refines .loading Backend.loading_loadsSessions _ (.issued [0x75] [[0x74]]) (by decide)

theorem twoLoginsInTurn_meets : twoLogins.Meets (perform .loading) CommitsOwn twoLoginsInTurn :=
  Pool.Meets.and
    ⟨.of_eq rfl trivial, .of_eq rfl trivial, .of_eq rfl trivial, .of_eq rfl trivial,
      .of_eq rfl trivial, .of_eq rfl trivial, .of_eq rfl fun _ => rfl, .of_eq rfl trivial,
      .of_eq rfl trivial, .of_eq rfl trivial, .of_eq rfl trivial, .of_eq rfl trivial,
      .of_eq rfl trivial, .of_eq rfl fun _ => rfl, trivial⟩
    twoLoginsInTurn_covers

theorem twoLogins_freshGuids :
    FreshGuids (fun i : Bool => if i then [0x31] else [0x30])
      (.issued [0x75] [[0x73], [0x74]]) where
  injective := race_freshGuids.injective
  fresh := by simp [Database.issued]

/-- The theorem on them. -/
theorem twoLogins_serializable : ∃ order : List Bool, order.Nodup ∧
    (order.map fun i => (if i then some [0x73] else some [0x74] : Option DotNetString)).Nodup ∧
    SerialBy .loading (fun i : Bool => if i then some [0x73] else some [0x74])
      (fun i => if i then [0x31] else [0x30]) (.issued [0x75] [[0x73], [0x74]])
      (twoLogins.run (perform .loading) twoLoginsInTurn).store order ∧
    ∀ i, Returned (twoLogins.run (perform .loading) twoLoginsInTurn) i → i ∈ order := by
  have hserial := serializable_of_run .loading Backend.loading_loadsSessions.loadsStored
    (fun i : Bool => if i then some [0x73] else some [0x74]) (fun i => if i then [0x31] else [0x30])
    (.issued [0x75] [[0x73], [0x74]]) twoLogins_freshGuids List.nodup_nil twoLoginsInTurn
    twoLoginsInTurn_meets
  exact hserial

end Manafont.Session
