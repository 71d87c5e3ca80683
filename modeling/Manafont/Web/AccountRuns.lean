import Manafont.Library.Machine
import Manafont.Web.AccountPages

/-!
# Requests to the pages of an account

A public makes any list of requests to the six pages and keeps the links it is shown.  What a
request does is said once, for all pages (`Done`, `answered_handle`): it makes an account, shows a
link, sends a mail, or presents a token that confirms an account or gives it a new password.
-/

namespace Manafont.Web

open Db Program

inductive Request where
  | register (isValid : Bool) (email password : DotNetString)
  | registerConfirmation (email : Option DotNetString)
  | confirmEmail (userId code : Option DotNetString)
  | resendEmailConfirmation (isValid : Bool) (email : DotNetString)
  | forgotPassword (isValid : Bool) (email : DotNetString)
  | resetPasswordForm (code : Option DotNetString)
  | resetPassword (isValid : Bool) (email password token : DotNetString)

/-- The site, and the links that its pages have shown. -/
structure Public (σ : Type) where
  site : Site σ
  shown : List Link

section Requests

variable {σ : Type} (services : Services σ)

def handle : Request → WebIo σ Response
  | .register isValid email password => registerPost services isValid email password
  | .registerConfirmation email => registerConfirmationGet services email
  | .confirmEmail userId code => confirmEmailGet services userId code
  | .resendEmailConfirmation isValid email => resendEmailConfirmationPost services isValid email
  | .forgotPassword isValid email => forgotPasswordPost services isValid email
  | .resetPasswordForm code => resetPasswordGet services code
  | .resetPassword isValid email password token =>
    resetPasswordPost services isValid email password token

def linksOf : EStateM.Result Exn (Site σ) Response → List Link
  | .ok response _ => response.emailConfirmationUrl.toList
  | .error _ _ => []

def step (p : Public σ) (r : Request) : Option (Public σ) :=
  some {
    site := final (handle services r p.site)
    shown := p.shown ++ linksOf (handle services r p.site) }

def Request.Presents : Request → DotNetString → Prop
  | .confirmEmail _ (some code), token => services.decode code = .ok token
  | .resetPassword _ _ _ presented, token => token = presented
  | _, _ => False

end Requests

/-! ### What a page does -/

/-- What a request makes of the site, and the links it is shown. -/
inductive Done {σ : Type} (services : Services σ) (w : Site σ) (r : Request) :
    Site σ → List Link → Prop
  | nothing : Done services w r w []
  | creates (w' : Site σ) (email password : DotNetString) (mails : List Mail)
      (hstore : w'.store = (services.createAsync email password w.store).2.2)
      (hdelivered : w'.delivered = w.delivered ++ mails)
      (hmails : ∀ mail ∈ mails, ∃ user store, mail = confirmationMail services email user store) :
      Done services w r w' []
  | shows (user : ManafontUser) : Done services w r w [confirmationLink services user w.store]
  | confirms (user : ManafontUser) (token : DotNetString)
      (hpresents : r.Presents services token) :
      Done services w r { w with store := (services.confirmEmailAsync user token w.store).2 } []
  | confirmMail (email : DotNetString) (user : ManafontUser) :
      Done services w r
        { w with delivered := w.delivered ++ [confirmationMail services email user w.store] } []
  | resetMail (email : DotNetString) (user : ManafontUser)
      (hfind : services.findByEmailAsync email w.store = some user)
      (hsent : services.sendMail (resetMail services email user w.store) = .ok ()) :
      Done services w r
        { w with delivered := w.delivered ++ [resetMail services email user w.store] } []
  | resets (user : ManafontUser) (password token : DotNetString)
      (hpresents : r.Presents services token) :
      Done services w r
        { w with store := (services.resetPasswordAsync user token password w.store).2 } []

def Answered {σ : Type} (services : Services σ) (w : Site σ) (r : Request)
    (answer : EStateM.Result Exn (Site σ) Response) : Prop :=
  Done services w r (final answer) (linksOf answer)

section Done

variable {σ : Type} {services : Services σ} {w : Site σ}

theorem run_get_bind {α : Type} {next : Site σ → WebIo σ α} : (get >>= next) w = next w w := rfl

theorem run_sendEmailAsync_bind {mail : Mail} {next : Unit → WebIo σ Response} :
    (sendEmailAsync services mail >>= next) w =
      match services.sendMail mail with
      | .ok () => next () { w with delivered := w.delivered ++ [mail] }
      | .error e => .error e w := by
  rw [sendEmailAsync]
  cases services.sendMail mail <;> rfl

theorem answered_register (isValid : Bool) (email password : DotNetString) :
    Answered services w (.register isValid email password)
      (registerPost services isValid email password w) := by
  cases isValid with
  | false => exact .nothing
  | true =>
    rw [registerPost, if_neg (by decide), run_get_bind]
    rcases hcreate : services.createAsync email password w.store with ⟨result, user, store⟩
    have hstore : store = (services.createAsync email password w.store).2.2 := by rw [hcreate]
    have hnone : ∀ mail ∈ ([] : List Mail), ∃ user store,
        mail = confirmationMail services email user store := fun _ h => by cases h
    have hone : ∀ mail ∈ [confirmationMail services email user store], ∃ user store,
        mail = confirmationMail services email user store := by
      intro mail hmail
      exact ⟨user, store, List.mem_singleton.mp hmail⟩
    cases result with
    | failed errors =>
      exact .creates { w with store := store } email password [] hstore (List.append_nil _).symm
        hnone
    | success =>
      show Answered services w _ ((sendEmailAsync services _ >>= fun _ => _ : WebIo σ Response)
        { w with store := store })
      rw [run_sendEmailAsync_bind]
      cases services.sendMail (confirmationMail services email user store) with
      | error e =>
        exact .creates { w with store := store } email password [] hstore
          (List.append_nil _).symm hnone
      | ok u =>
        dsimp only
        split
        · exact .creates _ email password _ hstore rfl hone
        · exact .creates _ email password _ hstore rfl hone

theorem answered_registerConfirmation (email : Option DotNetString) :
    Answered services w (.registerConfirmation email)
      (registerConfirmationGet services email w) := by
  cases email with
  | none => exact .nothing
  | some email =>
    rw [registerConfirmationGet, run_get_bind]
    cases services.findByEmailAsync email w.store with
    | none => exact .nothing
    | some user => exact .shows user

theorem answered_confirmEmail (userId code : Option DotNetString) :
    Answered services w (.confirmEmail userId code) (confirmEmailGet services userId code w) := by
  cases userId with
  | none => exact .nothing
  | some userId =>
    cases code with
    | none => exact .nothing
    | some code =>
      rw [confirmEmailGet, run_get_bind]
      cases services.findByIdAsync userId w.store with
      | none => exact .nothing
      | some user =>
        dsimp only
        cases hdecode : services.decode code with
        | error e => exact .nothing
        | ok token => exact .confirms user token hdecode

theorem answered_resendEmailConfirmation (isValid : Bool) (email : DotNetString) :
    Answered services w (.resendEmailConfirmation isValid email)
      (resendEmailConfirmationPost services isValid email w) := by
  cases isValid with
  | false => exact .nothing
  | true =>
    rw [resendEmailConfirmationPost, if_neg (by decide), run_get_bind]
    cases services.findByEmailAsync email w.store with
    | none => exact .nothing
    | some user =>
      dsimp only
      rw [run_sendEmailAsync_bind]
      cases services.sendMail (confirmationMail services email user w.store) with
      | ok u => exact .confirmMail email user
      | error e => exact .nothing

theorem answered_forgotPassword (isValid : Bool) (email : DotNetString) :
    Answered services w (.forgotPassword isValid email)
      (forgotPasswordPost services isValid email w) := by
  cases isValid with
  | false => exact .nothing
  | true =>
    rw [forgotPasswordPost, if_neg (by decide), run_get_bind]
    cases hfind : services.findByEmailAsync email w.store with
    | none => exact .nothing
    | some user =>
      dsimp only
      split
      · exact .nothing
      · rw [run_sendEmailAsync_bind]
        cases hsent : services.sendMail (resetMail services email user w.store) with
        | ok u => exact .resetMail email user hfind hsent
        | error e => exact .nothing

theorem answered_resetPassword (isValid : Bool) (email password token : DotNetString) :
    Answered services w (.resetPassword isValid email password token)
      (resetPasswordPost services isValid email password token w) := by
  cases isValid with
  | false => exact .nothing
  | true =>
    rw [resetPasswordPost, if_neg (by decide), run_get_bind]
    cases services.findByEmailAsync email w.store with
    | none => exact .nothing
    | some user =>
      have hdone : Done services w (.resetPassword true email password token)
          { w with store := (services.resetPasswordAsync user token password w.store).2 } [] :=
        .resets user password token rfl
      rcases hreset : services.resetPasswordAsync user token password w.store with ⟨result, store⟩
      simp only [hreset] at hdone ⊢
      cases result with
      | success => exact hdone
      | failed errors => exact hdone

/-- **What any request does.** -/
theorem answered_handle (r : Request) : Answered services w r (handle services r w) := by
  cases r with
  | register isValid email password => exact answered_register isValid email password
  | registerConfirmation email => exact answered_registerConfirmation email
  | confirmEmail userId code => exact answered_confirmEmail userId code
  | resendEmailConfirmation isValid email => exact answered_resendEmailConfirmation isValid email
  | forgotPassword isValid email => exact answered_forgotPassword isValid email
  | resetPasswordForm code =>
    cases code with
    | none => exact .nothing
    | some code =>
      rw [handle, resetPasswordGet]
      cases services.decode code with
      | error e => exact .nothing
      | ok token => exact .nothing
  | resetPassword isValid email password token =>
    exact answered_resetPassword isValid email password token

theorem exists_done {p p' : Public σ} {r : Request} (hs : step services p r = some p') :
    ∃ w links, p' = { site := w, shown := p.shown ++ links } ∧
      Done services p.site r w links := by
  cases hs
  exact ⟨_, _, rfl, answered_handle r⟩

end Done

end Manafont.Web
