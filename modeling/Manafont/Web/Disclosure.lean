import Manafont.Web.Tokens

/-!
# What the pages give away about an account

`ForgotPassword` and `ResendEmailConfirmation` answer in the same way whether or not there is an
account, so as not to reveal it.  Any number of requests to the two is answered alike from all
tables exactly as long as no mail fails (`hides_iff`).  The sender of the site always throws, so
that an exception is the answer for an account and a page the answer for none.
-/

namespace Manafont.Web

open Db Program

/-! ### Answers -/

/-- The pages that do not tell whether there is an account. -/
def Request.Asks : Request → Prop
  | .forgotPassword _ _ => True
  | .resendEmailConfirmation _ _ => True
  | _ => False

section Answers

variable {σ : Type} (services : Services σ)

def answers : Site σ → List Request → List (Except Exn Response)
  | _, [] => []
  | w, r :: requests =>
    outcome (handle services r w) :: answers (final (handle services r w)) requests

def mailOf (store : σ) : Request → Option Mail
  | .forgotPassword true email =>
    match services.findByEmailAsync email store with
    | none => none
    | some user =>
      if services.isEmailConfirmedAsync user store = false then none
      else some (resetMail services email user store)
  | .resendEmailConfirmation true email =>
    match services.findByEmailAsync email store with
    | none => none
    | some user => some (confirmationMail services email user store)
  | _ => none

/-- What a page answers when no mail fails. -/
def pageOf : Request → Response
  | .forgotPassword true _ => .of (.redirectToPage "./ForgotPasswordConfirmation" none)
  | .resendEmailConfirmation true _ => { Response.of .page with
      modelErrors := ["Verification email sent. Please check your email."] }
  | _ => .of .page

def failureOf : Option Mail → Option Exn
  | none => none
  | some mail =>
    match services.sendMail mail with
    | .ok () => none
    | .error e => some e

/-- A page that only a mail can make fail. -/
def answerUnless (page : Response) : Option Exn → Except Exn Response
  | none => .ok page
  | some e => .error e

variable {services} {w : Site σ} {r : Request}

theorem run_sendEmailAsync_then (mail : Mail) (page : Response) :
    outcome ((sendEmailAsync services mail >>= fun _ => pure page) w) =
        answerUnless page (failureOf services (some mail)) ∧
      (final ((sendEmailAsync services mail >>= fun _ => pure page) w)).store = w.store := by
  rw [run_sendEmailAsync_bind, failureOf]
  cases services.sendMail mail <;> exact ⟨rfl, rfl⟩

/-- **The answer depends on the fate of the mail alone**, and the tables stay as they are. -/
theorem handle_of_asks (h : r.Asks) :
    outcome (handle services r w) =
        answerUnless (pageOf r) (failureOf services (mailOf services w.store r)) ∧
      (final (handle services r w)).store = w.store := by
  cases r with
  | forgotPassword isValid email =>
    cases isValid with
    | false => exact ⟨rfl, rfl⟩
    | true =>
      rw [mailOf, handle, forgotPasswordPost, if_neg (by decide : ¬ true = false), run_get_bind]
      cases services.findByEmailAsync email w.store with
      | none => exact ⟨rfl, rfl⟩
      | some user =>
        dsimp only
        split
        · exact ⟨rfl, rfl⟩
        · exact run_sendEmailAsync_then _ _
  | resendEmailConfirmation isValid email =>
    cases isValid with
    | false => exact ⟨rfl, rfl⟩
    | true =>
      rw [mailOf, handle, resendEmailConfirmationPost, if_neg (by decide : ¬ true = false),
        run_get_bind]
      cases services.findByEmailAsync email w.store with
      | none => exact ⟨rfl, rfl⟩
      | some user => exact run_sendEmailAsync_then _ _
  | register | registerConfirmation | confirmEmail | resetPasswordForm | resetPassword =>
    exact h.elim

theorem answers_of_asks {requests : List Request} :
    ∀ {w : Site σ}, (∀ r ∈ requests, r.Asks) → answers services w requests =
      requests.map fun r => answerUnless (pageOf r) (failureOf services (mailOf services w.store r))
    := by
  induction requests with
  | nil => exact fun _ => rfl
  | cons r requests ih =>
    intro w h
    obtain ⟨houtcome, hstore⟩ := @handle_of_asks σ services w r (h r List.mem_cons_self)
    rw [answers, ih fun q hq => h q (List.mem_cons_of_mem r hq), hstore, houtcome, List.map_cons]

theorem failureOf_eq_none_iff {mail : Mail} :
    failureOf services (some mail) = none ↔ services.sendMail mail = .ok () := by
  rw [failureOf]
  cases services.sendMail mail <;> simp

theorem answerUnless_eq_ok_iff {page : Response} {failure : Option Exn} :
    answerUnless page failure = .ok page ↔ failure = none := by
  cases failure <;> simp [answerUnless]

theorem mailOf_of_empty {store : σ} (h : ∀ email, services.findByEmailAsync email store = none) :
    mailOf services store r = none := by
  rw [mailOf.eq_def]
  split
  · rw [h]
  · rw [h]
  · rfl

end Answers

/-- **The two pages hide an account exactly when no mail fails**: any requests to them are answered
alike from all tables if and only if every mail that they could send goes out. -/
theorem hides_iff {σ : Type} (services : Services σ) (requests : List Request)
    (hasks : ∀ r ∈ requests, r.Asks) (empty : σ)
    (hempty : ∀ email, services.findByEmailAsync email empty = none) :
    (∀ w w' : Site σ, answers services w requests = answers services w' requests) ↔
      ∀ r ∈ requests, ∀ store mail, mailOf services store r = some mail →
        services.sendMail mail = .ok () := by
  constructor
  · intro h r hr store mail hmail
    have hsame := h { store := store, delivered := [], signedIn := none }
      { store := empty, delivered := [], signedIn := none }
    rw [answers_of_asks hasks, answers_of_asks hasks, List.map_inj_left] at hsame
    have hanswer := hsame r hr
    rw [mailOf_of_empty hempty, hmail] at hanswer
    exact failureOf_eq_none_iff.mp (answerUnless_eq_ok_iff.mp hanswer)
  · intro h w w'
    have hanswers : ∀ w : Site σ, answers services w requests =
        requests.map fun r => .ok (pageOf r) := by
      intro w
      rw [answers_of_asks hasks]
      refine List.map_congr_left fun r hr => answerUnless_eq_ok_iff.mpr ?_
      cases hmail : mailOf services w.store r with
      | none => rfl
      | some mail => exact failureOf_eq_none_iff.mpr (h r hr w.store mail hmail)
    rw [hanswers, hanswers]

/-- The theorem on a request to each of the two pages of the site as it is configured: the answers
tell whether `a` has an account. -/
theorem configured_not_hides : ∃ w w' : Site Accounts,
    answers configured w [.forgotPassword true [0x61], .resendEmailConfirmation true [0x61]] ≠
      answers configured w'
        [.forgotPassword true [0x61], .resendEmailConfirmation true [0x61]] := by
  have hiff := hides_iff configured
    [.forgotPassword true [0x61], .resendEmailConfirmation true [0x61]]
    (by simp [Request.Asks]) (fun _ => none) fun _ => rfl
  by_contra hall
  have hsame : ∀ w w' : Site Accounts, answers configured w
      [.forgotPassword true [0x61], .resendEmailConfirmation true [0x61]] =
        answers configured w'
          [.forgotPassword true [0x61], .resendEmailConfirmation true [0x61]] := by
    intro w w'
    by_contra hne
    exact hall ⟨w, w', hne⟩
  have hsent := hiff.mp hsame (.forgotPassword true [0x61]) List.mem_cons_self oneAccount _ rfl
  cases hsent

end Manafont.Web
