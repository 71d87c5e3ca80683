import Manafont.Db.Model
import Manafont.Library.Program

/-!
# How an account is made, confirmed and recovered

The pages of `Manafont.Web/Areas/Identity/Pages/Account` by which an account is made, confirmed
and given a new password: `Register`, `RegisterConfirmation`, `ConfirmEmail`,
`ResendEmailConfirmation`, `ForgotPassword` and `ResetPassword`.

None of them asks for a login.  What they call is a parameter (`Services`): the `UserManager` of
ASP.NET Core Identity over the tables, an `IEmailSender`, and the two ways between a token and the
code that stands for it in a link.  The sender of the site is `emailSender`, which throws.

A link is the page it leads to and its values.  A return URL is left out, and so is what is logged.
-/

namespace Manafont.Web

open Db

structure Link where
  page : String
  userId : Option DotNetString
  code : DotNetString

structure Mail where
  email : DotNetString
  subject : String
  text : String
  link : Link

inductive IdentityResult where
  | success
  | failed (errors : List String)

/-- `UserManager`, and the stored hash of a password. -/
structure UserManager (σ : Type) where
  findByEmailAsync : DotNetString → σ → Option ManafontUser
  findByIdAsync : DotNetString → σ → Option ManafontUser
  isEmailConfirmedAsync : ManafontUser → σ → Bool
  /-- An account for an email and with a password. -/
  createAsync : DotNetString → DotNetString → σ → IdentityResult × ManafontUser × σ
  generateEmailConfirmationTokenAsync : ManafontUser → σ → DotNetString
  confirmEmailAsync : ManafontUser → DotNetString → σ → IdentityResult × σ
  generatePasswordResetTokenAsync : ManafontUser → σ → DotNetString
  /-- A token and a new password. -/
  resetPasswordAsync : ManafontUser → DotNetString → DotNetString → σ → IdentityResult × σ
  /-- By the id of an account. -/
  passwordHash : DotNetString → σ → Option DotNetString

abbrev IEmailSender := Mail → Except Exn Unit

def emailSender : IEmailSender := fun _ => .error (.other "System.NotImplementedException")

structure Services (σ : Type) extends UserManager σ where
  sendMail : IEmailSender
  /-- `WebEncoders.Base64UrlEncode` of the bytes of a token. -/
  encode : DotNetString → DotNetString
  decode : DotNetString → Except Exn DotNetString
  requireConfirmedAccount : Bool

/-- The tables, the mails that have gone out, and who is signed in. -/
structure Site (σ : Type) where
  store : σ
  delivered : List Mail
  signedIn : Option ManafontUser

abbrev WebIo (σ : Type) := EStateM Exn (Site σ)

inductive ActionResult where
  | page
  | redirectToPage (page : String) (email : Option DotNetString)
  | localRedirect
  | notFound (message : String)
  | badRequest (message : String)

structure Response where
  result : ActionResult
  modelErrors : List String
  statusMessage : Option String
  emailConfirmationUrl : Option Link
  inputCode : Option DotNetString

def Response.of (result : ActionResult) : Response where
  result := result
  modelErrors := []
  statusMessage := none
  emailConfirmationUrl := none
  inputCode := none

section Pages

variable {σ : Type} (services : Services σ)

def sendEmailAsync (mail : Mail) : WebIo σ Unit :=
  match services.sendMail mail with
  | .ok () => modify fun w => { w with delivered := w.delivered ++ [mail] }
  | .error e => throw e

def confirmationLink (user : ManafontUser) (store : σ) : Link where
  page := "/Account/ConfirmEmail"
  userId := some user.id
  code := services.encode (services.generateEmailConfirmationTokenAsync user store)

def confirmationMail (email : DotNetString) (user : ManafontUser) (store : σ) : Mail where
  email := email
  subject := "Confirm your email"
  text := "Please confirm your account by "
  link := confirmationLink services user store

def resetMail (email : DotNetString) (user : ManafontUser) (store : σ) : Mail where
  email := email
  subject := "Reset Password"
  text := "Please reset your password by "
  link := {
    page := "/Account/ResetPassword"
    userId := none
    code := services.encode (services.generatePasswordResetTokenAsync user store) }

/-- `OnPostAsync` of `RegisterModel`.  The account stays when the mail throws. -/
def registerPost (isValid : Bool) (email password : DotNetString) : WebIo σ Response :=
  if isValid = false then return .of .page
  else do
    let w ← get
    match services.createAsync email password w.store with
    | (.success, user, store) =>
      set { w with store := store }
      sendEmailAsync services (confirmationMail services email user store)
      if services.requireConfirmedAccount then
        return .of (.redirectToPage "RegisterConfirmation" (some email))
      else
        modify fun w => { w with signedIn := some user }
        return .of .localRedirect
    | (.failed errors, _, store) =>
      set { w with store := store }
      return { Response.of .page with modelErrors := errors }

/-- `OnGetAsync` of `RegisterConfirmationModel`, which shows the link. -/
def registerConfirmationGet (email : Option DotNetString) : WebIo σ Response :=
  match email with
  | none => return .of (.redirectToPage "/Index" none)
  | some email => do
    let w ← get
    match services.findByEmailAsync email w.store with
    | none => return .of (.notFound ("Unable to load user with email '" ++ email.text ++ "'."))
    | some user =>
      return { Response.of .page with
        emailConfirmationUrl := some (confirmationLink services user w.store) }

def confirmEmailGet (userId code : Option DotNetString) : WebIo σ Response :=
  match userId, code with
  | some userId, some code => do
    let w ← get
    match services.findByIdAsync userId w.store with
    | none => return .of (.notFound ("Unable to load user with ID '" ++ userId.text ++ "'."))
    | some user =>
      match services.decode code with
      | .error e => throw e
      | .ok token =>
        let (result, store) := services.confirmEmailAsync user token w.store
        set { w with store := store }
        return { Response.of .page with
          statusMessage := match result with
            | .success => some "Thank you for confirming your email."
            | .failed _ => some "Error confirming your email." }
  | _, _ => return .of (.redirectToPage "/Index" none)

/-- `OnPostAsync` of `ResendEmailConfirmationModel`.  What it says in the end stands among the
errors. -/
def resendEmailConfirmationPost (isValid : Bool) (email : DotNetString) : WebIo σ Response :=
  if isValid = false then return .of .page
  else do
    let w ← get
    match services.findByEmailAsync email w.store with
    | none =>
      return { Response.of .page with
        modelErrors := ["Verification email sent. Please check your email."] }
    | some user =>
      sendEmailAsync services (confirmationMail services email user w.store)
      return { Response.of .page with
        modelErrors := ["Verification email sent. Please check your email."] }

def forgotPasswordPost (isValid : Bool) (email : DotNetString) : WebIo σ Response :=
  if isValid = false then return .of .page
  else do
    let w ← get
    match services.findByEmailAsync email w.store with
    | none => return .of (.redirectToPage "./ForgotPasswordConfirmation" none)
    | some user =>
      if services.isEmailConfirmedAsync user w.store = false then
        return .of (.redirectToPage "./ForgotPasswordConfirmation" none)
      else
        sendEmailAsync services (resetMail services email user w.store)
        return .of (.redirectToPage "./ForgotPasswordConfirmation" none)

def resetPasswordGet (code : Option DotNetString) : WebIo σ Response :=
  match code with
  | none => return .of (.badRequest "A code must be supplied for password reset.")
  | some code =>
    match services.decode code with
    | .error e => throw e
    | .ok token => return { Response.of .page with inputCode := some token }

def resetPasswordPost (isValid : Bool) (email password token : DotNetString) : WebIo σ Response :=
  if isValid = false then return .of .page
  else do
    let w ← get
    match services.findByEmailAsync email w.store with
    | none => return .of (.redirectToPage "./ResetPasswordConfirmation" none)
    | some user =>
      let (result, store) := services.resetPasswordAsync user token password w.store
      set { w with store := store }
      match result with
      | .success => return .of (.redirectToPage "./ResetPasswordConfirmation" none)
      | .failed errors => return { Response.of .page with modelErrors := errors }

end Pages

end Manafont.Web
