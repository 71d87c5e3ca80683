import Manafont.DotNet.Runtime

/-!
# `CertUtils`

`Manafont.Game.Common/CertUtils.cs`: the callback by which the server judges the
certificate of a client and a client that of the server.  It lets chain errors of the
handshake through and builds a chain of its own, in which only `Resources.RootCert` is
trusted.

`X509Platform` is what the platform knows of certificates: the chain it builds under
a policy, and the errors that a verification flag masks.  A chain whose root is not in
the custom store has the status `UntrustedRoot` or `PartialChain`, and
`AllowUnknownCertificateAuthority` masks just these two, so a certificate is accepted without
an anchor exactly when its chain has errors and all of them are masked
(`accepts_only_anchored_iff`).
-/

namespace Manafont.Game

abbrev SslPolicyErrors := BitVec 32

namespace SslPolicyErrors

def none : SslPolicyErrors := 0
def remoteCertificateNotAvailable : SslPolicyErrors := 1
def remoteCertificateChainErrors : SslPolicyErrors := 4

end SslPolicyErrors

inductive X509ChainStatusFlags where
  | notTimeValid
  | notTimeNested
  | revoked
  | notSignatureValid
  | notValidForUsage
  | untrustedRoot
  | revocationStatusUnknown
  | cyclic
  | invalidExtension
  | invalidPolicyConstraints
  | invalidBasicConstraints
  | invalidNameConstraints
  | hasNotSupportedNameConstraint
  | hasNotDefinedNameConstraint
  | hasNotPermittedNameConstraint
  | hasExcludedNameConstraint
  | partialChain
  | ctlNotTimeValid
  | ctlNotSignatureValid
  | ctlNotValidForUsage
  | hasWeakSignature
  | offlineRevocation
  | noIssuanceChainPolicy
  | explicitDistrust
  | hasNotSupportedCriticalExtension
  deriving DecidableEq, Repr

inductive X509RevocationMode where
  | noCheck
  | online
  | offline
  deriving DecidableEq, Repr

inductive X509ChainTrustMode where
  | system
  | customRootTrust
  deriving DecidableEq, Repr

abbrev X509VerificationFlags := BitVec 32

def allowUnknownCertificateAuthority : X509VerificationFlags := 0x10

structure X509ChainPolicy (Cert : Type) where
  revocationMode : X509RevocationMode
  verificationFlags : X509VerificationFlags
  trustMode : X509ChainTrustMode
  customTrustStore : List Cert

/-- What `X509Chain.Build` has built, from the certificate to the root. -/
structure X509Chain (Cert : Type) where
  elements : List Cert
  elements_ne : elements ≠ []
  chainStatus : List X509ChainStatusFlags

def X509Chain.root {Cert : Type} (chain : X509Chain Cert) : Cert :=
  chain.elements.getLast chain.elements_ne

structure X509Platform (Cert : Type) where
  chain : X509ChainPolicy Cert → Cert → X509Chain Cert
  masks : X509VerificationFlags → X509ChainStatusFlags → Bool
  masks_allowUnknown : ∀ status, masks allowUnknownCertificateAuthority status = true ↔
    status = .untrustedRoot ∨ status = .partialChain
  unknown_of_not_mem : ∀ policy cert, policy.trustMode = .customRootTrust →
    (chain policy cert).root ∉ policy.customTrustStore →
      .untrustedRoot ∈ (chain policy cert).chainStatus ∨
        .partialChain ∈ (chain policy cert).chainStatus

section CertUtils

variable {Cert : Type} (platform : X509Platform Cert) (rootCert : Cert)

/-- `X509Chain.Build`: every status is masked. -/
def X509Platform.build (policy : X509ChainPolicy Cert) (cert : Cert) : Bool :=
  (platform.chain policy cert).chainStatus.all (platform.masks policy.verificationFlags)

def manafontPolicy : X509ChainPolicy Cert where
  revocationMode := .noCheck
  verificationFlags := allowUnknownCertificateAuthority
  trustMode := .customRootTrust
  customTrustStore := [rootCert]

/-- `CheckManafontCert`.  It does not look at `sender` and `baseChain`. -/
def checkManafontCert (certificate : Option Cert) (policyErrors : SslPolicyErrors) :
    Except Exn Bool :=
  match certificate with
  | none => .error (.authentication "Remote certificate not supplied")
  | some cert =>
    if policyErrors = .remoteCertificateNotAvailable then
      .error (.authentication "Remote certificate not supplied")
    else if policyErrors ≠ .none ∧ policyErrors ≠ .remoteCertificateChainErrors then .ok false
    else .ok (platform.build (manafontPolicy rootCert) cert)

/-- The certificate has a chain to `Resources.RootCert` without an error. -/
def Anchored (cert : Cert) : Prop :=
  (platform.chain (manafontPolicy rootCert) cert).root = rootCert ∧
    (platform.chain (manafontPolicy rootCert) cert).chainStatus = []

def OnlyMaskedErrors (cert : Cert) : Prop :=
  (platform.chain (manafontPolicy rootCert) cert).chainStatus ≠ [] ∧
    ∀ status ∈ (platform.chain (manafontPolicy rootCert) cert).chainStatus,
      status = .untrustedRoot ∨ status = .partialChain

variable {platform rootCert}

theorem checkManafontCert_eq_true_iff {certificate : Option Cert}
    {policyErrors : SslPolicyErrors} :
    checkManafontCert platform rootCert certificate policyErrors = .ok true ↔
      (policyErrors = .none ∨ policyErrors = .remoteCertificateChainErrors) ∧
        ∃ cert, certificate = some cert ∧
          ∀ status ∈ (platform.chain (manafontPolicy rootCert) cert).chainStatus,
            status = .untrustedRoot ∨ status = .partialChain := by
  cases certificate with
  | none => simp [checkManafontCert]
  | some cert =>
    have hbuild : platform.build (manafontPolicy rootCert) cert = true ↔
        ∀ status ∈ (platform.chain (manafontPolicy rootCert) cert).chainStatus,
          status = .untrustedRoot ∨ status = .partialChain := by
      rw [X509Platform.build, List.all_eq_true]
      exact forall₂_congr fun status _ => platform.masks_allowUnknown status
    rw [checkManafontCert]
    by_cases hnone : policyErrors = .none
    · subst hnone
      rw [if_neg (by decide), if_neg (by simp), Except.ok.injEq, hbuild]
      simp
    · by_cases hchain : policyErrors = .remoteCertificateChainErrors
      · subst hchain
        rw [if_neg (by decide), if_neg (by simp), Except.ok.injEq, hbuild]
        simp
      · refine iff_of_false ?_ fun h => h.1.elim hnone hchain
        split
        · simp
        · simp [hnone, hchain]

theorem anchored_of_chainStatus_nil {cert : Cert}
    (h : (platform.chain (manafontPolicy rootCert) cert).chainStatus = []) :
    Anchored platform rootCert cert := by
  refine ⟨?_, h⟩
  by_contra hroot
  have hunknown := platform.unknown_of_not_mem (manafontPolicy rootCert) cert rfl
    (by simpa [manafontPolicy] using hroot)
  rw [h] at hunknown
  rcases hunknown with huntrusted | hpartial
  · cases huntrusted
  · cases hpartial

/-- **What is accepted is anchored, except for certificates whose chain has errors, all of
them masked.** -/
theorem accepts_only_anchored_iff (platform : X509Platform Cert) (rootCert : Cert)
    (certificate : Option Cert) (policyErrors : SslPolicyErrors) :
    (checkManafontCert platform rootCert certificate policyErrors = .ok true →
        ∃ cert, certificate = some cert ∧ Anchored platform rootCert cert) ↔
      ¬ ((policyErrors = .none ∨ policyErrors = .remoteCertificateChainErrors) ∧
        ∃ cert, certificate = some cert ∧ OnlyMaskedErrors platform rootCert cert) := by
  rw [checkManafontCert_eq_true_iff]
  constructor
  · rintro h ⟨hpolicy, cert, rfl, hne, hmasked⟩
    obtain ⟨cert', hcert', -, hnil⟩ := h ⟨hpolicy, cert, rfl, hmasked⟩
    cases hcert'
    exact hne hnil
  · rintro h ⟨hpolicy, cert, rfl, hmasked⟩
    refine ⟨cert, rfl, anchored_of_chainStatus_nil ?_⟩
    by_contra hne
    exact h ⟨hpolicy, cert, rfl, hne, hmasked⟩

end CertUtils

/-! ### A certificate of nobody's -/

/-- Two certificates that are signed by themselves, of which `true` is `Resources.RootCert`. -/
def selfSigned : X509Platform Bool where
  chain policy cert := {
    elements := [cert], elements_ne := by simp
    chainStatus := if cert ∈ policy.customTrustStore then [] else [.untrustedRoot] }
  masks flags status := flags = allowUnknownCertificateAuthority ∧
    (status = .untrustedRoot ∨ status = .partialChain)
  masks_allowUnknown status := by simp
  unknown_of_not_mem policy cert _ h := by
    have hcert : cert ∉ policy.customTrustStore := h
    simp [hcert]

/-- **Anybody's self-signed certificate is accepted.** -/
theorem selfSigned_accepted :
    checkManafontCert selfSigned true (some false) .remoteCertificateChainErrors = .ok true ∧
      ¬ ∃ cert, some false = some cert ∧ Anchored selfSigned true cert := by
  refine ⟨by decide, ?_⟩
  rintro ⟨cert, hcert, hroot, -⟩
  cases hcert
  cases hroot

end Manafont.Game
