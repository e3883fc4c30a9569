import SmoFramework.Authority.Bootstrap
import SmoFramework.Crypto.RecoveryCrypto

/-! The longer life of an authority (`core/authority/authority`): the rotation of its key in two calls,
and the intermediate authorities it trusts. The files that a rotation writes and the registry's copies
of the intermediate authorities are left out, since nothing below reads them. -/
namespace SmoFramework.Authority
open Crypto Library.Delegation MeshAuthority List
open Genesis (text bytesToHex)

structure AuthorityKeyRotation where
  epoch : UInt64 := 1
  previousAuthorityPubkey : Bytes := []
  currentAuthorityPubkey : Bytes := []
  rotatedAt : Int64 := 0
  rotationReason : Bytes := []
  rotationPending : Bool := false
  deriving DecidableEq, Repr

structure IntermediateCA where
  caId : Bytes := []
  certificate : Certificate := {}
  status : Bytes := []
  deriving DecidableEq, Repr

/-- The members that the calls below read besides those of `MeshAuthority`. -/
structure AuthorityState extends MeshAuthority where
  hsmEnabled : Bool := false
  meshId : Bytes := []
  rotationState : AuthorityKeyRotation := {}
  intermediateCas : List IntermediateCA := []

/-- What is outside the authority: the key generator of the suite, which may be missing, and what
sealing a secret needs. -/
structure RotationPlatform (σ : Type*) where
  generateKeypair : Option (ℕ → Result KeypairResult)
  gcm : Gcm
  argon2 : Argon2
  rng : RngRef σ

namespace AuthorityState
variable {σ : Type*} (p : RotationPlatform σ) (reason : Bytes)

def beginRotation (nowMs : Int64) (keypair : KeypairResult) (s : AuthorityState) : AuthorityState :=
  { s with
    rotationState :=
      { previousAuthorityPubkey := s.authorityPublicKey
        currentAuthorityPubkey := keypair.publicKey
        epoch := s.epoch+1
        rotatedAt := nowMs / 1000
        rotationReason := reason
        rotationPending := true } }

def initiateKeyRotation (randomness : ℕ) (nowMs : Int64) (s : AuthorityState) :
    Result Bytes × AuthorityState :=
  if ¬s.initialized then (.error notInitialized,s)
  else if s.rotationState.rotationPending then
    (.error (smoErrCert 230 .error .noRetry .none "key rotation already in progress"),s)
  else match s.crypto,p.generateKeypair with
    | some _,some generateKeypair => match generateKeypair randomness with
      | .error e => (.error e,s)
      | .ok keypair => (.ok (bytesToHex keypair.publicKey),s.beginRotation reason nowMs keypair)
    | _,_ => (.error (cryptoErr "no keygen function"),s)

variable (cert : Certificate)

/-- `Certificate::verify` with a provider; a rotation is only pending when there is one. -/
def rootSigned (s : AuthorityState) : Bool :=
  match s.crypto with
  | some crypto => cert.verify crypto = .ok true
  | none => false

variable (s : AuthorityState)

def adoptRotation : AuthorityState :=
  { s with
    epoch := s.rotationState.epoch
    authorityPublicKey := s.rotationState.currentAuthorityPubkey
    authoritySecretKey := [] }

def endRotation : AuthorityState :=
  { s with rotationState := { s.rotationState with rotationPending := false } }

variable (passphrase : Bytes) (ctx : σ)

/-- `complete_key_rotation`. In software mode the secret key, cleared by now, is sealed; if that fails
the rotation stays pending. -/
def completeKeyRotation (s : AuthorityState) : Result Unit × AuthorityState :=
  if ¬s.initialized then (.error notInitialized,s)
  else if ¬s.rotationState.rotationPending then
    (.error (smoErrCert 231 .error .noRetry .none "no key rotation in progress"),s)
  else if cert.issuerPubkey ≠ s.rootPublicKey then
    (.error (smoErrCert 232 .error .noRetry .none "authority certificate not signed by root"),s)
  else if cert.subjectPubkey ≠ s.rotationState.currentAuthorityPubkey then
    (.error (smoErrCert 233 .error .noRetry .none "authority certificate subject mismatch"),s)
  else if ¬s.rootSigned cert then
    (.error (smoErrCert 234 .error .noRetry .none "root signature verification failed"),s)
  else
    let s := s.adoptRotation
    if ¬s.hsmEnabled ∧ s.signerContext.isNone then
      match (RecoveryCryptoProvider.sealEnvelope p.gcm p.argon2 s.authoritySecretKey s.meshId
          passphrase {} p.rng ctx).1 with
      | .error e => (.error e,s)
      | .ok _ => (.ok (),s.endRotation)
    else (.ok (),s.endRotation)

/-! The key after a rotation. -/

/-- The authority signs, and what it signs verifies under its public key. -/
def HoldsKey (crypto : CryptoProvider) (s : AuthorityState) : Prop :=
  s.hasAuthorityKey = true ∧ crypto.SignsFor (s.signWith crypto) s.authorityPublicKey

inductive RotationStep (σ : Type*)
  | initiate (reason : Bytes) (randomness : ℕ) (nowMs : Int64)
  | complete (cert : Certificate) (passphrase : Bytes) (ctx : σ)

def rotate : RotationStep σ → AuthorityState
  | .initiate reason randomness nowMs => (s.initiateKeyRotation p reason randomness nowMs).2
  | .complete cert passphrase ctx => (s.completeKeyRotation p cert passphrase ctx).2

variable {p}

lemma initiateKeyRotation_cases (randomness : ℕ) (nowMs : Int64)
    (s : AuthorityState) : (∃ e, s.initiateKeyRotation p reason randomness nowMs = (.error e,s)) ∨
    ∃ keypair, s.rotationState.rotationPending = false ∧
      s.initiateKeyRotation p reason randomness nowMs =
        (.ok (bytesToHex keypair.publicKey),s.beginRotation reason nowMs keypair) := by
  unfold initiateKeyRotation
  split
  · exact .inl ⟨_,rfl⟩
  · split
    · exact .inl ⟨_,rfl⟩
    · rename_i hpending
      split
      · split
        · exact .inl ⟨_,rfl⟩
        · exact .inr ⟨_,Bool.not_eq_true _ ▸ hpending,rfl⟩
      · exact .inl ⟨_,rfl⟩

lemma completeKeyRotation_cases (s : AuthorityState) :
    (∃ e, s.completeKeyRotation p cert passphrase ctx = (.error e,s) ∨
      s.completeKeyRotation p cert passphrase ctx = (.error e,s.adoptRotation)) ∨
    s.completeKeyRotation p cert passphrase ctx = (.ok (),s.adoptRotation.endRotation) := by
  unfold completeKeyRotation
  iterate 5
    split
    · exact .inl ⟨_,.inl rfl⟩
  dsimp only
  split
  · split
    · exact .inl ⟨_,.inr rfl⟩
    · exact .inr rfl
  · exact .inr rfl

lemma signerContext_rotate (step : RotationStep σ) :
    (s.rotate p step).signerContext = s.signerContext := by
  cases step with
  | initiate reason randomness nowMs =>
    rcases initiateKeyRotation_cases (p := p) reason randomness nowMs s with ⟨e,h⟩ | ⟨_,-,h⟩
    · rw [rotate,h]
    · rw [rotate,h]
      rfl
  | complete cert passphrase ctx =>
    rcases completeKeyRotation_cases (p := p) cert passphrase ctx s with ⟨e,h | h⟩ | h
    · rw [rotate,h]
    · rw [rotate,h]
      rfl
    · rw [rotate,h]
      rfl

variable {s : AuthorityState} {s}

lemma rotationState_rotate (hbefore : s.rotationState.rotationPending = true)
    (hafter : (s.rotate p step).rotationState.rotationPending = true) :
    (s.rotate p step).rotationState = s.rotationState := by
  cases step with
  | initiate reason randomness nowMs =>
    rcases initiateKeyRotation_cases (p := p) reason randomness nowMs s with ⟨e,h⟩ | ⟨_,hidle,-⟩
    · rw [rotate,h]
    · rw [hidle] at hbefore
      cases hbefore
  | complete cert passphrase ctx =>
    rcases completeKeyRotation_cases (p := p) cert passphrase ctx s with ⟨e,h | h⟩ | h
    · rw [rotate,h]
    · rw [rotate,h]
      rfl
    · rw [rotate,h] at hafter
      cases hafter

lemma signerContext_foldl_rotate (s : AuthorityState) (steps : List (RotationStep σ)) :
    (steps.foldl (rotate p) s).signerContext = s.signerContext := by
  induction steps generalizing s with
  | nil => rfl
  | cons step steps ih => rw [foldl_cons,ih,signerContext_rotate]

lemma rotationState_foldl_rotate {steps : List (RotationStep σ)}
    (hpending : ∀ n, ((steps.take n).foldl (rotate p) s).rotationState.rotationPending = true) :
    (steps.foldl (rotate p) s).rotationState = s.rotationState := by
  induction steps generalizing s with
  | nil => rfl
  | cons step steps ih =>
    rw [foldl_cons,ih fun n => hpending (n+1)]
    exact rotationState_rotate (hpending 0) (hpending 1)

lemma holdsKey_iff {crypto : CryptoProvider} (h : s.authoritySecretKey = []) :
    s.HoldsKey crypto ↔ s.authorityPublicKey ≠ [] ∧
      ∃ sign, s.signerContext = some sign ∧ crypto.SignsFor sign s.authorityPublicKey := by
  unfold HoldsKey hasAuthorityKey
  cases hctx : s.signerContext with
  | none => simp [h]
  | some sign =>
    have hsign : s.signWith crypto = sign := by
      funext randomness data
      simp [signWith,hctx]
    simp [hsign]

lemma issueCertificate_lost {a : MeshAuthority} (hsecret : a.authoritySecretKey = [])
    (hsigner : a.signerContext = none) (crypto : CryptoProvider) (call : SignCall)
    (csr : CertificateSigningRequest) (meshId : Bytes) :
    a.issueCertificate crypto call csr meshId = .error
      (smoErrCert 210 .critical .noRetry .manualIntervention "authority key not loaded") := by
  have hlost : a.hasAuthorityKey = false := by
    simp [hasAuthorityKey,hsecret,hsigner]
  simp [issueCertificate,signCertificate,hlost,bind,Except.bind]

/-- A rotation is begun, stays pending during some further calls, and is completed. The authority then
has the new public key, and holds its secret half exactly if it has a remote signer for it; without
one it issues nothing. -/
theorem rotation_holdsKey_iff (crypto : CryptoProvider) (s begun done : AuthorityState)
    (reason : Bytes) (randomness : ℕ) (nowMs : Int64) (newPubkey : Bytes)
    (between : List (RotationStep σ)) (cert : Certificate) (passphrase : Bytes) (ctx : σ)
    (hinitiate : s.initiateKeyRotation p reason randomness nowMs = (.ok newPubkey,begun))
    (hpending : ∀ n, ((between.take n).foldl (rotate p) begun).rotationState.rotationPending = true)
    (hcomplete : (between.foldl (rotate p) begun).completeKeyRotation p cert passphrase ctx =
      (.ok (),done)) : bytesToHex done.authorityPublicKey = newPubkey ∧
    (done.HoldsKey crypto ↔ done.authorityPublicKey ≠ [] ∧
      ∃ sign, s.signerContext = some sign ∧ crypto.SignsFor sign done.authorityPublicKey) ∧
    (s.signerContext = none → ∀ call csr meshId, done.issueCertificate crypto call csr meshId =
      .error (smoErrCert 210 .critical .noRetry .manualIntervention "authority key not loaded")) := by
  obtain ⟨hkey,hsigner⟩ : bytesToHex begun.rotationState.currentAuthorityPubkey = newPubkey ∧
      begun.signerContext = s.signerContext := by
    rcases initiateKeyRotation_cases (p := p) reason randomness nowMs s with ⟨e,h⟩ | ⟨_,-,h⟩
    · cases h.symm.trans hinitiate
    · cases h.symm.trans hinitiate
      exact ⟨rfl,rfl⟩
  obtain rfl : (between.foldl (rotate p) begun).adoptRotation.endRotation = done := by
    rcases completeKeyRotation_cases (p := p) cert passphrase ctx
      (between.foldl (rotate p) begun) with ⟨e,h | h⟩ | h
    · cases h.symm.trans hcomplete
    · cases h.symm.trans hcomplete
    · exact congrArg Prod.snd (h.symm.trans hcomplete)
  have hctx : (between.foldl (rotate p) begun).adoptRotation.endRotation.signerContext =
      s.signerContext := (signerContext_foldl_rotate begun between).trans hsigner
  refine ⟨?_,?_,fun hnone call csr meshId => ?_⟩
  · rw [← hkey,← rotationState_foldl_rotate hpending]
    rfl
  · rw [holdsKey_iff rfl,hctx]
  · rw [hnone] at hctx
    exact issueCertificate_lost rfl hctx crypto call csr meshId

def fixedPlatform : RotationPlatform Unit where
  generateKeypair := some fun _ => .ok ⟨[5],[5]⟩
  gcm :=
    { encrypt := fun _ _ _ plain => .ok (plain,List.replicate 16 1)
      decrypt := fun _ _ _ ct _ => .ok ct
      tag_length := by rintro _ _ _ _ _ _ ⟨⟩; rfl
      decrypt_encrypt := by rintro _ _ _ _ _ _ ⟨⟩; rfl }
  argon2 _ _ _ := .replicate 32 0
  rng := ⟨fun _ n => (List.replicate n 0,()),fun _ _ => List.length_replicate⟩

def rootSignedCert : Certificate :=
  { issuerPubkey := [1], subjectPubkey := [5], role := .authority, signature := [0,1] }

def softwareAuthority : AuthorityState := { twoKeys with }

def hsmAuthority : AuthorityState :=
  { twoKeys with hsmEnabled := true, signerContext := some fun _ _ => .ok [0,5] }

theorem rotation_holdsKey_hsm : ∃ begun done,
    hsmAuthority.initiateKeyRotation fixedPlatform [] 0 0 = (.ok (bytesToHex [5]),begun) ∧
    begun.completeKeyRotation fixedPlatform rootSignedCert [] () = (.ok (),done) ∧
    done.HoldsKey MeshAuthority.keyedSuite := by
  refine ⟨_,_,rfl,rfl,?_⟩
  refine (rotation_holdsKey_iff (p := fixedPlatform) keyedSuite hsmAuthority
    (hsmAuthority.initiateKeyRotation fixedPlatform [] 0 0).2 _ [] 0 0 (bytesToHex [5]) []
    rootSignedCert [] () rfl (fun n => ?_) rfl).2.1.mpr ⟨by decide,_,rfl,?_⟩
  · rw [take_nil]
    rfl
  · rintro randomness message signature ⟨⟩
    refine ⟨by decide,fun key => ?_⟩
    change Except.ok (decide ([0,5] = 0::key)) = Except.ok (decide (key = [5]))
    simp [@eq_comm _ key]

/-- In software mode the authority holds its key before the rotation and none after it. -/
theorem rotation_loses_key : ∃ begun done,
    softwareAuthority.hsmEnabled = false ∧ softwareAuthority.signerContext = none ∧
    softwareAuthority.HoldsKey MeshAuthority.keyedSuite ∧
    softwareAuthority.initiateKeyRotation fixedPlatform [] 0 0 = (.ok (bytesToHex [5]),begun) ∧
    begun.completeKeyRotation fixedPlatform rootSignedCert [] () = (.ok (),done) ∧
    done.authoritySecretKey = [] ∧ ¬done.HoldsKey MeshAuthority.keyedSuite := by
  refine ⟨_,_,rfl,rfl,⟨by decide,signsFor_twoKeys⟩,rfl,rfl,rfl,?_⟩
  rw [holdsKey_iff rfl]
  rintro ⟨-,sign,hsign,-⟩
  cases hsign

/-! Intermediate authorities. -/

/-- An active authority is trusted if the root or another active one has issued its certificate. -/
def caRules (rootPubkey : Bytes) : Rules IntermediateCA where
  Valid ca := ca.status = text "active"
  Anchor ca := ca.certificate.issuerPubkey = rootPubkey
  Issued ca issuer := issuer.certificate.subjectPubkey = ca.certificate.issuerPubkey

variable (ca : IntermediateCA)

def trustedIssuer (s : AuthorityState) : Bool :=
  ca.certificate.issuerPubkey = s.rootPublicKey || s.intermediateCas.any fun existing =>
    existing.certificate.subjectPubkey = ca.certificate.issuerPubkey ∧
      existing.status = text "active"

/-- `add_intermediate_ca`: the record is taken as it is, with its status. -/
def addIntermediateCa (s : AuthorityState) : Result Unit × AuthorityState :=
  if ¬s.initialized then (.error notInitialized,s)
  else match s.crypto with
    | none => (.error (cryptoErr "crypto not configured"),s)
    | some crypto =>
      if ca.certificate.verify crypto ≠ .ok true then
        (.error (smoErrCert 240 .error .noRetry .none
          "intermediate CA certificate signature invalid"),s)
      else if ¬s.trustedIssuer ca then
        (.error (smoErrCert 241 .error .noRetry .none "intermediate CA issuer not trusted"),s)
      else (.ok (),{ s with intermediateCas := s.intermediateCas ++ [ca] })

def caIndex (caId : Bytes) (s : AuthorityState) : Option ℕ :=
  s.intermediateCas.findIdx? fun ca => ca.caId = caId

/-- `revoke_intermediate_ca`: of the entries with this id the first one. The reason only goes to the
registry. -/
def revokeIntermediateCa (caId : Bytes) (s : AuthorityState) : Result Unit × AuthorityState :=
  if ¬s.initialized then (.error notInitialized,s)
  else match s.caIndex caId with
    | none => (.error (smoErrCert 242 .error .noRetry .none "intermediate CA not found"),s)
    | some k =>
      let revoked := s.intermediateCas.modify k fun ca => { ca with status := text "revoked" }
      (.ok (),{ s with intermediateCas := revoked })

inductive CaStep
  | add (ca : IntermediateCA)
  | revoke (caId : Bytes)

def manage (s : AuthorityState) : CaStep → AuthorityState
  | .add ca => (s.addIntermediateCa ca).2
  | .revoke caId => (s.revokeIntermediateCa caId).2

def Trusted (s : AuthorityState) : Prop := (caRules s.rootPublicKey).Supported s.intermediateCas

/-- No other active authority rests on the one with this id alone. -/
def Revocable (s : AuthorityState) (caId : Bytes) : Prop :=
  s.initialized = true → ∀ k, s.caIndex caId = some k →
    (caRules s.rootPublicKey).Dispensable s.intermediateCas k

lemma addIntermediateCa_cases (s : AuthorityState) :
    (s.addIntermediateCa ca).2 = s ∨ s.trustedIssuer ca = true ∧
      (s.addIntermediateCa ca).2 = { s with intermediateCas := s.intermediateCas ++ [ca] } := by
  unfold addIntermediateCa
  split
  · exact .inl rfl
  · split
    · exact .inl rfl
    · split
      · exact .inl rfl
      · split
        · exact .inl rfl
        · rename_i htrusted
          exact .inr ⟨not_not.mp htrusted,rfl⟩

lemma Trusted.add (h : s.Trusted) (ca : IntermediateCA) : (s.addIntermediateCa ca).2.Trusted := by
  rcases addIntermediateCa_cases ca s with hsame | ⟨htrusted,hadd⟩
  · rwa [hsame]
  · rw [hadd]
    apply Rules.Supported.concat h
    simp only [trustedIssuer,Bool.or_eq_true,decide_eq_true_eq,any_eq_true] at htrusted
    rcases htrusted with hroot | ⟨issuer,hmem,hissued,hactive⟩
    · exact .inl hroot
    · exact .inr ⟨issuer,hmem,hactive,hissued⟩

lemma Trusted.revoke_iff (h : s.Trusted) (caId : Bytes) :
    (s.revokeIntermediateCa caId).2.Trusted ↔ s.Revocable caId := by
  unfold revokeIntermediateCa Revocable
  by_cases hinit : s.initialized = true
  swap
  · rw [if_pos hinit]
    exact ⟨fun _ hinit' => absurd hinit' hinit,fun _ => h⟩
  rw [if_neg (not_not.mpr hinit)]
  cases hindex : s.caIndex caId with
  | none => simpa using h
  | some k =>
    obtain ⟨ca,hca⟩ : ∃ ca, s.intermediateCas[k]? = some ca :=
      ⟨_,getElem?_eq_getElem (findIdx?_eq_some_iff_getElem.mp hindex).1⟩
    have hset : s.intermediateCas.modify k (fun ca => { ca with status := text "revoked" }) =
        s.intermediateCas.set k { ca with status := text "revoked" } := by
      rw [modify_eq_set_getElem?,hca]
      rfl
    have hrevoked : ¬(caRules s.rootPublicKey).Valid { ca with status := text "revoked" } := by
      intro hactive
      exact absurd hactive (by simp [caRules]; decide)
    dsimp only
    rw [hset,Trusted,Rules.Supported.set_iff h hca hrevoked]
    simp [hinit]

/-- From no intermediate authorities on, all active ones are trusted after every call exactly if no
authority is revoked on whom alone another active one rests. -/
theorem trusted_run_iff (s : AuthorityState) (hempty : s.intermediateCas = [])
    (steps : List CaStep) : (∀ n, ((steps.take n).foldl manage s).Trusted) ↔
      ∀ n caId, steps[n]? = some (.revoke caId) →
        ((steps.take n).foldl manage s).Revocable caId := by
  have hnext : ∀ n step, steps[n]? = some step →
      (steps.take (n+1)).foldl manage s = ((steps.take n).foldl manage s).manage step := by
    intro n step hstep
    rw [take_add_one,hstep,foldl_append]
    rfl
  constructor
  · intro h n caId hstep
    have hafter := h (n+1)
    rw [hnext n _ hstep] at hafter
    exact ((h n).revoke_iff caId).mp hafter
  · intro h n
    induction n with
    | zero =>
      rw [take_zero,foldl_nil,Trusted,hempty]
      exact Rules.supported_nil
    | succ n ih =>
      cases hstep : steps[n]? with
      | none => rwa [take_add_one,hstep,Option.toList_none,append_nil]
      | some step =>
        rw [hnext n step hstep]
        cases step with
        | add ca => exact ih.add ca
        | revoke caId => exact (ih.revoke_iff caId).mpr (h n caId hstep)

def firstCa : IntermediateCA where
  caId := [97]
  certificate := { subjectPubkey := [6], issuerPubkey := [1], signature := [0,1] }
  status := text "active"

def secondCa : IntermediateCA where
  caId := [98]
  certificate := { subjectPubkey := [7], issuerPubkey := [6], signature := [0,6] }
  status := text "active"

theorem trusted_run_last_revoked : softwareAuthority.intermediateCas = [] ∧
    ∀ n, ((([.add firstCa,.add secondCa,.revoke [98]] : List CaStep).take n).foldl manage
      softwareAuthority).Trusted := by
  refine ⟨rfl,(trusted_run_iff softwareAuthority rfl _).mpr ?_⟩
  intro n caId hstep
  match n,hstep with
  | 2,hstep =>
    cases hstep
    intro _ k hk i a c hi ha _ hc hissued
    cases hk
    cases hc
    match i,ha with
    | 0,ha =>
      cases ha
      cases hissued
    | 1,_ => exact absurd rfl hi

/-- The first authority is revoked, and the one it has issued stays active. -/
theorem trust_kept_after_revocation :
    ¬(([.add firstCa,.add secondCa,.revoke [97]] : List CaStep).foldl manage
      softwareAuthority).Trusted := by
  intro h
  rcases h 1 secondCa rfl rfl with hroot | ⟨j,b,hj,hb,hactive,-⟩
  · cases hroot
  · match j,hb with
    | 0,hb =>
      cases hb
      cases hactive
    | 1,_ => exact hj rfl

end AuthorityState
end SmoFramework.Authority
