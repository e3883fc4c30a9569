import SmoFramework.Authority.MeshAuthority
import SmoFramework.Certificate.Chain

/-! Signing a request during bootstrap (`core/authority/authority`), and whether the certificates that
an authority issues verify under the key they name as their issuer. -/
namespace SmoFramework
open Certificate

variable (crypto : CryptoProvider)

/-- What the function signs verifies under this key and under no other one. -/
def CryptoProvider.SignsFor (sign : ℕ → Bytes → Result Bytes) (pubkey : Bytes) : Prop :=
  ∀ randomness message signature, sign randomness message = .ok signature →
    signature ≠ [] ∧ ∀ key, crypto.verify message signature key = .ok (key = pubkey)

lemma Certificate.verify_sign_iff {crypto : CryptoProvider} {sign : ℕ → Bytes → Result Bytes}
    {pubkey : Bytes} (h : crypto.SignsFor sign pubkey) {randomness : ℕ} {body : Certificate}
    {signature : Bytes} (hsign : sign randomness body.serialize = .ok signature) :
    { body with signature }.verify crypto = .ok true ↔ body.issuerPubkey = pubkey := by
  obtain ⟨hne,hverify⟩ := h randomness _ _ hsign
  rw [verify,if_neg hne,serialize_sign,hverify]
  simp

namespace Authority
open Genesis (text bytesToHex)

structure BootstrapSignRequest where
  csrBlob : Bytes := []
  meshId : Bytes := []
  slotToken : Bytes := []

namespace MeshAuthority

variable (call : SignCall)

/-- The certificate before it is signed: it is for an authority and names the root as its issuer. -/
def bootstrapBody (csr : CertificateSigningRequest) (meshId : Bytes)
    (a : MeshAuthority) : Certificate :=
  let notBefore := call.issuedMs / 1000
  { subjectPubkey := csr.newPublicKey
    issuerPubkey := a.rootPublicKey
    meshId
    role := .authority
    displayName := normalizeDisplayName csr.displayName
    epoch := a.epoch
    notBefore
    notAfter := notBefore+31536000 }

def signBootstrap (randomness : ℕ) (body : Certificate)
    (a : MeshAuthority) : Result (Certificate × Bytes) :=
  if a.rootPublicKey = [] then
    .error (smoErrCert 210 .critical .noRetry .manualIntervention
      "root public key not loaded for bootstrap signing")
  else if a.authoritySecretKey = [] ∧ a.signerContext.isNone then
    .error (smoErrCert 210 .critical .noRetry .manualIntervention
      "no signing key available for bootstrap")
  else do
    let signature ← a.signWith crypto randomness body.serialize
    let fingerprint ← crypto.hash { body with signature }.serialize
    pure ({ body with signature },fingerprint)

/-- The slot token is only looked at for being there. -/
def certifyBootstrap (req : BootstrapSignRequest) (a : MeshAuthority) :
    Result (CryptoProvider × CertificateSigningRequest × Certificate × Bytes) :=
  if ¬a.initialized then .error notInitialized
  else match a.crypto with
    | none => .error (cryptoErr "crypto not configured")
    | some crypto => do
      let csr ← CertificateSigningRequest.deserialize req.csrBlob
      let valid ← csr.verify crypto csr.newPublicKey
      if ¬valid then .error (smoErrCert 209 .alert .noRetry .none "CSR signature invalid")
      else if req.slotToken = [] then
        .error (smoErrCert 220 .error .noRetry .none "bootstrap slot token is empty")
      else do
        validateDisplayName csr.displayName
        let (cert,fingerprint) ← a.signBootstrap crypto call.randomness
          (a.bootstrapBody call csr req.meshId)
        pure (crypto,csr,cert,fingerprint)

/-- The node is recorded as an authority, and its certificate as one of the authority's key. -/
def bootstrapEnrollment (csr : CertificateSigningRequest)
    (meshId fingerprint : Bytes) (a : MeshAuthority) : Result Enrollment := do
  let nodeId ← nodeIdFromPublicKey crypto csr.newPublicKey
  pure { nodeIdHex := bytesToHex nodeId
         displayName := normalizeDisplayName csr.displayName
         meshId
         role := text "Authority"
         certFingerprint := bytesToHex fingerprint
         certIssuerPubkeyHex := bytesToHex a.authorityPublicKey
         certSubjectPubkeyHex := bytesToHex csr.newPublicKey
         epoch := a.epoch
         certIssuedAt := call.recordedMs
         certExpiresAt := call.expiryMs+31536000000 }

def signBootstrapCsr (req : BootstrapSignRequest) (a : MeshAuthority)
    (r : Registry) : Result Certificate × Registry :=
  match a.certifyBootstrap call req with
  | .error e => (.error e,r)
  | .ok (crypto,csr,cert,fingerprint) => match a.implRegistry with
    | none => (.ok cert,r)
    | some db => match a.bootstrapEnrollment crypto call csr req.meshId fingerprint with
      | .error e => (.error e,r)
      | .ok enrollment => match enrollNode call.enroll db enrollment r with
        | (.error e,r) => (.error e,r)
        | (.ok _,r) => (.ok cert,r)

/-! Whose signature a certificate carries. -/

variable {cert : Certificate} {a : MeshAuthority}

lemma signBootstrap_eq_ok {crypto : CryptoProvider}
    (h : a.signBootstrap crypto randomness body = .ok (cert,fingerprint)) :
    ∃ signature, a.signWith crypto randomness body.serialize = .ok signature ∧
      cert = { body with signature } := by
  simp only [signBootstrap,ite_error_eq_ok,bind_eq_ok] at h
  obtain ⟨-,-,signature,hsign,hashed,-,hcert⟩ := h
  cases hcert
  exact ⟨signature,hsign,rfl⟩

variable {call}

lemma certifyBootstrap_eq_ok {crypto : CryptoProvider}
    (h : a.certifyBootstrap call req = .ok (crypto,csr,cert,fingerprint)) :
    a.crypto = some crypto ∧ a.signBootstrap crypto call.randomness
      (a.bootstrapBody call csr req.meshId) = .ok (cert,fingerprint) := by
  unfold certifyBootstrap at h
  rw [ite_error_eq_ok] at h
  cases hcrypto : a.crypto with
  | none =>
    rw [hcrypto] at h
    cases h.2
  | some crypto' =>
    rw [hcrypto] at h
    simp only [bind_eq_ok,ite_error_eq_ok] at h
    obtain ⟨-,csr',-,valid,-,-,-,u,-,signed,hsigned,hresult⟩ := h
    cases hresult
    exact ⟨rfl,hsigned⟩

lemma signBootstrapCsr_eq_ok
    (h : (a.signBootstrapCsr call req r).1 = .ok cert) : ∃ crypto csr fingerprint,
      a.certifyBootstrap call req = .ok (crypto,csr,cert,fingerprint) := by
  unfold signBootstrapCsr at h
  cases hcertify : a.certifyBootstrap call req with
  | error e => simp [hcertify] at h
  | ok result =>
    obtain ⟨crypto,csr,cert',fingerprint⟩ := result
    have hcert : cert' = cert := by
      simp only [hcertify] at h
      cases himpl : a.implRegistry with
      | none =>
        simp only [himpl] at h
        exact Except.ok.inj h
      | some db =>
        simp only [himpl] at h
        cases henrollment : a.bootstrapEnrollment crypto call csr req.meshId fingerprint with
        | error e => simp [henrollment] at h
        | ok e =>
          simp only [henrollment] at h
          rcases enrollNode_cases call.enroll db e r with ⟨err,herr⟩ | ⟨r',hr',-⟩
          · simp [herr] at h
          · simp only [hr'] at h
            exact Except.ok.inj h
    exact ⟨crypto,csr,fingerprint,by rw [hcert]⟩

/-- A certificate of `sign_csr` verifies, and one of `sign_bootstrap_csr` does so exactly if the root
has the same key as the authority, who signs it. -/
theorem issued_verifies_iff (a : MeshAuthority) (crypto : CryptoProvider)
    (hcrypto : a.crypto = some crypto)
    (hsigns : crypto.SignsFor (a.signWith crypto) a.authorityPublicKey) (call : SignCall)
    (r : Registry) (cert : Certificate) :
    (∀ csrBlob meshId, (a.signCsr call csrBlob meshId r).1 = .ok cert →
      cert.verify crypto = .ok true) ∧
    ∀ req, (a.signBootstrapCsr call req r).1 = .ok cert →
      (cert.verify crypto = .ok true ↔ a.rootPublicKey = a.authorityPublicKey) := by
  constructor
  · intro csrBlob meshId h
    obtain ⟨crypto',csr,hcertified,-⟩ := signCsr_eq_ok h
    cases hcrypto.symm.trans hcertified.configured
    obtain ⟨body,signature,hissuer,hsign,rfl⟩ := issueCertificate_signed hcertified.issued
    exact (verify_sign_iff hsigns hsign).mpr hissuer
  · intro req h
    obtain ⟨crypto',csr,fingerprint,hcertify⟩ := signBootstrapCsr_eq_ok h
    obtain ⟨hcrypto',hboot⟩ := certifyBootstrap_eq_ok hcertify
    cases hcrypto.symm.trans hcrypto'
    obtain ⟨signature,hsign,rfl⟩ := signBootstrap_eq_ok hboot
    exact verify_sign_iff hsigns hsign

def keyedSuite : CryptoProvider where
  verify _ signature key := .ok (signature = 0::key)
  sign _ _ secret := .ok (0::secret)
  hash := .ok

def twoKeys : MeshAuthority where
  initialized := true
  crypto := some keyedSuite
  authorityPublicKey := [4]
  authoritySecretKey := [4]
  rootPublicKey := [1]

def nodeCsr : CertificateSigningRequest :=
  { newPublicKey := [2], displayName := [110], signature := [0,2] }

lemma signsFor_twoKeys : keyedSuite.SignsFor (twoKeys.signWith keyedSuite) [4] := by
  intro randomness message signature hsign
  cases hsign
  simp [keyedSuite,twoKeys,@eq_comm Bytes _ [4]]

theorem issued_verifies_twoKeys : keyedSuite.SignsFor (twoKeys.signWith keyedSuite) [4] ∧
    ∃ cert, (twoKeys.signCsr {} nodeCsr.serialize [109] {}).1 = .ok cert ∧
      cert.verify keyedSuite = .ok true := by
  have hcert : ∃ cert, (twoKeys.signCsr {} nodeCsr.serialize [109] {}).1 = .ok cert := ⟨_,rfl⟩
  obtain ⟨cert,hcert⟩ := hcert
  exact ⟨signsFor_twoKeys,cert,hcert,
    (issued_verifies_iff twoKeys keyedSuite rfl signsFor_twoKeys {} {} cert).1 _ _ hcert⟩

/-- The certificate names the root, and its signature is the authority's. -/
theorem bootstrap_not_verifies : keyedSuite.SignsFor (twoKeys.signWith keyedSuite) [4] ∧
    ∃ cert, (twoKeys.signBootstrapCsr {} { csrBlob := nodeCsr.serialize, slotToken := [115] } {}).1 =
        .ok cert ∧ cert.issuerPubkey = [1] ∧ cert.verify keyedSuite = .ok false :=
  ⟨signsFor_twoKeys,_,rfl,rfl,rfl⟩

end MeshAuthority
end Authority
end SmoFramework
