import SmoFramework.Certificate.Request
import SmoFramework.Authority.Registry

/-! The mesh authority (`core/authority/authority`), as far as joining needs it: it signs requests
for certificates and other data, and keeps the registry. -/
namespace SmoFramework.Authority
open Genesis (text bytesToHex)

/-- The members that the functions below read. `signerContext` is a remote signer; both pointers to
a registry lead to the database at the configured path. -/
structure MeshAuthority where
  initialized : Bool := false
  crypto : Option CryptoProvider := none
  authorityPublicKey : Bytes := []
  authoritySecretKey : Bytes := []
  rootPublicKey : Bytes := []
  epoch : UInt64 := 1
  signerContext : Option (ℕ → Bytes → Result Bytes) := none
  registry_ : Option Connection := none
  implRegistry : Option Connection := none

def notInitialized : Error :=
  smoErr .identity 100 .error .noRetry .retryOperation "authority not initialized"

def cryptoErr : String → Error := smoErrCrypto 100 .error .noRetry .retryOperation

/-- `node_id_from_public_key`: the first 32 bytes of the digest, filled up with zeros. -/
def nodeIdFromPublicKey (crypto : CryptoProvider) (pk : Bytes) : Result Bytes := do
  let digest ← crypto.hash pk
  pure (digest.take 32 ++ List.replicate (32-digest.length) 0)

/-- The clock at its four readings, random bytes, and what happens in the database. -/
structure SignCall where
  issuedMs : Int64 := 0
  recordedMs : Int64 := 0
  expiryMs : Int64 := 0
  randomness : ℕ := 0
  enroll : EnrollCall := {}

namespace MeshAuthority

def hasAuthorityKey (a : MeshAuthority) : Bool :=
  a.authorityPublicKey ≠ [] ∧ (a.signerContext.isSome ∨ a.authoritySecretKey ≠ [])

variable (crypto : CryptoProvider)

def signWith (randomness : ℕ) (data : Bytes) (a : MeshAuthority) : Result Bytes :=
  match a.signerContext with
  | some sign => sign randomness data
  | none => crypto.sign randomness data a.authoritySecretKey

def signCertificate (randomness : ℕ) (cert : Certificate)
    (a : MeshAuthority) : Result Certificate :=
  if ¬a.hasAuthorityKey then
    .error (smoErrCert 210 .critical .noRetry .manualIntervention "authority key not loaded")
  else do
    let signature ← a.signWith crypto randomness cert.serialize
    pure { cert with signature }

variable (call : SignCall)

/-- `issue_certificate`: every certificate is for a member. -/
def issueCertificate (csr : CertificateSigningRequest)
    (meshId : Bytes) (a : MeshAuthority) : Result Certificate := do
  let notBefore := call.issuedMs / 1000
  let cert ← a.signCertificate crypto call.randomness
    { subjectPubkey := csr.newPublicKey
      issuerPubkey := a.authorityPublicKey
      meshId
      role := .member
      displayName := csr.displayName
      epoch := a.epoch
      notBefore
      notAfter := notBefore+31536000 }
  let _ ← crypto.hash cert.serialize
  pure cert

/-- Node, certificate and alias are recorded in one transaction. -/
def enrollment (csr : CertificateSigningRequest)
    (meshId : Bytes) (cert : Certificate) (a : MeshAuthority) : Result Enrollment := do
  let fingerprint ← crypto.hash cert.serialize
  let nodeId ← nodeIdFromPublicKey crypto csr.newPublicKey
  pure { nodeIdHex := bytesToHex nodeId
         displayName := normalizeDisplayName csr.displayName
         meshId
         role := text "Member"
         certFingerprint := bytesToHex fingerprint
         certIssuerPubkeyHex := bytesToHex a.authorityPublicKey
         certSubjectPubkeyHex := bytesToHex csr.newPublicKey
         epoch := a.epoch
         certIssuedAt := call.recordedMs
         certExpiresAt := call.expiryMs+31536000000 }

def certify (csrBlob meshId : Bytes) (a : MeshAuthority) :
    Result (CryptoProvider × CertificateSigningRequest × Certificate) :=
  if ¬a.initialized then .error notInitialized
  else match a.crypto with
    | none => .error (cryptoErr "crypto not configured")
    | some crypto => do
      let csr ← CertificateSigningRequest.deserialize csrBlob
      let valid ← csr.verify crypto csr.newPublicKey
      if ¬valid then .error (smoErrCert 209 .alert .noRetry .none "CSR signature invalid")
      else do
        validateDisplayName csr.displayName
        let cert ← a.issueCertificate crypto call csr meshId
        pure (crypto,csr,cert)

def signCsr (csrBlob meshId : Bytes) (a : MeshAuthority) (r : Registry) :
    Result Certificate × Registry :=
  match a.certify call csrBlob meshId with
  | .error e => (.error e,r)
  | .ok (crypto,csr,cert) => match a.implRegistry with
    | none => (.ok cert,r)
    | some db => match a.enrollment crypto call csr meshId cert with
      | .error e => (.error e,r)
      | .ok enrollment => match enrollNode call.enroll db enrollment r with
        | (.error e,r) => (.error e,r)
        | (.ok _,r) => (.ok cert,r)

def signData (randomness : ℕ) (data : Bytes) (a : MeshAuthority) : Result Bytes :=
  if ¬a.initialized then .error notInitialized
  else match a.signerContext,a.crypto with
    | some sign,_ => sign randomness data
    | none,some crypto => crypto.sign randomness data a.authoritySecretKey
    | none,none => .error (cryptoErr "no signing capability configured")

/-- How `NodeRegistry::open` ends: without a connection, with one but without the schema, or well. -/
inductive OpenOutcome
  | noConnection (message : String)
  | noSchema (message : String)
  | done

/-- The end of `open`, `load_authority_key` and `create_mesh_keys`: a registry that opened is moved
out of `registry_`. -/
def openRegistry (outcome : OpenOutcome) (a : MeshAuthority) : Result Unit × MeshAuthority :=
  match outcome with
  | .noConnection message => (.error (smoErr .storage 900 .critical .noRetry .rebootNode message),
      { a with registry_ := some .closed })
  | .noSchema message => (.error (smoErr .storage 900 .critical .noRetry .rebootNode message),
      { a with registry_ := some .opened })
  | .done => (.ok (),{ a with registry_ := none, implRegistry := some .opened, initialized := true })

/-! What a certificate that was issued stands for. -/

variable {crypto : CryptoProvider} {cert : Certificate} {a : MeshAuthority} {crypto}

lemma signCertificate_eq_ok (h : a.signCertificate crypto randomness body = .ok cert) :
    ∃ signature, a.signWith crypto randomness body.serialize = .ok signature ∧
      cert = { body with signature } := by
  unfold signCertificate at h
  simp only [ite_error_eq_ok,bind_eq_ok] at h
  obtain ⟨-,signature,hsign,hcert⟩ := h
  exact ⟨signature,hsign,(Except.ok.inj hcert).symm⟩

variable {call : SignCall} {csr : CertificateSigningRequest} {meshId : Bytes} {call}

lemma issueCertificate_signed (h : a.issueCertificate crypto call csr meshId = .ok cert) :
    ∃ (body : Certificate) (signature : Bytes), body.issuerPubkey = a.authorityPublicKey ∧
      a.signWith crypto call.randomness body.serialize = .ok signature ∧
      cert = { body with signature } := by
  simp only [issueCertificate,bind_eq_ok] at h
  obtain ⟨cert',hsign,-,-,hcert⟩ := h
  cases hcert
  obtain ⟨signature,hsigned,rfl⟩ := signCertificate_eq_ok hsign
  exact ⟨_,signature,rfl,hsigned,rfl⟩

lemma issueCertificate_eq_ok (h : a.issueCertificate crypto call csr meshId = .ok cert) :
    cert.role = .member ∧ cert.subjectPubkey = csr.newPublicKey := by
  simp only [issueCertificate,bind_eq_ok] at h
  obtain ⟨cert',hsign,-,-,hcert⟩ := h
  cases hcert
  obtain ⟨signature,-,rfl⟩ := signCertificate_eq_ok hsign
  exact ⟨rfl,rfl⟩

structure Certified (a : MeshAuthority) (call : SignCall) (csrBlob meshId : Bytes)
    (crypto : CryptoProvider) (csr : CertificateSigningRequest) (cert : Certificate) : Prop where
  initialized : a.initialized = true
  configured : a.crypto = some crypto
  parsed : CertificateSigningRequest.deserialize csrBlob = .ok csr
  verified : csr.verify crypto csr.newPublicKey = .ok true
  named : validateDisplayName csr.displayName = .ok ()
  issued : a.issueCertificate crypto call csr meshId = .ok cert

lemma certify_eq_ok : a.certify call csrBlob meshId = .ok (crypto,csr,cert) ↔
      Certified a call csrBlob meshId crypto csr cert := by
  constructor
  · intro h
    unfold certify at h
    rw [ite_error_eq_ok] at h
    obtain ⟨hinit,h⟩ := h
    cases hcrypto : a.crypto with
    | none =>
      rw [hcrypto] at h
      cases h
    | some crypto' =>
      rw [hcrypto] at h
      simp only [bind_eq_ok,ite_error_eq_ok] at h
      obtain ⟨csr',hcsr,valid,hverify,hvalid,u,hname,cert',hissue,hpair⟩ := h
      cases hpair
      obtain rfl : valid = true := not_not.mp hvalid
      exact ⟨not_not.mp hinit,hcrypto,hcsr,hverify,hname,hissue⟩
  · intro h
    unfold certify
    rw [if_neg (not_not.mpr h.initialized),h.configured]
    simp only [bind_eq_ok,ite_error_eq_ok]
    exact ⟨csr,h.parsed,true,h.verified,by simp,(),h.named,cert,h.issued,rfl⟩

theorem signCsr_eq_ok (h : (a.signCsr call csrBlob meshId r).1 = .ok cert) :
    ∃ crypto csr, Certified a call csrBlob meshId crypto csr cert ∧
      ((a.signCsr call csrBlob meshId r).2 = r ∨
        ∃ e : Enrollment, e.role = text "Member" ∧
          e.displayName = normalizeDisplayName csr.displayName ∧
          r.Enrolled (a.signCsr call csrBlob meshId r).2 e call.enroll) := by
  unfold signCsr at h ⊢
  cases hcertify : a.certify call csrBlob meshId with
  | error e => simp [hcertify] at h
  | ok result =>
    obtain ⟨crypto,csr,cert'⟩ := result
    simp only [hcertify] at h ⊢
    have hcertified := certify_eq_ok.mp hcertify
    cases himpl : a.implRegistry with
    | none =>
      simp only [himpl] at h
      cases h
      exact ⟨crypto,csr,hcertified,.inl rfl⟩
    | some db =>
      simp only [himpl] at h ⊢
      cases henrollment : a.enrollment crypto call csr meshId cert' with
      | error e => simp [henrollment] at h
      | ok e =>
        simp only [henrollment] at h ⊢
        rcases enrollNode_cases call.enroll db e r with ⟨err,herr⟩ | ⟨r',hr',hrows⟩
        · simp [herr] at h
        · simp only [hr'] at h ⊢
          cases h
          simp only [enrollment,bind_eq_ok] at henrollment
          obtain ⟨fingerprint,-,nodeId,-,he⟩ := henrollment
          cases he
          exact ⟨crypto,csr,hcertified,.inr ⟨_,rfl,rfl,hrows⟩⟩

end MeshAuthority
end SmoFramework.Authority
