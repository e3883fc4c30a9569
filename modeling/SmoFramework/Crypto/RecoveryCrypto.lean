import SmoFramework.Crypto.Shamir
import SmoFramework.Library.BigEndian

/-! The envelope of the recovery domain: Argon2id over a passphrase, then AES-256-GCM
(`core/crypto/recovery_crypto` over `core/crypto/kdf/argon2id` and
`core/crypto/aead/aes256_gcm_provider`). Of the cipher only its tag length and that it opens what it
encrypted are assumed. -/
namespace SmoFramework.Crypto
open SmoFramework.Library.BigEndian List

structure Argon2idParams where
  memoryKib : UInt32 := 65536
  iterations : UInt32 := 3
  lanes : UInt32 := 4
  deriving DecidableEq, Repr

/-- `crypto_argon2` with a 32-byte output, by configuration, passphrase and salt. -/
abbrev Argon2 := Argon2idParams → Bytes → Bytes → List.Vector UInt8 32

/-- The EVP calls for AES-256-GCM, by key, nonce and associated data: ciphertext and tag, or the
text of the exception. -/
structure Gcm where
  encrypt : Bytes → Bytes → Bytes → Bytes → Except String (Bytes × Bytes)
  decrypt : Bytes → Bytes → Bytes → Bytes → Bytes → Except String Bytes
  tag_length : ∀ {key nonce aad plain ct tag},
    encrypt key nonce aad plain = .ok (ct,tag) → tag.length = 16
  decrypt_encrypt : ∀ {key nonce aad plain ct tag},
    encrypt key nonce aad plain = .ok (ct,tag) → decrypt key nonce aad ct tag = .ok plain

/-- A thrown `std::invalid_argument` is the error case. Lanes and the passphrase's length are taken
in 32 bits. -/
def argon2idDerive (argon2 : Argon2) (passphrase salt : Bytes) (params : Argon2idParams) :
    Except String Bytes :=
  if params.lanes = 0 then .error "Argon2id: lanes must be > 0"
  else if params.iterations = 0 then .error "Argon2id: iterations must be > 0"
  else if params.memoryKib < 8*params.lanes then
    .error "Argon2id: memory range too small for lanes"
  else .ok (argon2 params (passphrase.take (passphrase.length % 2^32)) salt).toList

namespace AES256GCMProvider

def kKeySize : ℕ := 32
def kNonceSize : ℕ := 12
def kMacSize : ℕ := 16

def encrypt (gcm : Gcm) (plaintext aad key nonce : Bytes) : Except String Bytes :=
  if key.length ≠ kKeySize then .error "AES-256-GCM: invalid key size"
  else if nonce.length ≠ kNonceSize then .error "AES-256-GCM: invalid nonce size"
  else (gcm.encrypt key nonce aad plaintext).map fun r => r.1 ++ r.2

def decrypt (gcm : Gcm) (ciphertext aad key nonce : Bytes) : Except String Bytes :=
  if key.length ≠ kKeySize then .error "AES-256-GCM: invalid key size"
  else if nonce.length ≠ kNonceSize then .error "AES-256-GCM: invalid nonce size"
  else if ciphertext.length < kMacSize then .error "AES-256-GCM: truncated ciphertext"
  else
    let ctLen := ciphertext.length-kMacSize
    gcm.decrypt key nonce aad (ciphertext.take ctLen) (ciphertext.drop ctLen)

lemma decrypt_encrypt (h : encrypt gcm plaintext aad key nonce = .ok ct) :
    decrypt gcm ct aad key nonce = .ok plaintext := by
  unfold encrypt at h
  split_ifs at h with hkey hnonce
  cases henc : gcm.encrypt key nonce aad plaintext with
  | error e => simp [henc,Except.map] at h
  | ok r =>
    obtain ⟨c,tag⟩ := r
    obtain rfl : c ++ tag = ct := by simpa [henc,Except.map] using h
    have htag : tag.length = kMacSize := gcm.tag_length henc
    have hlen : (c ++ tag).length-kMacSize = c.length := by simp [htag]
    rw [decrypt,if_neg hkey,if_neg hnonce,if_neg (by simp [htag])]
    simp only [hlen,take_left,drop_left]
    exact gcm.decrypt_encrypt henc

end AES256GCMProvider

namespace RecoveryCryptoProvider

def kSaltSize : ℕ := 32
def kNonceSize : ℕ := 12
def kEnvelopeHeaderSize : ℕ := 60

def deriveKey (argon2 : Argon2) (passphrase salt : Bytes) (params : Argon2idParams) :
    Except String Bytes := argon2idDerive argon2 passphrase salt params

/-- Salt and nonce have their fixed sizes, so that copying them to offsets 16 and 48 is appending.
-/
def buildEnvelope (params : Argon2idParams) (salt nonce ciphertext : Bytes) : Bytes :=
  [0x53,0x4D,1,0] ++ (toBE 4 params.memoryKib.toNat ++ (toBE 4 params.iterations.toNat ++
    (toBE 4 params.lanes.toNat ++ (salt ++ (nonce ++ ciphertext)))))

def isEnvelope (blob : Bytes) : Bool :=
  if blob.length < kEnvelopeHeaderSize then false
  else blob.getD 0 0 == 0x53 && blob.getD 1 0 == 0x4D && blob.getD 2 0 == 1

def load32 (envelope : Bytes) (off : ℕ) : UInt32 := UInt32.ofNat (ofBE (bytesAt envelope off 4))

def parseParams (envelope : Bytes) : Except String Argon2idParams :=
  if envelope.length < kEnvelopeHeaderSize then .error "RecoveryCrypto: envelope too small"
  else .ok ⟨load32 envelope 4,load32 envelope 8,load32 envelope 12⟩

variable {σ : Type*}

/-- `seal`, all of it inside the `try` block; the salt and the nonce are drawn before anything can throw. -/
def sealEnvelope (gcm : Gcm) (argon2 : Argon2) (plaintext aad passphrase : Bytes) (params : Argon2idParams)
    (rng : RngRef σ) (ctx : σ) : Result Bytes × σ :=
  let (salt,ctx) := rng.fill ctx kSaltSize
  let (nonce,ctx) := rng.fill ctx kNonceSize
  let envelope := do
    let key ← deriveKey argon2 passphrase salt params
    let ct ← AES256GCMProvider.encrypt gcm plaintext aad key nonce
    pure (buildEnvelope params salt nonce ct)
  match envelope with
  | .error what => (.error (smoErrCrypto 151 .error .noRetry .manualIntervention
      ("recovery seal failed: " ++ what)),ctx)
  | .ok envelope => (.ok envelope,ctx)

def openEnvelope (gcm : Gcm) (argon2 : Argon2) (envelope aad passphrase : Bytes) : Result Bytes :=
  if isEnvelope envelope = false then
    .error (smoErrCrypto 152 .error .noRetry .manualIntervention
      "recovery envelope: unsupported format (expected versioned SMO envelope)")
  else
    let plain := do
      let params ← parseParams envelope
      let salt := bytesAt envelope 16 kSaltSize
      let nonce := bytesAt envelope 48 kNonceSize
      let ciphertext := envelope.drop kEnvelopeHeaderSize
      let key ← deriveKey argon2 passphrase salt params
      AES256GCMProvider.decrypt gcm ciphertext aad key nonce
    match plain with
    | .error what => .error (smoErrCrypto 153 .error .noRetry .manualIntervention
        ("recovery open failed: " ++ what))
    | .ok plain => .ok plain

lemma load32_append (hoff : pre.length = off) (v : UInt32) :
    load32 (pre ++ (toBE 4 v.toNat ++ rest)) off = v := by
  rw [load32,bytesAt_append hoff (length_toBE _ _),ofBE_toBE_of_lt (by simpa using v.toNat_lt),
    UInt32.ofNat_toNat]

section
variable {params : Argon2idParams} {salt nonce ct : Bytes}

lemma length_buildEnvelope (hsalt : salt.length = kSaltSize) (hnonce : nonce.length = kNonceSize) :
    (buildEnvelope params salt nonce ct).length = kEnvelopeHeaderSize+ct.length := by
  simp only [buildEnvelope,length_append,length_toBE,hsalt,hnonce,kSaltSize,kNonceSize,
    kEnvelopeHeaderSize,length_cons,length_nil]
  omega

lemma parseParams_buildEnvelope (hsalt : salt.length = kSaltSize)
    (hnonce : nonce.length = kNonceSize) :
    parseParams (buildEnvelope params salt nonce ct) = .ok params := by
  rw [parseParams,if_neg (by rw [length_buildEnvelope hsalt hnonce]; omega)]
  have hmem : load32 (buildEnvelope params salt nonce ct) 4 = params.memoryKib :=
    load32_append rfl _
  have hiter : load32 (buildEnvelope params salt nonce ct) 8 = params.iterations := by
    rw [buildEnvelope,← append_assoc]
    exact load32_append (by simp) _
  have hlanes : load32 (buildEnvelope params salt nonce ct) 12 = params.lanes := by
    rw [buildEnvelope,← append_assoc,← append_assoc]
    exact load32_append (by simp) _
  rw [hmem,hiter,hlanes]

variable (params ct) in
lemma parts_buildEnvelope (hsalt : salt.length = kSaltSize) (hnonce : nonce.length = kNonceSize) :
    bytesAt (buildEnvelope params salt nonce ct) 16 kSaltSize = salt ∧
      bytesAt (buildEnvelope params salt nonce ct) 48 kNonceSize = nonce ∧
      (buildEnvelope params salt nonce ct).drop kEnvelopeHeaderSize = ct := by
  have hfront : buildEnvelope params salt nonce ct =
      ([0x53,0x4D,1,0] ++ (toBE 4 params.memoryKib.toNat ++ (toBE 4 params.iterations.toNat ++
        toBE 4 params.lanes.toNat))) ++ (salt ++ (nonce ++ ct)) := by
    simp [buildEnvelope]
  rw [hfront]
  refine ⟨bytesAt_append (by simp) hsalt,?_,?_⟩
  · exact bytesAt_append (by simp [hsalt,kSaltSize]) hnonce
  · rw [← append_assoc,← append_assoc]
    exact drop_left' (by simp [hsalt,hnonce,kSaltSize,kNonceSize,kEnvelopeHeaderSize])

lemma isEnvelope_buildEnvelope (hsalt : salt.length = kSaltSize)
    (hnonce : nonce.length = kNonceSize) : isEnvelope (buildEnvelope params salt nonce ct) = true := by
  rw [isEnvelope,if_neg (by rw [length_buildEnvelope hsalt hnonce]; omega)]
  rfl

end

lemma openEnvelope_sealEnvelope
    (h : sealEnvelope gcm argon2 plaintext aad passphrase params rng ctx = (.ok envelope,ctx')) :
    openEnvelope gcm argon2 envelope aad passphrase = .ok plaintext := by
  have hsalt := rng.fill_length ctx kSaltSize
  have hnonce := rng.fill_length (rng.fill ctx kSaltSize).2 kNonceSize
  rcases hs : rng.fill ctx kSaltSize with ⟨salt,ctx₁⟩
  rw [hs] at hsalt hnonce
  rcases hn : rng.fill ctx₁ kNonceSize with ⟨nonce,ctx₂⟩
  rw [hn] at hnonce
  simp only [sealEnvelope,hs,hn] at h
  cases hkey : deriveKey argon2 passphrase salt params with
  | error e => simp [hkey,bind,Except.bind] at h
  | ok key =>
    cases hct : AES256GCMProvider.encrypt gcm plaintext aad key nonce with
    | error e => simp [hkey,hct,bind,Except.bind] at h
    | ok ct =>
      obtain ⟨rfl,-⟩ : buildEnvelope params salt nonce ct = envelope ∧ ctx₂ = ctx' := by
        simpa [hkey,hct,bind,Except.bind,pure,Except.pure] using h
      obtain ⟨h16,h48,h60⟩ := parts_buildEnvelope params ct hsalt hnonce
      rw [openEnvelope,isEnvelope_buildEnvelope hsalt hnonce]
      simp [parseParams_buildEnvelope hsalt hnonce,h16,h48,h60,hkey,bind,Except.bind,
        AES256GCMProvider.decrypt_encrypt hct]

end RecoveryCryptoProvider

end SmoFramework.Crypto
