import SmoFramework.Certificate.Request
import SmoFramework.Genesis.Json
import SmoFramework.Library.Delegation

/-! Verification of certificates and of certificate chains (`core/certificate`). A chain runs from the
leaf to a certificate of the root; each certificate is checked under the key it names as its issuer. -/
namespace SmoFramework
open Library.Delegation
open Genesis (bytesToHex)

/-- A signature of a message under a key exists exactly if the owner of the key signed it. -/
def CryptoProvider.Unforgeable (crypto : CryptoProvider) (Signed : Bytes → Bytes → Prop) : Prop :=
  ∀ key message, (∃ signature, crypto.verify message signature key = .ok true) ↔ Signed key message

namespace Certificate

variable (crypto : CryptoProvider) (c : Certificate)

def verify : Result Bool :=
  if c.signature = [] then
    .error (smoErrCert 204 .alert .noRetry .none "certificate has no signature")
  else crypto.verify c.serialize c.signature c.issuerPubkey

def isValidAt (timestamp : Int64) : Bool :=
  c.notBefore ≤ timestamp && timestamp ≤ c.notAfter

lemma serialize_sign (signature : Bytes) :
    { c with signature }.serialize = c.serialize := rfl

/-- What makes a certificate trusted: a signature of its issuer, who is an anchor or holds a trusted
certificate. -/
def rules (Anchor : Bytes → Prop) : Rules Certificate where
  Valid c := crypto.verify c.serialize c.signature c.issuerPubkey = .ok true
  Anchor c := Anchor c.issuerPubkey
  Issued c d := c.issuerPubkey = d.subjectPubkey

end Certificate

structure CertificateChain where
  certs : List Certificate := []

namespace CertificateChain

def emptyChain : Error := smoErrCert 200 .error .noRetry .reenroll "empty certificate chain"

variable (crypto : CryptoProvider)

def checkSignature (i : ℕ) (cert : Certificate) : Result Unit := do
  let valid ← crypto.verify cert.serialize cert.signature cert.issuerPubkey
  if ¬valid then .error (smoErrCert 204 .alert .noRetry .none
    ("certificate signature invalid at index " ++ toString i))
  else pure ()

def checkIssuer (trusted : Bytes → Bool) (untrusted : Bytes → Error) (i : ℕ) (cert : Certificate) :
    List Certificate → Result Unit
  | next::_ => if cert.issuerPubkey ≠ next.subjectPubkey then
      .error (smoErrCert 217 .error .noRetry .manualIntervention
        ("chain linkage broken at index " ++ toString i))
    else pure ()
  | [] => if ¬trusted cert.issuerPubkey then .error (untrusted cert.issuerPubkey) else pure ()

def verifyFrom (crypto : CryptoProvider) (trusted : Bytes → Bool) (untrusted : Bytes → Error) :
    ℕ → List Certificate → Result Unit
  | _,[] => pure ()
  | i,cert::rest => do
    checkSignature crypto i cert
    checkIssuer trusted untrusted i cert rest
    verifyFrom crypto trusted untrusted (i+1) rest

def verify (rootPubkey : Bytes) (chain : CertificateChain) : Result Unit :=
  if chain.certs = [] then .error emptyChain
  else verifyFrom crypto (fun issuer => issuer = rootPubkey)
    (fun _ => smoErrCert 218 .alert .noRetry .manualIntervention "root key fingerprint mismatch") 0
    chain.certs

/-- Each intermediate comes with the clock's reading when it is looked at; whether it is signed is
not checked. -/
def verifyWithIntermediates (rootPubkey : Bytes)
    (intermediates : List (Int64 × Certificate)) (chain : CertificateChain) : Result Unit :=
  if chain.certs = [] then .error emptyChain
  else
    let active := intermediates.filter fun inter => inter.2.isValidAt inter.1
    let trustedIssuers := bytesToHex rootPubkey :: active.map fun inter =>
      bytesToHex inter.2.subjectPubkey
    verifyFrom crypto (fun issuer => trustedIssuers.contains (bytesToHex issuer))
      (fun issuer => smoErrCert 218 .alert .noRetry .manualIntervention
        ("chain terminates at untrusted issuer: " ++ shown (bytesToHex issuer))) 0 chain.certs

/-! An accepted chain is a path to a trusted key. -/

variable {crypto : CryptoProvider} {crypto}

lemma checkSignature_eq_ok : checkSignature crypto i cert = .ok () ↔
      crypto.verify cert.serialize cert.signature cert.issuerPubkey = .ok true := by
  unfold checkSignature
  simp only [bind_eq_ok,ite_error_eq_ok]
  constructor
  · rintro ⟨valid,hverify,hvalid,-⟩
    rwa [not_not.mp hvalid] at hverify
  · intro h
    exact ⟨true,h,by simp,rfl⟩

lemma verifyFrom_eq_ok {trusted : Bytes → Bool} {untrusted : Bytes → Error}
    {Anchor : Bytes → Prop} (htrusted : ∀ key, trusted key ↔ Anchor key) (i : ℕ)
    (cert : Certificate) (rest : List Certificate) :
    verifyFrom crypto trusted untrusted i (cert::rest) = .ok () ↔
      (Certificate.rules crypto Anchor).Path (cert::rest) := by
  induction rest generalizing i cert with
  | nil =>
    rw [Rules.path_singleton]
    simp only [verifyFrom,bind_eq_ok,checkIssuer,ite_error_eq_ok,not_not,htrusted]
    constructor
    · rintro ⟨_,hsig,_,hissuer,-⟩
      exact ⟨checkSignature_eq_ok.mp hsig,hissuer.1⟩
    · rintro ⟨hsig,hissuer⟩
      exact ⟨(),checkSignature_eq_ok.mpr hsig,(),⟨hissuer,rfl⟩,rfl⟩
  | cons next rest ih =>
    rw [Rules.path_cons_cons,← ih (i+1) next,verifyFrom]
    simp only [bind_eq_ok,checkIssuer,ite_error_eq_ok,not_not]
    constructor
    · rintro ⟨_,hsig,_,hissuer,hrest⟩
      exact ⟨checkSignature_eq_ok.mp hsig,hissuer.1,hrest⟩
    · rintro ⟨hsig,hissuer,hrest⟩
      exact ⟨(),checkSignature_eq_ok.mpr hsig,(),⟨hissuer,rfl⟩,hrest⟩

lemma verify_eq_ok :
    verify crypto rootPubkey ⟨cert::rest⟩ = .ok () ↔
      (Certificate.rules crypto (· = rootPubkey)).Path (cert::rest) := by
  exact verifyFrom_eq_ok (by simp) 0 cert rest

/-- A chain may also end below a valid intermediate, whoever has signed that. -/
theorem verifyWithIntermediates_eq_ok {intermediates : List (Int64 × Certificate)}
    (cert : Certificate) (rest : List Certificate) :
    verifyWithIntermediates crypto rootPubkey intermediates ⟨cert::rest⟩ = .ok () ↔
      (Certificate.rules crypto fun key => key = rootPubkey ∨
        ∃ p ∈ intermediates, p.2.isValidAt p.1 ∧ key = p.2.subjectPubkey).Path (cert::rest) := by
  rw [verifyWithIntermediates,if_neg (by simp)]
  apply verifyFrom_eq_ok
  intro key
  simp only [List.contains_iff_mem,List.mem_cons,List.mem_map,List.mem_filter,
    Genesis.bytesToHex_injective.eq_iff,and_assoc,@eq_comm _ key]

/-! Who acts as an issuer: the loop never looks at a role. -/

/-- The keys of a certificate's subject and issuer. -/
def keysOf (c : Certificate) : Bytes × Bytes := (c.subjectPubkey,c.issuerPubkey)

/-- Each issuer is the next subject, and the last one is the root. -/
def Linked (rootPubkey : Bytes) : List (Bytes × Bytes) → Prop
  | [] => False
  | [key] => key.2 = rootPubkey
  | key::next::rest => key.2 = next.1 ∧ Linked rootPubkey (next::rest)

lemma verify_iff_linked {rootPubkey : Bytes} {certs : List Certificate} :
    verify crypto rootPubkey ⟨certs⟩ = .ok () ↔ Linked rootPubkey (certs.map keysOf) ∧
      ∀ c ∈ certs, crypto.verify c.serialize c.signature c.issuerPubkey = .ok true := by
  cases certs with
  | nil => exact ⟨nofun,fun h => h.1.elim⟩
  | cons c rest =>
    rw [verify_eq_ok]
    induction rest generalizing c with
    | nil =>
      rw [Rules.path_singleton,List.forall_mem_singleton,and_comm]
      rfl
    | cons next rest ih =>
      rw [Rules.path_cons_cons,ih]
      constructor
      · rintro ⟨hsig,hissuer,hlinked,hrest⟩
        exact ⟨⟨hissuer,hlinked⟩,List.forall_mem_cons.mpr ⟨hsig,hrest⟩⟩
      · rintro ⟨⟨hissuer,hlinked⟩,hall⟩
        obtain ⟨hsig,hrest⟩ := List.forall_mem_cons.mp hall
        exact ⟨hsig,hissuer,hlinked,hrest⟩

lemma exists_readers {keys : List (Bytes × Bytes)} (hsigns : ∀ key ∈ keys, ∀ message,
      ∃ signature, crypto.verify message signature key.2 = .ok true) :
    ∃ certs : List Certificate, certs.map keysOf = keys ∧ ∀ c ∈ certs, c.role = .reader ∧
      crypto.verify c.serialize c.signature c.issuerPubkey = .ok true := by
  induction keys with
  | nil => exact ⟨[],rfl,List.forall_mem_nil _⟩
  | cons key keys ih =>
    obtain ⟨hkey,hkeys⟩ := List.forall_mem_cons.mp hsigns
    obtain ⟨certs,rfl,hcerts⟩ := ih hkeys
    let c : Certificate := { subjectPubkey := key.1, issuerPubkey := key.2, role := .reader }
    obtain ⟨signature,hsig⟩ := hkey c.serialize
    exact ⟨{ c with signature }::certs,rfl,List.forall_mem_cons.mpr ⟨⟨rfl,hsig⟩,hcerts⟩⟩

/-- For keys whose owners can sign every message, only roots and authorities stand above the leaf of
the accepted chains with these keys exactly if there is no certificate above the leaf or the keys do
not lead to the root. -/
theorem issuers_privileged_iff (crypto : CryptoProvider) (rootPubkey : Bytes)
    (keys : List (Bytes × Bytes)) (hsigns : ∀ key ∈ keys, ∀ message,
      ∃ signature, crypto.verify message signature key.2 = .ok true) :
    (∀ chain : CertificateChain, chain.certs.map keysOf = keys →
        chain.verify crypto rootPubkey = .ok () →
        ∀ c ∈ chain.certs.tail, c.role = .root ∨ c.role = .authority) ↔
      keys.length ≤ 1 ∨ ¬Linked rootPubkey keys := by
  constructor
  · intro hall
    by_contra hcond
    obtain ⟨hlength,hlinked⟩ := not_or.mp hcond
    obtain ⟨certs,rfl,hcerts⟩ := exists_readers hsigns
    have hverify := verify_iff_linked.mpr ⟨not_not.mp hlinked,fun c hc => (hcerts c hc).2⟩
    match certs with
    | [] => simp at hlength
    | [_] => simp at hlength
    | c::d::rest =>
      have hrole := (hcerts d (by simp)).1
      rcases hall _ rfl hverify d (by simp) with h | h <;> rw [hrole] at h <;> cases h
  · rintro (hlength | hlinked) ⟨certs⟩ rfl hverify
    · match certs with
      | [] => exact List.forall_mem_nil _
      | [_] => exact List.forall_mem_nil _
      | c::d::rest => simp at hlength
    · exact absurd (verify_iff_linked.mp hverify).1 hlinked

/-- Every owner can sign everything, and a signature is the key. -/
def keySuite : CryptoProvider where
  verify _ signature key := .ok (signature = key)
  sign _ _ secret := .ok secret
  hash := .ok

theorem issuers_not_privileged_key : ¬∀ chain : CertificateChain,
    chain.certs.map keysOf = [([4],[3]),([3],[2]),([2],[1])] → chain.verify keySuite [1] = .ok () →
      ∀ c ∈ chain.certs.tail, c.role = .root ∨ c.role = .authority := by
  rw [issuers_privileged_iff keySuite [1] _ fun key _ message => ⟨key.2,by simp [keySuite]⟩]
  simp [Linked]

def readerCert : Certificate :=
  { subjectPubkey := [2], issuerPubkey := [1], role := .reader, signature := [9] }

def leafCert : Certificate :=
  { subjectPubkey := [3], issuerPubkey := [2], role := .authority, signature := [9] }

def readerSigned (key message : Bytes) : Prop :=
  (key,message) = ([1],readerCert.serialize) ∨ (key,message) = ([2],leafCert.serialize)

instance (key message : Bytes) : Decidable (readerSigned key message) :=
  inferInstanceAs (Decidable (_ ∨ _))

def readerSuite : CryptoProvider where
  verify message signature key := .ok (signature = [9] ∧ readerSigned key message)
  sign _ _ _ := .ok [9]
  hash := .ok

lemma unforgeable_readerSuite : readerSuite.Unforgeable readerSigned := by
  intro key message
  simp [readerSuite]

/-- The reader stands above the leaf of an accepted chain. -/
theorem reader_acts_as_issuer : readerSuite.Unforgeable readerSigned ∧
      verify readerSuite [1] ⟨[leafCert,readerCert]⟩ = .ok () ∧
      readerCert ∈ [leafCert,readerCert].tail ∧ readerCert.role = .reader := by
  refine ⟨unforgeable_readerSuite,?_,by simp,rfl⟩
  decide

end CertificateChain
end SmoFramework
