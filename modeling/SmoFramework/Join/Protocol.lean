import SmoFramework.Library.ExpiringSet
import SmoFramework.Enroll.TokenWire
import SmoFramework.Authority.MeshAuthority

/-! The server's side of joining (`core/join/join_protocol`, `process_join_request`): the request is
checked, a certificate issued, the node registered, and a ticket for the first synchronisation
signed. Clock, random bytes, crypto suites, faults of the storage and the ICE candidates are
arguments. -/
namespace SmoFramework.Join
open Library Library.BigEndian
open Authority
open Enroll (JoinToken parseToken validateToken tokenIsV1)
open Genesis (text bytesToHex strtoul)

structure JoinRequest where
  version : UInt8 := 1
  protocolVersion : UInt8 := 1
  capabilityBitmap : UInt64 := 0
  token : Bytes := []
  csrPem : Bytes := []
  timestamp : Int64 := 0
  nonce : Vector UInt8 8 := .replicate 8 0
  csrHash : Bytes := []
  requestSignature : Bytes := []
  iceCandidatesCbor : Bytes := []
  deriving DecidableEq

structure JoinResponse where
  version : UInt8 := 1
  nonce : Vector UInt8 8 := .replicate 8 0
  certificatePem : Bytes := []
  meshId : Bytes := []
  bootstrapTicket : Bytes := []
  serverTime : Int64 := 0
  capabilityBitmap : UInt64 := 0
  iceCandidatesCbor : Bytes := []
  deriving DecidableEq

/-- An error, an exception that leaves the call, or the null pointer it dereferences. -/
inductive Stop
  | returned (e : Error)
  | thrown
  | undefined
  deriving DecidableEq, Repr

def failed (code : ℕ) (recovery : Recovery) (message : String) : Stop :=
  .returned (smoErrCert code .error .noRetry recovery message)

/-- The provider of the nonce keys' hash and the registered crypto suites. -/
structure Platform where
  nonceHash : Bytes → Bytes
  suites : UInt16 → Result CryptoProvider

/-- Two readings of the clock in seconds, the ICE candidates if they are asked for, random bytes and
faults. -/
structure JoinCall where
  nowSec : Int64 := 0
  validatedSec : Int64 := 0
  sign : SignCall := {}
  registerFault : Option String := none
  ice : Except Stop Bytes := .ok []
  ticketRandomness : ℕ := 0

/-- `hex_to_bytes`: two digits at a time; a last odd digit is ignored. -/
def hexToBytes : Bytes → Bytes
  | a::b::rest => (strtoul 16 [a,b]).toUInt8::hexToBytes rest
  | _ => []

theorem hexToBytes_bytesToHex (data : Bytes) : hexToBytes (bytesToHex data) = data := by
  induction data with
  | nil => rfl
  | cons b data ih =>
    have hpair := Genesis.strtoul_hex_pair b.toNat b.toNat_lt
    simp only [bytesToHex] at ih
    simp [bytesToHex,hexToBytes,ih,hpair]

/-! The nonces seen so far, each under the hash of mesh and nonce. -/

abbrev NonceCache := AssocMap Bytes Int64

/-- `check_and_insert`: entries are dropped from the second on in which they expire. -/
def checkAndInsert (hash : Bytes → Bytes) (meshId : Bytes) (nonce : Vector UInt8 8)
    (ttlSec nowSec : Int64) : NonceCache → Bool × NonceCache :=
  ExpiringSet.enter (fun expiry => ¬expiry ≤ nowSec) (hash (meshId ++ nonce.toList))
    (if ttlSec > 0 then ttlSec else nowSec+300)

/-! The stages of a request. -/

variable (p : Platform)

/-- Up to the check of the nonce. The difference of the times wraps, and so does its absolute
value. -/
def admitRequest (nowSec : Int64) (req : JoinRequest) (cache : NonceCache) :
    Except Stop JoinToken × NonceCache :=
  match parseToken req.token with
  | .error .lengthError => (.error .thrown,cache)
  | .error (.error e) => (.error (failed 213 .none ("Invalid join token: " ++ e.message)),cache)
  | .ok token =>
    if (nowSec-req.timestamp).abs > 30 then
      (.error (failed 214 .none "JoinRequest timestamp outside ±30s window"),cache)
    else if token.expiryUnixSec > 0 ∧ nowSec > token.expiryUnixSec then
      (.error (failed 213 .none "Join token expired"),cache)
    else match checkAndInsert p.nonceHash token.meshId req.nonce token.expiryUnixSec nowSec cache with
      | (false,cache) => (.error (failed 219 .none "JoinRequest nonce replay detected"),cache)
      | (true,cache) => (.ok token,cache)

def suiteOf (token : JoinToken) : Result CryptoProvider :=
  p.suites token.cipherSuiteId.toUInt32.toUInt16

variable (a : MeshAuthority)

/-- The key that an issuer stands for, and the digits it is to begin with. -/
def issuerKey (issuer : Bytes) : Option (Bytes × Bytes) :=
  if issuer.take 5 = text "root:" then some (a.rootPublicKey,issuer.drop 5)
  else if issuer.take 10 = text "authority:" then some (a.authorityPublicKey,issuer.drop 10)
  else none

variable (crypto : CryptoProvider) (validatedSec : Int64)

def authenticateToken (a : MeshAuthority) (token : JoinToken) : Except Stop Unit :=
  if tokenIsV1 token then
    .error (failed 212 .manualIntervention
      "v1 HMAC join token rejected: use a v2 token issued by this mesh authority")
  else match issuerKey a token.issuer with
    | none => .error (failed 212 .manualIntervention
        ("Join token has unrecognized issuer: " ++ shown token.issuer))
    | some (key,expectedFp) =>
      if key = [] then
        .error (failed 212 .manualIntervention
          "Authority public key not loaded; cannot verify join token")
      else if expectedFp ≠ (bytesToHex key).take expectedFp.length then
        .error (failed 212 .manualIntervention "Join token issuer fingerprint mismatch")
      else match validateToken crypto.verify key validatedSec token with
        | .error e => .error (.returned e)
        | .ok () => .ok ()

def signedBytes (token : Bytes) (timestamp : Int64) (nonce : Vector UInt8 8) (csrHash : Bytes) :
    Bytes :=
  token ++ (write64 timestamp.toUInt64 ++ (nonce.toList ++ csrHash))

def checkCsr (req : JoinRequest) : Except Stop CertificateSigningRequest :=
  match CertificateSigningRequest.deserialize (hexToBytes req.csrPem) with
  | .error e => .error (failed 217 .none ("Invalid CSR: " ++ e.message))
  | .ok csr =>
    match crypto.verify (signedBytes req.token req.timestamp req.nonce req.csrHash)
        req.requestSignature csr.newPublicKey with
    | .ok true => .ok csr
    | _ => .error (failed 216 .none "JoinRequest signature verification failed")

def authorise (a : MeshAuthority) (token : JoinToken)
    (req : JoinRequest) : Except Stop (CryptoProvider × CertificateSigningRequest) :=
  match suiteOf p token with
  | .error e => .error (.returned e)
  | .ok crypto => do
    authenticateToken crypto validatedSec a token
    let csr ← checkCsr crypto req
    pure (crypto,csr)

def nodeRecord (nowSec : Int64) (token : JoinToken) (cert : Certificate) : NodeRecord where
  nodeIdHex := bytesToHex cert.subjectPubkey
  meshId := token.meshId
  role := token.admission.role
  status := text "active"
  epoch := cert.epoch
  lastSeen := nowSec
  certFingerprint := match crypto.hash cert.serialize with
    | .ok hash => bytesToHex hash
    | .error _ => text "unknown"

/-- The capabilities that the authority knows, from `CAP_DELTA_SYNC` to `CAP_ICE_LITE`. -/
def knownCapabilities : UInt64 := 0xFFF

def capIceLite : UInt64 := 0x800

def numbered (values : List Bytes) : Bytes :=
  Cbor.encodeMap values.length ++
    (values.zipIdx 1).flatMap fun (value,key) => Cbor.encodeUint (UInt64.ofNat key) ++ value

/-- The ticket; it is signed with an empty signature in its place. -/
def ticket (meshId nodeId : Bytes) (nowSec : Int64) (signature : Bytes) : Bytes :=
  numbered [Cbor.encodeString meshId,Cbor.encodeString nodeId,Cbor.encodeInt nowSec,
    Cbor.encodeBytes signature]

variable (call : JoinCall)

def iceCandidates (req : JoinRequest) : Except Stop Bytes :=
  if req.capabilityBitmap &&& capIceLite ≠ 0 then call.ice else .ok []

def respond (a : MeshAuthority) (token : JoinToken) (req : JoinRequest)
    (cert : Certificate) : Except Stop JoinResponse :=
  let nodeId := bytesToHex cert.subjectPubkey
  match iceCandidates call req with
  | .error stop => .error stop
  | .ok iceCandidatesCbor =>
    match a.signData call.ticketRandomness (ticket token.meshId nodeId call.nowSec []) with
    | .error e => .error (.returned e)
    | .ok signature =>
      .ok { nonce := req.nonce
            certificatePem := bytesToHex cert.serializeFull
            meshId := token.meshId
            capabilityBitmap := req.capabilityBitmap &&& knownCapabilities
            iceCandidatesCbor
            bootstrapTicket := ticket token.meshId nodeId call.nowSec signature }

structure Server where
  cache : NonceCache := .empty
  registry : Registry := {}

/-- `process_join_request`. The result of the registration is ignored. -/
def processJoinRequest (req : JoinRequest) (s : Server) : Except Stop JoinResponse × Server :=
  match admitRequest p call.nowSec req s.cache with
  | (.error stop,cache) => (.error stop,{ s with cache })
  | (.ok token,cache) => match authorise p call.validatedSec a token req with
    | .error stop => (.error stop,{ s with cache })
    | .ok (crypto,_) =>
      match a.signCsr call.sign (hexToBytes req.csrPem) token.meshId s.registry with
      | (.error e,registry) =>
        (.error (failed 218 .none ("Failed to issue certificate: " ++ e.message)),⟨cache,registry⟩)
      | (.ok cert,registry) => match a.registry_ with
        | none => (.error .undefined,⟨cache,registry⟩)
        | some db =>
          let node := nodeRecord crypto call.nowSec token cert
          (respond call a token req cert,
            ⟨cache,(registerNode call.registerFault db node registry).2⟩)

/-! What each stage has checked when it is passed. -/

/-- The nonce cache changes only where the nonce is checked. -/
theorem cache_processJoinRequest (req : JoinRequest) (s : Server) :
    (processJoinRequest p a call req s).2.cache = (admitRequest p call.nowSec req s.cache).2 := by
  unfold processJoinRequest
  rcases admitRequest p call.nowSec req s.cache with ⟨stop | token,cache⟩
  · rfl
  · dsimp only
    rcases authorise p call.validatedSec a token req with stop | ⟨crypto,csr⟩
    · rfl
    · dsimp only
      rcases a.signCsr call.sign (hexToBytes req.csrPem) token.meshId s.registry with
        ⟨e | cert,registry⟩
      · rfl
      · cases a.registry_ <;> rfl

/-- A request is refused whatever the cache holds, or it comes down to the check of its nonce. -/
theorem admitRequest_cases (nowSec : Int64) (req : JoinRequest) :
    (∃ stop, ∀ cache, admitRequest p nowSec req cache = (.error stop,cache)) ∧
      (∀ token, parseToken req.token = .ok token → ¬(nowSec-req.timestamp).abs > 30 →
        token.expiryUnixSec > 0 ∧ nowSec > token.expiryUnixSec) ∨
    ∃ token, parseToken req.token = .ok token ∧ ¬(nowSec-req.timestamp).abs > 30 ∧
      ¬(token.expiryUnixSec > 0 ∧ nowSec > token.expiryUnixSec) ∧ ∀ cache,
        let checked := checkAndInsert p.nonceHash token.meshId req.nonce token.expiryUnixSec nowSec cache
        admitRequest p nowSec req cache = (if checked.1 then .ok token
          else .error (failed 219 .none "JoinRequest nonce replay detected"),checked.2) := by
  unfold admitRequest
  rcases parseToken req.token with e | token
  · refine .inl ⟨?_,fun token h => by cases h⟩
    cases e <;> exact ⟨_,fun _ => rfl⟩
  · dsimp only
    by_cases htime : (nowSec-req.timestamp).abs > 30
    · exact .inl ⟨⟨_,fun _ => if_pos htime⟩,fun _ _ h => absurd htime h⟩
    by_cases hexpired : token.expiryUnixSec > 0 ∧ nowSec > token.expiryUnixSec
    · exact .inl ⟨⟨_,fun _ => (if_neg htime).trans (if_pos hexpired)⟩,fun _ h _ => by cases h; exact hexpired⟩
    · refine .inr ⟨token,rfl,htime,hexpired,fun cache => ?_⟩
      rw [if_neg htime,if_neg hexpired]
      rcases checkAndInsert p.nonceHash token.meshId req.nonce token.expiryUnixSec nowSec cache with
        ⟨_ | _,cache⟩ <;> rfl

variable {p}

/-- The nonce check is reached with a token that is parsed and not expired. -/
theorem admitRequest_eq_ok :
    admitRequest p nowSec req cache = (.ok token,cache') ↔
      parseToken req.token = .ok token ∧ ¬(nowSec-req.timestamp).abs > 30 ∧
      ¬(token.expiryUnixSec > 0 ∧ nowSec > token.expiryUnixSec) ∧
      checkAndInsert p.nonceHash token.meshId req.nonce token.expiryUnixSec nowSec cache =
        (true,cache') := by
  obtain ⟨⟨stop,hstop⟩,hbad⟩ | ⟨t,hparse,htime,hexpired,hrun⟩ := admitRequest_cases p nowSec req
  · rw [hstop]
    exact ⟨fun h => (by cases h),fun h => absurd (hbad token h.1 h.2.1) h.2.2.1⟩
  · rw [hrun,hparse]
    rcases hcheck : checkAndInsert p.nonceHash t.meshId req.nonce t.expiryUnixSec nowSec cache with
      ⟨passed,c⟩
    constructor
    · intro h
      cases passed with
      | false => cases h
      | true =>
        cases h
        exact ⟨rfl,htime,hexpired,hcheck⟩
    · rintro ⟨⟨⟩,-,-,h⟩
      cases hcheck.symm.trans h
      rfl

variable {a} {call}

theorem respond_eq_ok (h : respond call a token req cert = .ok resp) :
    resp.certificatePem = bytesToHex cert.serializeFull ∧ resp.meshId = token.meshId ∧
      ∃ signature, a.signData call.ticketRandomness
          (ticket token.meshId (bytesToHex cert.subjectPubkey) call.nowSec []) = .ok signature ∧
        resp.bootstrapTicket =
          ticket token.meshId (bytesToHex cert.subjectPubkey) call.nowSec signature := by
  unfold respond at h
  dsimp only at h
  split at h
  · cases h
  · split at h
    · cases h
    · rename_i signature hsign
      cases h
      exact ⟨rfl,rfl,signature,hsign,rfl⟩

structure Granted (p : Platform) (a : MeshAuthority) (call : JoinCall) (req : JoinRequest)
    (s : Server) (token : JoinToken) (crypto : CryptoProvider) (csr : CertificateSigningRequest)
    (cert : Certificate) (db : Connection) (resp : JoinResponse) (s' : Server) : Prop where
  admitted : admitRequest p call.nowSec req s.cache = (.ok token,s'.cache)
  authorised : authorise p call.validatedSec a token req = .ok (crypto,csr)
  signed : (a.signCsr call.sign (hexToBytes req.csrPem) token.meshId s.registry).1 = .ok cert
  connected : a.registry_ = some db
  registered : s'.registry = (registerNode call.registerFault db
    (nodeRecord crypto call.nowSec token cert)
    (a.signCsr call.sign (hexToBytes req.csrPem) token.meshId s.registry).2).2
  responded : respond call a token req cert = .ok resp

theorem processJoinRequest_eq_ok :
    processJoinRequest p a call req s = (.ok resp,s') ↔
      ∃ token crypto csr cert db, Granted p a call req s token crypto csr cert db resp s' := by
  constructor
  · intro h
    unfold processJoinRequest at h
    rcases hadmitted : admitRequest p call.nowSec req s.cache with ⟨stop | token,cache⟩
    · simp [hadmitted] at h
    · rcases hauth : authorise p call.validatedSec a token req with stop | ⟨crypto,csr⟩
      · simp [hadmitted,hauth] at h
      · rcases hsign : a.signCsr call.sign (hexToBytes req.csrPem) token.meshId s.registry with
          ⟨e | cert,registry⟩
        · simp [hadmitted,hauth,hsign] at h
        · cases hdb : a.registry_ with
          | none => simp [hadmitted,hauth,hsign,hdb] at h
          | some db =>
            simp only [hadmitted,hauth,hsign,hdb,Prod.mk.injEq] at h
            obtain ⟨hrespond,rfl⟩ := h
            exact ⟨token,crypto,csr,cert,db,hadmitted,hauth,by rw [hsign],hdb,by rw [hsign],hrespond⟩
  · rintro ⟨token,crypto,csr,cert,db,h⟩
    obtain ⟨cache,registry⟩ := s'
    rcases hsign : a.signCsr call.sign (hexToBytes req.csrPem) token.meshId s.registry with
      ⟨result,registry'⟩
    have hsigned := h.signed
    have hregistered := h.registered
    rw [hsign] at hsigned hregistered
    dsimp only at hsigned hregistered
    subst hsigned hregistered
    unfold processJoinRequest
    simp only [h.admitted,h.authorised,hsign,h.connected,h.responded]

end SmoFramework.Join
