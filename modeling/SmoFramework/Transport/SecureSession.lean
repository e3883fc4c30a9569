import SmoFramework.Network.Transport
import SmoFramework.Certificate.Chain
import SmoFramework.Library.Attempt

/-! Secure sessions over a connected socket (`core/transport/secure_session`): reading and writing, the
two handshakes, and the encrypted and the plain framing of messages. What the socket does and the
primitives of the crypto suite are parameters. -/
namespace SmoFramework.Transport
open Library Library.BigEndian List
open Network (WriteOutcome SessionCryptoContext)
open Genesis (text)

/-! The connection. -/

inductive SessionRole
  | client | server
  deriving DecidableEq, Repr

structure Config where
  role : SessionRole := .client
  serverCert : Bytes := []
  signingSecretKey : Bytes := []
  clientCert : Bytes := []
  clientSigningSecretKey : Bytes := []
  rootPublicKey : Bytes := []
  meshId : Bytes := []
  currentEpoch : UInt64 := 1
  deriving DecidableEq, Repr

structure SecureSession where
  secure : Bool := false
  config : Config := {}
  peerPk : Bytes := []
  peerCert : Bytes := []
  localPk : Bytes := []
  localSk : Bytes := []
  txKey : Bytes := []
  rxKey : Bytes := []
  txNoncePre : Bytes := []
  rxNoncePre : Bytes := []
  txCounter : UInt64 := 0
  rxCounter : UInt64 := 0
  sessionId : Id16 := Id16.zero
  cryptoContext : SessionCryptoContext := ⟨Id16.zero,⟨[]⟩,⟨[]⟩⟩

/-- How `read` goes on once everything that has arrived is read. -/
inductive ReadEnd
  | waiting | closed | failed
  deriving DecidableEq, Repr

/-- The bytes that arrive, the returns of `write` to come, and the bytes that went out. -/
structure Socket where
  input : Bytes := []
  ending : ReadEnd := .waiting
  outs : List WriteOutcome := []
  written : Bytes := []

structure Connection where
  session : SecureSession := {}
  socket : Socket := {}

abbrev Call := Attempt Connection Error

def setSession (f : SecureSession → SecureSession) : Call Unit :=
  .update fun c => { c with session := f c.session }

/-! Reading and writing. -/

def writeAll (data : Bytes) : Call Unit := fun c =>
  (Network.writeAll c.socket.outs data).map fun w => (w.result,{ c with
    socket := { c.socket with outs := w.rest, written := c.socket.written ++ w.wire } })

/-- `read_all`: on an early end, what was there is lost. -/
def readAll (n : ℕ) : Call Bytes := fun c =>
  if n ≤ c.socket.input.length then
    some (.ok (c.socket.input.take n),{ c with
      socket := { c.socket with input := c.socket.input.drop n } })
  else
    let c := { c with socket := { c.socket with input := [] } }
    match c.socket.ending with
    | .waiting => none
    | .closed => some (.error (smoErrTransport 303 .error .noRetry .none
        "connection closed during secure read"),c)
    | .failed => some (.error (smoErrTransport 305 .error .noRetry .reconnect
        "secure read failed"),c)

/-- `write_field`: the length is cast to 16 bits. -/
def writeField (data : Bytes) : Call Unit := do
  writeAll (toBE 2 data.length)
  writeAll data

def readField : Call Bytes := do
  let header ← readAll 2
  readAll (ofBE header)

def field (data : Bytes) : Bytes := toBE 2 data.length ++ data

/-! The crypto suite. -/

structure EncapsResult where
  ciphertext : Bytes
  sharedSecret : Bytes

/-- Key encapsulation; the random bytes that a call draws come first. -/
structure Kem where
  generateKeypair : ℕ → Result KeypairResult
  encapsulate : ℕ → Bytes → Result EncapsResult
  decapsulate : Bytes → Bytes → Result Bytes

/-- Authenticated encryption by text, associated data, key and nonce. -/
structure AeadImpl where
  encrypt : Bytes → Bytes → Bytes → Bytes → Result Bytes
  decrypt : Bytes → Bytes → Bytes → Bytes → Result Bytes

structure Suite where
  crypto : CryptoProvider
  kem : Kem
  aead : AeadImpl
  /-- By salt, key material, info and length. -/
  hkdf : Bytes → Bytes → Bytes → (n : ℕ) → List.Vector UInt8 n

/-! The handshake. -/

def kHandshakeCtx : Bytes := text "smo-pq-handshake-v1"

variable (p : Suite)

def deriveKeys (ss1 ss2 pkClient pkServer : Bytes) (s : SecureSession) : SecureSession :=
  let ikm := ss1 ++ ss2 ++ pkClient ++ pkServer
  let salt := text "smo-pq-handshake-v1"
  let material := (p.hkdf salt ikm (text "session-v1") 96).toList
  { s with
    txKey := material.take 32
    rxKey := (material.drop 32).take 32
    txNoncePre := (material.drop 64).take 16
    rxNoncePre := (material.drop 80).take 16
    sessionId := p.hkdf salt ikm (text "session-id-v1") 16 }

variable (s : SecureSession)

def swapKeys : SecureSession :=
  { s with
    txKey := s.rxKey
    rxKey := s.txKey
    txNoncePre := s.rxNoncePre
    rxNoncePre := s.txNoncePre }

/-- What one handshake takes from outside: random bytes for its three draws and the clock. -/
structure HandshakeCall where
  keygen : ℕ := 0
  signing : ℕ := 0
  encaps : ℕ := 0
  nowSec : Int64 := 0

/-- `verify_peer_certificate`: neither the signature of the certificate nor the root key is looked
at. -/
def verifyPeerCertificate (nowSec : Int64) (cfg : Config) (certBlob : Bytes) : Result Unit := do
  let cert ← Certificate.deserialize certBlob
  if ¬cert.isValidAt nowSec then
    .error (smoErrCert 217 .error .noRetry .none "Certificate expired or not yet valid")
  else if cfg.currentEpoch > 0 ∧ cert.epoch < cfg.currentEpoch then
    .error (smoErrCert 218 .error .noRetry .none ("Certificate revoked: epoch " ++
      toString cert.epoch.toNat ++ " < current_epoch " ++ toString cfg.currentEpoch.toNat))
  else if cfg.meshId ≠ [] ∧ cert.meshId ≠ cfg.meshId then
    .error (smoErrCert 219 .error .noRetry .none "Certificate mesh_id mismatch")
  else pure ()

def checkPeerSignature (message signature : Bytes) (cert : Certificate) (who : String) :
    Call Unit :=
  .ensure (p.crypto.verify message signature cert.subjectPubkey = .ok true)
    (smoErrCert 216 .error .noRetry .none (who ++ " handshake signature invalid"))

/-- What the client signs, and the server. -/
def clientHello (clientPk : Bytes) : Bytes := kHandshakeCtx ++ clientPk

def serverHello (clientPk serverPk ct : Bytes) : Bytes := kHandshakeCtx ++ clientPk ++ serverPk ++ ct

variable (call : HandshakeCall)

def clientHandshake : Call Unit := do
  let cfg ← .view (·.session.config)
  let kp ← .lift (p.kem.generateKeypair call.keygen)
  setSession fun s => { s with localPk := kp.publicKey, localSk := kp.secretKey }
  writeField kp.publicKey
  let helloSig ← .lift (p.crypto.sign call.signing (clientHello kp.publicKey)
    cfg.clientSigningSecretKey)
  writeField cfg.clientCert
  writeField helloSig
  let peerPk ← readField
  setSession fun s => { s with peerPk }
  let ct ← readField
  let peerCert ← readField
  setSession fun s => { s with peerCert }
  .lift (verifyPeerCertificate call.nowSec cfg peerCert)
  let signature ← readField
  let cert ← .lift (Certificate.deserialize peerCert)
  checkPeerSignature p (serverHello kp.publicKey peerPk ct) signature cert "Server"
  let ss1 ← .lift (p.kem.decapsulate kp.secretKey ct)
  let enc2 ← .lift (p.kem.encapsulate call.encaps peerPk)
  writeField enc2.ciphertext
  setSession (deriveKeys p ss1 enc2.sharedSecret kp.publicKey peerPk)

def serverHandshake : Call Unit := do
  let cfg ← .view (·.session.config)
  let peerPk ← readField
  setSession fun s => { s with peerPk }
  let peerCert ← readField
  setSession fun s => { s with peerCert }
  .lift (verifyPeerCertificate call.nowSec cfg peerCert)
  let clientSignature ← readField
  let cert ← .lift (Certificate.deserialize peerCert)
  checkPeerSignature p (clientHello peerPk) clientSignature cert "Client"
  let kp ← .lift (p.kem.generateKeypair call.keygen)
  setSession fun s => { s with localPk := kp.publicKey, localSk := kp.secretKey }
  let enc ← .lift (p.kem.encapsulate call.encaps peerPk)
  let signature ← .lift (p.crypto.sign call.signing (serverHello peerPk kp.publicKey enc.ciphertext)
    cfg.signingSecretKey)
  writeField kp.publicKey
  writeField enc.ciphertext
  writeField cfg.serverCert
  writeField signature
  let ct2 ← readField
  let ss2 ← .lift (p.kem.decapsulate kp.secretKey ct2)
  setSession fun s => swapKeys (deriveKeys p enc.sharedSecret ss2 peerPk kp.publicKey s)

def roleHandshake : SessionRole → Call Unit
  | .client => clientHandshake p call
  | .server => serverHandshake p call

def secured : SecureSession :=
  { s with
    cryptoContext := ⟨s.sessionId,⟨s.txKey⟩,⟨s.rxKey⟩⟩
    secure := true }

def establish (role : SessionRole) : Call Unit := do
  roleHandshake p call role
  setSession secured

def handshake : Call Unit := do
  let s ← .view (·.session)
  if s.secure then pure () else establish p call s.config.role

/-! Messages. -/

def kNoncePrefixLen : ℕ := 16
def kSecureNonceLen : ℕ := 24

/-- `build_nonce`: prefix and counter. -/
def buildNonce (noncePre : Bytes) (counter : UInt64) : Bytes :=
  noncePre.take kNoncePrefixLen ++ toBE 8 counter.toNat

def beforeHandshake (what : String) : Error :=
  smoErrTransport 312 .error .noRetry .reconnect (what ++ " before handshake")

structure Sealed where
  nonce : Bytes
  plaintext : Bytes
  ciphertext : Bytes
  deriving DecidableEq, Repr

variable (plaintext : Bytes)

/-- The part of `send` before anything is written: the counter moves on even if the cipher fails. -/
def sealNext : Call Sealed := do
  let s ← .view (·.session)
  .ensure (s.secure = true) (beforeHandshake "send")
  setSession fun s => { s with txCounter := s.txCounter+1 }
  let nonce := buildNonce s.txNoncePre (s.txCounter+1)
  let ciphertext ← .lift (p.aead.encrypt plaintext [] s.txKey nonce)
  pure ⟨nonce,plaintext,ciphertext⟩

/-- `send`: the length is taken in 32 bits. -/
def send : Call Unit := do
  let m ← sealNext p plaintext
  writeAll (toBE 4 (kSecureNonceLen+m.ciphertext.length))
  writeAll m.nonce
  writeAll m.ciphertext

def kMaxFrame : ℕ := 1024*1024

def tooLong (what : String) : Error :=
  smoErrTransport 400 .error .noRetry .none (what ++ " payload too large")

/-- The part of `recv` before the counter moves on. -/
def takeFrame : Call Bytes := do
  let s ← .view (·.session)
  .ensure (s.secure = true) (beforeHandshake "recv")
  let header ← readAll 4
  .ensure (ofBE header ≤ kMaxFrame) (tooLong "encrypted")
  let enc ← readAll (ofBE header)
  .ensure (kSecureNonceLen+16 ≤ enc.length)
    (smoErrTransport 400 .error .noRetry .none "truncated encrypted payload")
  .ensure (enc.take kSecureNonceLen = buildNonce s.rxNoncePre (s.rxCounter+1))
    (smoErrTransport 314 .error .noRetry .reconnect "nonce mismatch")
  pure enc

/-- `recv`: the counter moves on even if the text cannot be decrypted. -/
def recv : Call Bytes := do
  let enc ← takeFrame
  setSession fun s => { s with rxCounter := s.rxCounter+1 }
  let s ← .view (·.session)
  .lift (p.aead.decrypt (enc.drop kSecureNonceLen) [] s.rxKey (enc.take kSecureNonceLen))

def sendFramed (payload : Bytes) : Call Unit := fun c =>
  (Network.SecureSession.sendFramed ⟨c.session.secure,c.session.cryptoContext⟩ payload
    c.socket.outs).map fun w => (w.result,{ c with
      socket := { c.socket with outs := w.rest, written := c.socket.written ++ w.wire } })

def recvFramed : Call Bytes := do
  let s ← .view (·.session)
  .ensure (s.secure = true) (beforeHandshake "recv_framed")
  let header ← readAll 4
  .ensure (ofBE header ≤ kMaxFrame) (tooLong "framed")
  readAll (ofBE header)

/-! What a successful call has read and written. -/

structure Wrote (c : Connection) (data : Bytes) (c' : Connection) : Prop where
  session : c'.session = c.session
  input : c'.socket.input = c.socket.input
  written : c'.socket.written = c.socket.written ++ data

structure Took (c : Connection) (data : Bytes) (c' : Connection) : Prop where
  session : c'.session = c.session
  input : c.socket.input = data ++ c'.socket.input
  written : c'.socket.written = c.socket.written

variable {c c' c'' : Connection} {data data' : Bytes} {u : Unit}

theorem Wrote.trans (h : Wrote c data c') (h' : Wrote c' data' c'') : Wrote c (data ++ data') c'' where
  session := h'.session.trans h.session
  input := h'.input.trans h.input
  written := by rw [h'.written,h.written,append_assoc]

theorem Took.trans (h : Took c data c') (h' : Took c' data' c'') : Took c (data ++ data') c'' where
  session := h'.session.trans h.session
  input := by rw [h.input,h'.input,append_assoc]
  written := h'.written.trans h.written

theorem wrote_writeAll (h : Attempt.Returns (writeAll data) c u c') : Wrote c data c' := by
  obtain ⟨w,hw,hc⟩ := Option.map_eq_some_iff.mp h
  obtain ⟨hres,rfl⟩ := Prod.mk.inj hc
  exact ⟨rfl,rfl,by rw [Network.writeAll_ok hw hres]⟩

theorem took_readAll (h : Attempt.Returns (readAll n) c data c') :
    Took c data c' ∧ data.length = n := by
  unfold Attempt.Returns Attempt.outcome readAll at h
  change (if n ≤ c.socket.input.length then _ else _) = _ at h
  split_ifs at h with hn
  · cases h
    exact ⟨⟨rfl,(take_append_drop n _).symm,rfl⟩,by simp [hn]⟩
  · dsimp only at h
    split at h
    · cases h
    · cases h
    · cases h

theorem returns_readAll (hn : data.length = n)
    (h : c.socket.input = data ++ rest) : Attempt.Returns (readAll n) c data
      { c with socket := { c.socket with input := rest } } := by
  unfold Attempt.Returns Attempt.outcome readAll
  change (if n ≤ c.socket.input.length then _ else _) = _
  rw [h,if_pos (by rw [length_append]; omega),take_left' hn,drop_left' hn]

theorem wrote_writeField (h : Attempt.Returns (writeField data) c u c') : Wrote c (field data) c' := by
  obtain ⟨_,_,hheader,hdata⟩ := Attempt.returns_bind.mp h
  exact (wrote_writeAll hheader).trans (wrote_writeAll hdata)

theorem took_readField (h : Attempt.Returns readField c data c') :
    Took c (field data) c' ∧ data.length < 2^16 := by
  obtain ⟨header,_,hheader,hdata⟩ := Attempt.returns_bind.mp h
  obtain ⟨htook,hlen⟩ := took_readAll hheader
  obtain ⟨htook',hlen'⟩ := took_readAll hdata
  have hlt := ofBE_lt header
  rw [hlen] at hlt
  have hfield : field data = header ++ data := by
    rw [field,hlen',← hlen,toBE_ofBE]
  rw [hfield]
  exact ⟨htook.trans htook',by omega⟩

/-- Fields that fit their length prefix are found again one by one. -/
theorem field_append_inj (hdata : data.length < 2^16)
    (hdata' : data'.length < 2^16) (h : field data ++ rest = field data' ++ rest') :
    data = data' ∧ rest = rest' := by
  simp only [field,append_assoc] at h
  obtain ⟨hlen,h⟩ := append_inj h (by simp)
  have hsame := congrArg ofBE hlen
  rw [ofBE_toBE_of_lt (by omega),ofBE_toBE_of_lt (by omega)] at hsame
  exact append_inj h hsame

end SmoFramework.Transport
