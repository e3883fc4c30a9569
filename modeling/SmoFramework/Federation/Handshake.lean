import SmoFramework.Certificate.Chain
import SmoFramework.Federation.Messages

/-! The federation handshake (`FederationHandshake`): one endpoint, what a message makes of it, and what a
peer has to send to complete it. The callback `on_complete` is left out, it only gets the result that is
returned. -/
namespace SmoFramework.Federation
open Library
open Genesis (text)

/-- `ReceivedAuth` and `Failed` are never entered. -/
inductive FederationHandshakeState
  | init | sentHello | receivedHello | sentAuth | receivedAuth | completed | failed
  deriving DecidableEq, Repr

structure Config where
  localMeshId : Bytes := []
  localGatewayNodeId : Bytes := []
  localIdentityKey : Bytes := []
  localCertificatePath : String := ""
  localCertificateData : Bytes := []
  handshakeTimeoutNs : Int64 := 30000000000

structure FederationHandshake where
  config : Config
  crypto : CryptoProvider
  state : FederationHandshakeState := .init
  peerMeshId : Bytes := []
  peerGatewayNodeId : Bytes := []
  peerTrustAnchors : List Certificate := []
  startTime : Int64

/-- The two times, the files, what the signer draws, the function that sends, and the bytes in
memory behind the message. -/
structure Call where
  now : Int64 := 0
  sentAt : Int64 := 0
  loadFileBinary : String → Bytes := fun _ => []
  signing : ℕ := 0
  sendFn : Bytes → Result Unit := fun _ => .ok ()
  behind : List.Vector UInt8 8 := List.Vector.replicate 8 0

structure Outcome where
  result : Result Unit
  sent : Option Bytes := none
  after : FederationHandshake

def federationError (code : ℕ) (message : String) : Error :=
  smoErr .federation code .error .noRetry .none message

def Call.taken (call : Call) (message : Bytes) : Option Bytes :=
  match call.sendFn message with
  | .ok _ => some message
  | .error _ => none

variable (crypto : CryptoProvider)

/-- A signature that cannot be made is empty. -/
def signData (call : Call) (data signingKey : Bytes) : Bytes :=
  match crypto.sign call.signing data signingKey with
  | .ok signature => signature
  | .error _ => []

/-- `verify_signature`, which nothing calls. -/
def verifySignature (data signature pubkey : Bytes) : Bool :=
  match crypto.verify data signature pubkey with
  | .ok valid => valid
  | .error _ => false

def loadTrustAnchors : List Certificate := []

def verifyPeerCertificate (_ : Certificate) : Result Unit := .ok ()

def verifyTrustAnchors (_ : List Certificate) : Result Unit := .ok ()

def Config.certificateData (c : Config) (call : Call) : Bytes :=
  if c.localCertificateData ≠ [] then c.localCertificateData
  else call.loadFileBinary c.localCertificatePath

def credentials (c : Config) (call : Call) : Result (Certificate × Bytes) :=
  if c.certificateData call = [] then .error (federationError 6 "Failed to load local certificate")
  else do
    let certificate ← Certificate.deserialize (c.certificateData call)
    let signature := signData crypto call (FederationAuth.signedBytes certificate loadTrustAnchors)
      c.localIdentityKey
    if signature = [] then .error (federationError 7 "Failed to sign auth message")
    else .ok (certificate,signature)

namespace FederationHandshake

def create (config : Config) (now : Int64) : FederationHandshake :=
  { config, crypto, startTime := now }

def fail (h : FederationHandshake) (e : Error) : Outcome := { result := .error e, after := h }

def hello (h : FederationHandshake) (call : Call) : FederationHello where
  localMeshId := h.config.localMeshId
  localGatewayNodeId := h.config.localGatewayNodeId
  supportedSuites := [text "suite3_purepqc",text "suite2_modern",text "suite1_classical"]
  timestamp := call.sentAt

def startAsInitiator (h : FederationHandshake) (call : Call) : Outcome :=
  if h.state ≠ .init then h.fail (federationError 1 "Handshake already started")
  else
    let message := 0x01::(h.hello call).serialize
    { result := call.sendFn message
      sent := call.taken message
      after := { h with startTime := call.now, state := .sentHello } }

def isTimedOut (h : FederationHandshake) (now : Int64) : Bool :=
  now-h.startTime > h.config.handshakeTimeoutNs

def auth (h : FederationHandshake) (call : Call) (own : Certificate × Bytes) : FederationAuth where
  remoteMeshId := h.peerMeshId
  localMeshId := h.config.localMeshId
  signature := own.2
  localCertificate := own.1
  trustAnchors := loadTrustAnchors
  timestamp := call.sentAt

def sendAuth (h : FederationHandshake) (call : Call) : Outcome :=
  match credentials h.crypto h.config call with
  | .error e => h.fail e
  | .ok own =>
    let message := 0x02::(h.auth call own).serialize
    { result := call.sendFn message
      sent := call.taken message
      after := { h with state := .sentAuth } }

def heard (h : FederationHandshake) (hello : FederationHello) : FederationHandshake :=
  { h with
    peerMeshId := hello.localMeshId
    peerGatewayNodeId := hello.localGatewayNodeId
    state := .receivedHello }

def handleHello (h : FederationHandshake) (call : Call) (data : Bytes) : Outcome :=
  if h.state ≠ .init ∧ h.state ≠ .sentHello then h.fail (federationError 5 "Unexpected Hello message")
  else match FederationHello.deserialize call.behind data with
    | .error e => h.fail e
    | .ok hello => (h.heard hello).sendAuth call

def ack (h : FederationHandshake) (call : Call) (auth : FederationAuth) : FederationAck where
  remoteMeshId := auth.remoteMeshId
  localMeshId := h.config.localMeshId
  timestamp := call.sentAt

def named (h : FederationHandshake) (auth : FederationAuth) : FederationHandshake :=
  { h with peerMeshId := auth.remoteMeshId, peerTrustAnchors := auth.trustAnchors }

def handleAuth (h : FederationHandshake) (call : Call) (data : Bytes) : Outcome :=
  if h.state ≠ .sentHello ∧ h.state ≠ .receivedHello then
    h.fail (federationError 8 "Unexpected Auth message")
  else match FederationAuth.deserialize data with
    | .error e => h.fail e
    | .ok auth => match verifyPeerCertificate auth.localCertificate with
      | .error e =>
        let reason := text ("Certificate verification failed: " ++ e.message)
        let ack := { h.ack call auth with
          accepted := false
          rejectionReason := reason
          signature := signData h.crypto call (0::reason) h.config.localIdentityKey }
        { result := .error e, sent := call.taken (0x03::ack.serialize), after := h.named auth }
      | .ok _ => match verifyTrustAnchors auth.trustAnchors with
        | .error e =>
          let ack := { h.ack call auth with
            accepted := false
            rejectionReason := text ("Trust anchor verification failed: " ++ e.message) }
          { result := .error e, sent := call.taken (0x03::ack.serialize), after := h.named auth }
        | .ok _ =>
          let ack := { h.ack call auth with
            signature := signData h.crypto call [1] h.config.localIdentityKey }
          { result := .ok ()
            sent := call.taken (0x03::ack.serialize)
            after := { h.named auth with state := .completed } }

def handleAck (h : FederationHandshake) (data : Bytes) : Outcome :=
  if h.state ≠ .sentAuth then h.fail (federationError 9 "Unexpected Ack message")
  else match FederationAck.deserialize data with
    | .error e => h.fail e
    | .ok ack =>
      if ack.accepted = false then
        h.fail (federationError 10 ("Handshake rejected: " ++ shown ack.rejectionReason))
      else { result := .ok (), after := { h with state := .completed } }

def handleMessage (h : FederationHandshake) (call : Call) (data : Bytes) : Outcome :=
  if h.isTimedOut call.now = true then h.fail (federationError 2 "Handshake timed out")
  else match data with
    | [] => h.fail (federationError 3 "Empty message")
    | type::payload =>
      if type = 0x01 then h.handleHello call payload
      else if type = 0x02 then h.handleAuth call payload
      else if type = 0x03 then h.handleAck payload
      else h.fail (federationError 4 "Unknown federation message type")

def runs (h : FederationHandshake) (messages : List (Call × Bytes)) : FederationHandshake :=
  messages.foldl (fun h m => (h.handleMessage m.1 m.2).after) h

/-! One message. -/

inductive Step (h : FederationHandshake) (call : Call) :
    Bytes → FederationHandshake → Option Bytes → Prop
  | quiet (data : Bytes) : Step h call data h none
  | heard {payload : Bytes} {hello : FederationHello} {e : Error}
      (state : h.state = .init ∨ h.state = .sentHello)
      (read : FederationHello.deserialize call.behind payload = .ok hello)
      (silent : credentials h.crypto h.config call = .error e) :
      Step h call (0x01::payload) (h.heard hello) none
  | answered {payload : Bytes} {hello : FederationHello} {own : Certificate × Bytes}
      (state : h.state = .init ∨ h.state = .sentHello)
      (read : FederationHello.deserialize call.behind payload = .ok hello)
      (speaks : credentials h.crypto h.config call = .ok own) :
      Step h call (0x01::payload) { h.heard hello with state := .sentAuth }
        (call.taken (0x02::((h.heard hello).auth call own).serialize))
  | named {payload : Bytes} {auth : FederationAuth} (ack : FederationAck)
      (state : h.state = .sentHello ∨ h.state = .receivedHello)
      (read : FederationAuth.deserialize payload = .ok auth) :
      Step h call (0x02::payload) { h.named auth with state := .completed }
        (call.taken (0x03::ack.serialize))
  | acknowledged {payload : Bytes} {ack : FederationAck} (state : h.state = .sentAuth)
      (read : FederationAck.deserialize payload = .ok ack) (accepted : ack.accepted = true) :
      Step h call (0x03::payload) { h with state := .completed } none

section
variable (h : FederationHandshake) (call : Call) (data : Bytes)

lemma handleHello_step : Step h call (0x01::data) (h.handleHello call data).after
    (h.handleHello call data).sent := by
  unfold handleHello
  split_ifs with hstate
  · exact .quiet _
  · cases hread : FederationHello.deserialize call.behind data with
    | error e => exact .quiet _
    | ok hello =>
      have hstart : h.state = .init ∨ h.state = .sentHello := by tauto
      dsimp only
      unfold sendAuth
      cases hown : credentials (h.heard hello).crypto (h.heard hello).config call with
      | error e => exact .heard hstart hread hown
      | ok own => exact .answered hstart hread hown

lemma handleAuth_step : Step h call (0x02::data) (h.handleAuth call data).after
    (h.handleAuth call data).sent := by
  unfold handleAuth
  split_ifs with hstate
  · exact .quiet _
  · cases hread : FederationAuth.deserialize data with
    | error e => exact .quiet _
    | ok auth => exact .named _ (by tauto) hread

lemma handleAck_step : Step h call (0x03::data) (h.handleAck data).after
    (h.handleAck data).sent := by
  unfold handleAck
  split_ifs with hstate
  · exact .quiet _
  · cases hread : FederationAck.deserialize data with
    | error e => exact .quiet _
    | ok ack =>
      dsimp only
      split_ifs with haccepted
      · exact .quiet _
      · exact .acknowledged (not_not.mp hstate) hread (by simpa using haccepted)

lemma handleMessage_step : Step h call data (h.handleMessage call data).after
    (h.handleMessage call data).sent := by
  unfold handleMessage
  split_ifs
  · exact .quiet _
  · cases data with
    | nil => exact .quiet _
    | cons type payload =>
      dsimp only
      split_ifs with h1 h2 h3
      · exact h1 ▸ h.handleHello_step call payload
      · exact h2 ▸ h.handleAuth_step call payload
      · exact h3 ▸ h.handleAck_step call payload
      · exact .quiet _

end

end FederationHandshake
end SmoFramework.Federation
