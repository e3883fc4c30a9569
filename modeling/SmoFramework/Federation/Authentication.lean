import SmoFramework.Federation.Handshake

/-! Who can complete a federation handshake. No step checks a signature, so that a peer is authenticated
only as far as the messages it is able to send are. -/
namespace SmoFramework.Federation
open Library List

/-! Messages that move the handshake on. -/

/-- The signature over the certificate and the trust anchors verifies under the certificate's key. -/
def FederationAuth.verifies (crypto : CryptoProvider) (m : FederationAuth) : Bool :=
  verifySignature crypto (signedBytes m.localCertificate m.trustAnchors) m.signature
    m.localCertificate.subjectPubkey

variable (message : Bytes)

def Greets : Prop :=
  ∃ payload behind hello, message = 0x01::payload ∧ FederationHello.deserialize behind payload = .ok hello

def Presents (auth : FederationAuth) : Prop :=
  ∃ payload, message = 0x02::payload ∧ FederationAuth.deserialize payload = .ok auth

def Accepts : Prop :=
  ∃ payload ack, message = 0x03::payload ∧ FederationAck.deserialize payload = .ok ack ∧
    ack.accepted = true

def Authenticated (crypto : CryptoProvider) (messages : List (Call × Bytes)) : Prop :=
  ∃ m ∈ messages, ∃ auth, Presents m.2 auth ∧ auth.verifies crypto = true

def AllVerify (crypto : CryptoProvider) (Peer : Bytes → Prop) : Prop :=
  ∀ m auth, Peer m → Presents m auth → auth.verifies crypto = true

namespace FederationHandshake

def CanAuth (h : FederationHandshake) (call : Call) : Prop :=
  ∃ own, credentials h.crypto h.config call = .ok own

/-- A hello leaves no way to complete the handshake with what else the peer can send. -/
def HelloSafe (h : FederationHandshake) (Peer : Bytes → Prop) : Prop :=
  ∀ m, Peer m → Greets m →
    ((∃ call, h.CanAuth call) → ∀ m', Peer m' → ¬Accepts m') ∧
    ((∃ call, ¬h.CanAuth call) → AllVerify h.crypto Peer)

/-- Every sequence of the peer's messages that completes the handshake in time has an auth message that
verifies. -/
def Authenticates (h : FederationHandshake) (Peer : Bytes → Prop) : Prop :=
  ∀ messages : List (Call × Bytes),
    (∀ m ∈ messages, Peer m.2 ∧ h.isTimedOut m.1.now = false) →
    (h.runs messages).state = .completed → Authenticated h.crypto messages

/-! A safe peer. -/

/-- In every state, the messages that would complete the handshake are out of the peer's reach or
verify. -/
structure Safe (Peer : Bytes → Prop) (h : FederationHandshake) : Prop where
  running : h.state ≠ .completed
  auth : h.state = .sentHello ∨ h.state = .receivedHello → AllVerify h.crypto Peer
  ack : h.state = .sentAuth → ∀ m, Peer m → ¬Accepts m
  hello : h.state = .init ∨ h.state = .sentHello → h.HelloSafe Peer

lemma Safe.step {Peer : Bytes → Prop}
    (hsafe : Safe Peer h) (hm : Peer m) (hstep : Step h call m h' sent) :
    Safe Peer h' ∨ ∃ auth, Presents m auth ∧ auth.verifies h.crypto = true := by
  cases hstep with
  | quiet => exact Or.inl hsafe
  | heard state read silent =>
    have hsilent : ¬h.CanAuth call := by
      rintro ⟨own,hown⟩
      cases silent.symm.trans hown
    have hauth := (hsafe.hello state _ hm ⟨_,_,_,rfl,read⟩).2 ⟨call,hsilent⟩
    exact Or.inl ⟨by rintro ⟨⟩,fun _ => hauth,by rintro ⟨⟩,by rintro (⟨⟨⟩⟩ | ⟨⟨⟩⟩)⟩
  | answered state read speaks =>
    have hack := (hsafe.hello state _ hm ⟨_,_,_,rfl,read⟩).1 ⟨call,_,speaks⟩
    exact Or.inl ⟨by rintro ⟨⟩,by rintro (⟨⟨⟩⟩ | ⟨⟨⟩⟩),fun _ => hack,by rintro (⟨⟨⟩⟩ | ⟨⟨⟩⟩)⟩
  | named ack state read =>
    have hpresents : Presents (0x02::_) _ := ⟨_,rfl,read⟩
    exact Or.inr ⟨_,hpresents,hsafe.auth state _ _ hm hpresents⟩
  | acknowledged state read accepted =>
    exact absurd ⟨_,_,rfl,read,accepted⟩ (hsafe.ack state _ hm)

lemma Step.crypto_eq (hstep : Step h call m h' sent) : h'.crypto = h.crypto := by
  cases hstep <;> rfl

/-- A safe peer completes the handshake only with an auth message that verifies. -/
theorem Safe.authenticated {Peer : Bytes → Prop} (hsafe : Safe Peer h)
    (hpeer : ∀ m ∈ messages, Peer m.2)
    (hdone : (h.runs messages).state = .completed) : Authenticated h.crypto messages := by
  induction messages generalizing h with
  | nil => exact absurd hdone hsafe.running
  | cons m messages ih =>
    obtain ⟨hm,hmessages⟩ := forall_mem_cons.mp hpeer
    have hstep := h.handleMessage_step m.1 m.2
    rcases hsafe.step hm hstep with hnext | hverified
    · obtain ⟨m',hm',hverified⟩ := ih hnext hmessages hdone
      rw [hstep.crypto_eq] at hverified
      exact ⟨m',mem_cons_of_mem _ hm',hverified⟩
    · exact ⟨m,mem_cons_self,hverified⟩

/-! Ways to complete. -/

lemma exists_inTime (h : FederationHandshake) : ∃ now, h.isTimedOut now = false := by
  refine ⟨h.startTime+h.config.handshakeTimeoutNs,?_⟩
  have hspan : h.startTime+h.config.handshakeTimeoutNs-h.startTime = h.config.handshakeTimeoutNs := by
    grind
  rw [isTimedOut,hspan]
  simp

section
variable {h : FederationHandshake} {call : Call} {payload : Bytes}

lemma handleMessage_hello (htime : h.isTimedOut call.now = false)
    (hstate : h.state = .init ∨ h.state = .sentHello) {hello : FederationHello}
    (hread : FederationHello.deserialize call.behind payload = .ok hello) :
    h.handleMessage call (0x01::payload) = (h.heard hello).sendAuth call := by
  have hno : ¬(h.state ≠ .init ∧ h.state ≠ .sentHello) := by tauto
  rw [handleMessage,if_neg (by simp [htime])]
  change h.handleHello call payload = _
  rw [handleHello,if_neg hno,hread]

variable {auth : FederationAuth}

lemma handleMessage_auth (htime : h.isTimedOut call.now = false)
    (hstate : h.state = .sentHello ∨ h.state = .receivedHello)
    (hread : FederationAuth.deserialize payload = .ok auth) :
    (h.handleMessage call (0x02::payload)).after = { h.named auth with state := .completed } := by
  have hno : ¬(h.state ≠ .sentHello ∧ h.state ≠ .receivedHello) := by tauto
  rw [handleMessage,if_neg (by simp [htime])]
  rw [handleAuth,if_neg hno,hread]
  rfl

lemma handleMessage_ack (htime : h.isTimedOut call.now = false) (hstate : h.state = .sentAuth)
    {ack : FederationAck} (hread : FederationAck.deserialize payload = .ok ack)
    (haccepted : ack.accepted = true) :
    (h.handleMessage call (0x03::payload)).after = { h with state := .completed } := by
  rw [handleMessage,if_neg (by simp [htime])]
  change (h.handleAck payload).after = _
  rw [handleAck,if_neg (by simp [hstate]),hread]
  dsimp only
  rw [if_neg (by simp [haccepted])]

lemma sendAuth_after (hcan : h.CanAuth call) :
    (h.sendAuth call).after = { h with state := .sentAuth } := by
  obtain ⟨own,hown⟩ := hcan
  rw [sendAuth,hown]

lemma sendAuth_silent (hno : ¬h.CanAuth call) : (h.sendAuth call).after = h := by
  unfold sendAuth
  cases hown : credentials h.crypto h.config call with
  | error e => rfl
  | ok own => exact absurd ⟨own,hown⟩ hno

variable {call' : Call} {hello : FederationHello} {m : Bytes}

lemma completes_at_once (hstate : h.state = .sentHello ∨ h.state = .receivedHello)
    (htime : h.isTimedOut call.now = false) (hpresents : Presents m auth) :
    (h.runs [(call,m)]).state = .completed := by
  obtain ⟨payload,rfl,hread⟩ := hpresents
  rw [runs,foldl_cons,foldl_nil,handleMessage_auth htime hstate hread]

lemma completes_with_ack (hstate : h.state = .init ∨ h.state = .sentHello)
    (htime : h.isTimedOut call.now = false) (htime' : h.isTimedOut call'.now = false)
    (hread : FederationHello.deserialize call.behind payload = .ok hello) (hcan : h.CanAuth call)
    (haccepts : Accepts m) : (h.runs [(call,0x01::payload),(call',m)]).state = .completed := by
  obtain ⟨payload',ack,rfl,hread',haccepted⟩ := haccepts
  have hcan' : (h.heard hello).CanAuth call := hcan
  have hnext : (h.handleMessage call (0x01::payload)).after = { h.heard hello with state := .sentAuth } := by
    rw [handleMessage_hello htime hstate hread,sendAuth_after hcan']
  have htime'' : { h.heard hello with state := .sentAuth }.isTimedOut call'.now = false := htime'
  rw [runs,foldl_cons,foldl_cons,foldl_nil,hnext,handleMessage_ack htime'' rfl hread' haccepted]

lemma completes_with_auth (hstate : h.state = .init ∨ h.state = .sentHello)
    (htime : h.isTimedOut call.now = false) (htime' : h.isTimedOut call'.now = false)
    (hread : FederationHello.deserialize call.behind payload = .ok hello) (hno : ¬h.CanAuth call)
    (hpresents : Presents m auth) :
    (h.runs [(call,0x01::payload),(call',m)]).state = .completed := by
  have hno' : ¬(h.heard hello).CanAuth call := hno
  have hnext : (h.handleMessage call (0x01::payload)).after = h.heard hello := by
    rw [handleMessage_hello htime hstate hread,sendAuth_silent hno']
  have htime'' : (h.heard hello).isTimedOut call'.now = false := htime'
  rw [runs,foldl_cons,hnext]
  exact completes_at_once (Or.inr rfl) htime'' hpresents

end

lemma presents_unique {auth auth' : FederationAuth} (h : Presents m auth)
    (h' : Presents m auth') : auth = auth' := by
  obtain ⟨payload,rfl,hread⟩ := h
  obtain ⟨payload',heq,hread'⟩ := h'
  cases heq
  exact Except.ok.inj (hread.symm.trans hread')

lemma not_presents_of_greets (h : Greets m) (auth : FederationAuth) :
    ¬Presents m auth := by
  obtain ⟨_,_,_,rfl,-⟩ := h
  rintro ⟨_,heq,-⟩
  cases heq

lemma not_presents_of_accepts (h : Accepts m) (auth : FederationAuth) :
    ¬Presents m auth := by
  obtain ⟨_,_,rfl,-⟩ := h
  rintro ⟨_,heq,-⟩
  cases heq

variable {h : FederationHandshake}

lemma allVerify_of_authenticates {Peer : Bytes → Prop}
    (hstate : h.state = .sentHello) (hall : h.Authenticates Peer) : AllVerify h.crypto Peer := by
  intro m auth hm hpresents
  obtain ⟨now,htime⟩ := h.exists_inTime
  have hdone : (h.runs [({ now },m)]).state = .completed :=
    completes_at_once (Or.inl hstate) htime hpresents
  obtain ⟨m',hm',auth',hpresents',hverifies⟩ := hall _ (by simpa using ⟨hm,htime⟩) hdone
  cases mem_singleton.mp hm'
  exact presents_unique hpresents hpresents' ▸ hverifies

lemma helloSafe_of_authenticates {Peer : Bytes → Prop}
    (hstate : h.state = .init ∨ h.state = .sentHello) (hall : h.Authenticates Peer) :
    h.HelloSafe Peer := by
  intro m hm hgreets
  obtain ⟨now,htime⟩ := h.exists_inTime
  obtain ⟨payload,behind,hello,rfl,hread⟩ := id hgreets
  have hpeer : ∀ {call : Call} {m' : Bytes}, Peer m' → call.now = now →
      ∀ n ∈ [(call,0x01::payload),({ now },m')], Peer n.2 ∧ h.isTimedOut n.1.now = false := by
    rintro call m' hm' rfl n hn
    rcases mem_pair.mp hn with rfl | rfl
    · exact ⟨hm,htime⟩
    · exact ⟨hm',htime⟩
  constructor
  · rintro ⟨call,hcan⟩ m' hm' haccepts
    have hdone : (h.runs [({ call with now, behind },0x01::payload),({ now },m')]).state = .completed :=
      completes_with_ack hstate htime htime hread hcan haccepts
    obtain ⟨n,hn,auth,hpresents,-⟩ := hall _ (hpeer hm' rfl) hdone
    rcases mem_pair.mp hn with rfl | rfl
    · exact not_presents_of_greets hgreets auth hpresents
    · exact not_presents_of_accepts haccepts auth hpresents
  · rintro ⟨call,hno⟩ m' auth hm' hpresents
    have hdone : (h.runs [({ call with now, behind },0x01::payload),({ now },m')]).state = .completed :=
      completes_with_auth hstate htime htime hread hno hpresents
    obtain ⟨n,hn,auth',hpresents',hverifies⟩ := hall _ (hpeer hm' rfl) hdone
    rcases mem_pair.mp hn with rfl | rfl
    · exact absurd hpresents' (not_presents_of_greets hgreets auth')
    · exact presents_unique hpresents hpresents' ▸ hverifies

def begun (crypto : CryptoProvider) (config : Config) (created : Int64) :
    Option Call → FederationHandshake
  | none => create crypto config created
  | some call => ((create crypto config created).startAsInitiator call).after

section
variable {crypto : CryptoProvider} {config : Config} {created : Int64} {start : Option Call}
  {Peer : Bytes → Prop}

lemma begun_crypto : (begun crypto config created start).crypto = crypto := by
  cases start <;> rfl

lemma begun_state : (begun crypto config created start).state =
    if start.isSome = true then .sentHello else .init := by
  cases start <;> rfl

lemma begun_starts : (begun crypto config created start).state = .init ∨
    (begun crypto config created start).state = .sentHello := by
  cases start with
  | none => exact Or.inl rfl
  | some call => exact Or.inr rfl

lemma safe_begun (hauth : start.isSome = true → AllVerify crypto Peer)
    (hhello : (begun crypto config created start).HelloSafe Peer) :
    Safe Peer (begun crypto config created start) := by
  cases start with
  | none => exact ⟨by rintro ⟨⟩,by rintro (⟨⟨⟩⟩ | ⟨⟨⟩⟩),by rintro ⟨⟩,fun _ => hhello⟩
  | some call => exact ⟨by rintro ⟨⟩,fun _ => hauth rfl,by rintro ⟨⟩,fun _ => hhello⟩

end

/-- A peer that can send certain messages is authenticated by every handshake it completes exactly if
its auth messages verify, where the endpoint takes them, and if a hello does not let it in. -/
theorem authenticates_iff (crypto : CryptoProvider) (config : Config) (created : Int64)
    (start : Option Call) (Peer : Bytes → Prop) :
    (begun crypto config created start).Authenticates Peer ↔
      (start.isSome = true → AllVerify crypto Peer) ∧
        (begun crypto config created start).HelloSafe Peer := by
  constructor
  · intro h
    refine ⟨fun hstart => ?_,helloSafe_of_authenticates begun_starts h⟩
    have hcrypto : (begun crypto config created start).crypto = crypto := begun_crypto
    exact hcrypto ▸ allVerify_of_authenticates (begun_state.trans (if_pos hstart)) h
  · rintro ⟨hauth,hhello⟩ messages hpeer hdone
    exact (safe_begun hauth hhello).authenticated (fun m hm => (hpeer m hm).1) hdone

def oneSigner : CryptoProvider where
  verify message signature key := .ok (key = [7] ∧ signature = 7::message)
  sign _ message key := .ok (key ++ message)
  hash data := .ok data

def gateway : Config :=
  { localMeshId := [1], localIdentityKey := [7],
    localCertificateData := Certificate.serialize { subjectPubkey := [7] } }

def unsigned : FederationAuth := { localCertificate := { subjectPubkey := [9] } }

/-- Signatures cannot be forged, but an initiator completes with the unsigned message, and a passive
endpoint without any auth message. -/
theorem completes_unauthenticated : (oneSigner.Unforgeable fun key _ => key = [7]) ∧
    (let h := begun oneSigner gateway 0 (some {})
     let messages : List (Call × Bytes) := [({},0x02::unsigned.serialize)]
     (h.runs messages).state = .completed ∧ ¬Authenticated oneSigner messages) ∧
    (let h := begun oneSigner gateway 0 none
     let messages : List (Call × Bytes) :=
       [({},0x01::FederationHello.serialize {}),({},0x03::FederationAck.serialize {})]
     (h.runs messages).state = .completed ∧ ¬Authenticated oneSigner messages) := by
  have hpresents : Presents (0x02::unsigned.serialize) unsigned := ⟨_,rfl,by decide +kernel⟩
  have hfalse : unsigned.verifies oneSigner = false := by decide +kernel
  refine ⟨fun key message => ?_,⟨by decide +kernel,?_⟩,by decide +kernel,?_⟩
  · simp [oneSigner]
  · rintro ⟨m,hm,auth,hpresents',hverifies⟩
    cases mem_singleton.mp hm
    rw [← presents_unique hpresents hpresents'] at hverifies
    cases hverifies
  · rintro ⟨m,hm,auth,⟨payload,heq,-⟩,-⟩
    rcases mem_pair.mp hm with rfl | rfl
    · cases heq
    · cases heq

end FederationHandshake
end SmoFramework.Federation
