import SmoFramework.Network.Dispatcher

/-! Sending a packet over a secure connection (`PacketSessionTransport::send` of
`core/network/packet_dispatcher` and `send_framed` of `core/transport/secure_session`). What
`write` returns is a parameter; a call without an answer is still waiting for the socket. -/
namespace SmoFramework.Network
open Library.BigEndian List

inductive WriteOutcome
  | wrote (n : ℕ)
  | interrupted
  | failed

structure Written where
  result : Result Unit
  wire : Bytes
  rest : List WriteOutcome

def writeAll : List WriteOutcome → Bytes → Option Written
  | [],data => if data = [] then some ⟨.ok (),[],[]⟩ else none
  | out::outs,data =>
    if data = [] then some ⟨.ok (),[],out::outs⟩
    else match out with
      | .interrupted => writeAll outs data
      | .failed => some ⟨.error (smoErrTransport 304 .error .retrySafe .reconnect
          "secure write failed"),[],outs⟩
      | .wrote n => (writeAll outs (data.drop n)).map fun w => { w with wire := data.take n ++ w.wire }

structure SecureSession where
  secure : Bool
  ctx : SessionCryptoContext

/-- The length that `send_framed` puts in front of a payload. -/
def frameHeader (payload : Bytes) : Bytes := toBE 4 payload.length

def SecureSession.sendFramed (sec : SecureSession) (payload : Bytes) (outs : List WriteOutcome) :
    Option Written :=
  if sec.secure = false then
    some ⟨.error (smoErrTransport 312 .error .noRetry .reconnect "send_framed before handshake"),[],outs⟩
  else do
    let w ← writeAll outs (frameHeader payload)
    match w.result with
    | .error _ => some w
    | .ok () =>
      let w' ← writeAll w.rest payload
      some { w' with wire := w.wire ++ w'.wire }

inductive SendError
  | invalidArgument | ioError
  deriving DecidableEq

structure Sent where
  result : Except SendError Unit
  wire : Bytes := []

section
variable (reg : OpcodeRegistry) (aead : Aead) (blake3 : Blake3) (sec : SecureSession) (pkt : Packet)

def send (outs : List WriteOutcome) : Option Sent :=
  match PacketRoute.toPacketRouteId reg pkt.opcodeId with
  | none => some { result := .error .invalidArgument }
  | some _ =>
    if isZeroSession pkt.header.sessionId ∨ pkt.header.nonce = 0 then
      some { result := .error .invalidArgument }
    else match packetSealData aead blake3 pkt sec.ctx.txKey pkt.header.nonce with
      | (.error _,_) => some { result := .error .invalidArgument }
      | (.ok (),sealed) =>
        match packetToBuffer reg sealed with
        | .error _ => some { result := .error .invalidArgument }
        | .ok buf => (sec.sendFramed buf outs).map fun w => match w.result with
          | .error _ => ⟨.error .ioError,w.wire⟩
          | .ok () => ⟨.ok (),w.wire⟩

structure Encryption where
  key : Bytes
  nonce : Bytes
  plaintext : Bytes

def encryptionOf : Encryption where
  key := sec.ctx.txKey.material
  nonce := deriveAeadNonce blake3 pkt.header.sessionId.toList pkt.header.nonce
  plaintext := pkt.payload

def succeeds (sec : SecureSession) (c : Packet × List WriteOutcome) : Bool :=
  (send reg aead blake3 sec c.1 c.2).any fun sent => sent.result.isOk

def sentEncryptions (sec : SecureSession) (calls : List (Packet × List WriteOutcome)) :
    List Encryption :=
  (calls.filter (succeeds reg aead blake3 sec)).map fun c => encryptionOf blake3 sec c.1

/-- What the checks of `send` ask of a packet. -/
structure Sendable (sec : SecureSession) (pkt : Packet) : Prop where
  secure : sec.secure = true
  key : sec.ctx.txKey.material.length = XChaCha20Provider.kKeySize
  opcode : (PacketRoute.toPacketRouteId reg pkt.opcodeId).isSome = true
  session : pkt.header.sessionId ≠ Id16.zero
  sequence : pkt.header.nonce ≠ 0
  size : pkt.payload.length ≤ 65535
  route : ∃ route, emittedRoute reg pkt = some route ∧
    reg.validatePacketOpcode route.ns route.messageId = .ok ()

end

/-- No two different plaintexts are encrypted under one key and one nonce. -/
def NonceFresh (log : List Encryption) : Prop :=
  ∀ e ∈ log, ∀ e' ∈ log, e.key = e'.key → e.nonce = e'.nonce → e.plaintext = e'.plaintext

variable {reg : OpcodeRegistry} {aead : Aead} {blake3 : Blake3} {sec : SecureSession} {pkt : Packet}

@[simp] lemma writeAll_nil (outs : List WriteOutcome) : writeAll outs [] = some ⟨.ok (),[],outs⟩ := by
  cases outs <;> simp [writeAll]

lemma writeAll_wrote (data : Bytes) (outs : List WriteOutcome) (h : data ≠ []) :
    writeAll (.wrote data.length::outs) data = some ⟨.ok (),data,outs⟩ := by
  simp [writeAll,h]

theorem writeAll_ok (h : writeAll outs data = some w) (hok : w.result = .ok ()) : w.wire = data := by
  induction outs generalizing data w with
  | nil =>
    unfold writeAll at h
    split_ifs at h with hd
    cases h
    exact hd.symm
  | cons out outs ih =>
    by_cases hd : data = []
    · subst hd
      rw [writeAll_nil] at h
      cases h
      rfl
    cases out with
    | interrupted => exact ih (by simpa [writeAll,hd] using h) hok
    | failed =>
      simp only [writeAll,if_neg hd,Option.some.injEq] at h
      subst h
      cases hok
    | wrote n =>
      simp only [writeAll,if_neg hd,Option.map_eq_some_iff] at h
      obtain ⟨w',hw',rfl⟩ := h
      simp only [ih hw' hok,take_append_drop]

lemma sendFramed_ok (h : sec.sendFramed payload outs = some w) (hok : w.result = .ok ()) :
    sec.secure = true ∧ w.wire = frameHeader payload ++ payload := by
  unfold SecureSession.sendFramed at h
  split_ifs at h with hsec
  · cases h
    cases hok
  refine ⟨by simpa using hsec,?_⟩
  obtain ⟨w₁,hw₁,h⟩ := Option.bind_eq_some_iff.mp h
  cases hr : w₁.result with
  | error e =>
    rw [hr] at h
    cases h
    rw [hr] at hok
    cases hok
  | ok _ =>
    rw [hr] at h
    obtain ⟨w₂,hw₂,h⟩ := Option.bind_eq_some_iff.mp h
    cases h
    rw [writeAll_ok hw₁ hr,writeAll_ok hw₂ hok]

theorem sendFramed_wrote (hsec : sec.secure = true) (h : payload ≠ []) :
    sec.sendFramed payload [.wrote 4,.wrote payload.length] =
      some ⟨.ok (),frameHeader payload ++ payload,[]⟩ := by
  have hhdr := writeAll_wrote (frameHeader payload) [.wrote payload.length] (by simp [frameHeader,toBE])
  rw [frameHeader,length_toBE] at hhdr
  simp [SecureSession.sendFramed,hsec,frameHeader,hhdr,writeAll_wrote payload [] h]

def sealedForSend (aead : Aead) (blake3 : Blake3) (sec : SecureSession) (pkt : Packet) : Packet :=
  { pkt with
    header := sealedHeader pkt pkt.header.nonce
    payload := (lockPacket aead blake3 pkt sec.ctx.txKey.material pkt.header.nonce).1
    auth := (lockPacket aead blake3 pkt sec.ctx.txKey.material pkt.header.nonce).2 }

lemma emittedRoute_sealedForSend : emittedRoute reg (sealedForSend aead blake3 sec pkt) =
    emittedRoute reg pkt := rfl

/-- A packet that passes the checks is framed with what the cipher made of its payload. -/
theorem Sendable.send_eq (h : Sendable reg sec pkt) (aead : Aead) (blake3 : Blake3)
    (outs : List WriteOutcome) :
    ∃ buf, packetToBuffer reg (sealedForSend aead blake3 sec pkt) = .ok buf ∧
      send reg aead blake3 sec pkt outs = (sec.sendFramed buf outs).map fun w => match w.result with
        | .error _ => ⟨.error .ioError,w.wire⟩
        | .ok () => ⟨.ok (),w.wire⟩ := by
  obtain ⟨r,hr⟩ := Option.isSome_iff_exists.mp h.opcode
  obtain ⟨route,hroute,hval⟩ := h.route
  have hseal : packetSealData aead blake3 pkt sec.ctx.txKey pkt.header.nonce =
      (.ok (),sealedForSend aead blake3 sec pkt) :=
    packetSealData_ok_iff.mpr ⟨h.key,h.sequence,h.session,h.size,rfl⟩
  have hlen : (sealedForSend aead blake3 sec pkt).payload.length ≤ 65535 :=
    (lockPacket_cipher_length _ _ _).trans_le h.size
  have hbuf := packetToBuffer_ok_iff.mpr ⟨rfl,hlen,route,emittedRoute_sealedForSend.trans hroute,hval,rfl⟩
  refine ⟨_,hbuf,?_⟩
  have hcheck : ¬(isZeroSession pkt.header.sessionId = true ∨ pkt.header.nonce = 0) := by
    rintro (hz | hz)
    · rw [isZeroSession_eq_false.mpr h.session] at hz
      cases hz
    · exact h.sequence hz
  simp only [send,hr,if_neg hcheck,hseal,hbuf]

lemma sendable_of_send
    (h : send reg aead blake3 sec pkt outs = some sent) (hok : sent.result = .ok ()) :
    Sendable reg sec pkt := by
  have hfail : ∀ {e : SendError} {wire : Bytes}, some ⟨.error e,wire⟩ ≠ some sent := by
    rintro e wire ⟨rfl⟩
    cases hok
  unfold send at h
  cases hr : PacketRoute.toPacketRouteId reg pkt.opcodeId with
  | none =>
    rw [hr] at h
    exact absurd h hfail
  | some r =>
    rw [hr] at h
    dsimp only at h
    split_ifs at h with hcheck
    · exact absurd h hfail
    rcases hseal : packetSealData aead blake3 pkt sec.ctx.txKey pkt.header.nonce with ⟨e | _,q⟩
    · rw [hseal] at h
      exact absurd h hfail
    · rw [hseal] at h
      obtain ⟨hkey,hseq,hsid,hsize,rfl⟩ := packetSealData_ok_iff.mp hseal
      dsimp only at h
      split at h
      · exact absurd h hfail
      · rename_i buf hbuf
        obtain ⟨-,-,route,hroute,hval,-⟩ := packetToBuffer_ok_iff.mp hbuf
        obtain ⟨w,hw,hsent⟩ := Option.map_eq_some_iff.mp h
        have hwok : w.result = .ok () := by
          cases hwr : w.result with
          | error e =>
            rw [hwr] at hsent
            exact absurd (congrArg some hsent) hfail
          | ok _ => rfl
        exact ⟨(sendFramed_ok hw hwok).1,hkey,by rw [hr]; rfl,hsid,hseq,hsize,route,hroute,hval⟩

def takesAll (pkt : Packet) : List WriteOutcome := [.wrote 4,.wrote (55+pkt.payload.length)]

lemma Sendable.succeeds (h : Sendable reg sec pkt) :
    succeeds reg aead blake3 sec (pkt,takesAll pkt) = true := by
  obtain ⟨buf,hbuf,heq⟩ := h.send_eq aead blake3 (takesAll pkt)
  have hlen : buf.length = 55+pkt.payload.length := by
    obtain ⟨-,-,route,-,-,rfl⟩ := packetToBuffer_ok_iff.mp hbuf
    simp only [length_append,length_serializePacketHeader,sealedForSend,lockPacket_cipher_length,
      lockPacket_mac_length,kAeadTagLen]
    omega
  have hne : buf ≠ [] := ne_nil_of_length_pos (by omega)
  rw [takesAll,← hlen,sendFramed_wrote h.secure hne] at heq
  simp only [Network.succeeds,takesAll,← hlen,heq]
  rfl

lemma sendable_of_succeeds
    (h : Network.succeeds reg aead blake3 sec c = true) : Sendable reg sec c.1 := by
  obtain ⟨sent,hsent,hok⟩ := (Option.any_eq_true _ _).mp h
  cases hr : sent.result with
  | error e => simp [hr,Except.isOk,Except.toBool] at hok
  | ok _ => exact sendable_of_send hsent hr

/-- The packets that pass the checks never give one session id and sequence to two payloads. -/
def NumbersFresh (reg : OpcodeRegistry) (sec : SecureSession) (packets : List Packet) : Prop :=
  ∀ p ∈ packets, ∀ q ∈ packets, Sendable reg sec p → Sendable reg sec q →
    p.header.sessionId = q.header.sessionId → p.header.nonce = q.header.nonce → p.payload = q.payload

/-- The nonce tells session ids and sequences apart. -/
def NonceInjective (blake3 : Blake3) : Prop := ∀ (id id' : Id16) (n n' : UInt64),
  deriveAeadNonce blake3 id.toList n = deriveAeadNonce blake3 id'.toList n' → id = id' ∧ n = n'

/-- Over any sends on one connection and whatever the socket does, no nonce is used for two
payloads exactly when the caller's packets bring fresh numbers: `send` itself keeps no count. -/
theorem send_nonce_fresh_iff (reg : OpcodeRegistry) (aead : Aead) (blake3 : Blake3)
    (hinj : NonceInjective blake3) (sec : SecureSession) (packets : List Packet) :
    (∀ calls : List (Packet × List WriteOutcome), calls.map Prod.fst = packets →
      NonceFresh (sentEncryptions reg aead blake3 sec calls)) ↔ NumbersFresh reg sec packets := by
  constructor
  · intro hfresh p hp q hq hps hqs hid hnonce
    have hmem : ∀ r ∈ packets, Sendable reg sec r → encryptionOf blake3 sec r ∈
        sentEncryptions reg aead blake3 sec (packets.map fun r => (r,takesAll r)) := by
      intro r hr hrs
      exact mem_map.mpr ⟨(r,takesAll r),mem_filter.mpr ⟨mem_map.mpr ⟨r,hr,rfl⟩,hrs.succeeds⟩,rfl⟩
    refine hfresh _ (by simp [Function.comp_def]) _ (hmem p hp hps) _ (hmem q hq hqs) rfl ?_
    rw [encryptionOf,encryptionOf,hid,hnonce]
  · rintro hfresh calls rfl e he e' he' - hnonce
    obtain ⟨c,hc,rfl⟩ := mem_map.mp he
    obtain ⟨c',hc',rfl⟩ := mem_map.mp he'
    obtain ⟨hcin,hcok⟩ := mem_filter.mp hc
    obtain ⟨hcin',hcok'⟩ := mem_filter.mp hc'
    obtain ⟨hid,hseq⟩ := hinj _ _ _ _ hnonce
    exact hfresh _ (mem_map_of_mem hcin) _ (mem_map_of_mem hcin')
      (sendable_of_succeeds hcok) (sendable_of_succeeds hcok') hid hseq

/-! Two packets under a hash that only pads. -/

def padHash : Blake3 := fun bytes => ⟨(bytes ++ List.replicate 32 0).take 32,by simp⟩

lemma padHash_injective : NonceInjective padHash := by
  have hpad : ∀ (id : Id16) (n : UInt64),
      deriveAeadNonce padHash id.toList n = id.toList ++ write64 n := by
    intro id n
    have hlen : (id.toList ++ write64 n).length = 24 := by simp
    change ((id.toList ++ write64 n ++ replicate 32 0).take 32).take 24 = _
    rw [take_take,show min 24 32 = 24 from rfl,← hlen,take_left]
  intro id id' n n' h
  rw [hpad,hpad] at h
  obtain ⟨hid,hn⟩ := append_inj h (by simp)
  exact ⟨List.Vector.toList_injective hid,by rw [← read64_write64 n,hn,read64_write64]⟩

def openConnection : SecureSession := ⟨true,otherContext⟩

def numbered (nonce : UInt64) (payload : Bytes) : Packet :=
  { routedPacket with header := { routedPacket.header with nonce }, payload }

def sendBoth (p q : Packet) : List Encryption :=
  sentEncryptions .initial sumAead padHash openConnection [(p,takesAll p),(q,takesAll q)]

theorem send_nonce_fresh_two : (sendBoth (numbered 1 [1]) (numbered 2 [2])).length = 2 ∧
      NonceFresh (sendBoth (numbered 1 [1]) (numbered 2 [2])) := by
  have hnumbers : ∀ p ∈ [numbered 1 [1],numbered 2 [2]], ∀ q ∈ [numbered 1 [1],numbered 2 [2]],
      p.header.nonce = q.header.nonce → p.payload = q.payload := by decide
  exact ⟨by decide +kernel,(send_nonce_fresh_iff .initial sumAead padHash padHash_injective
    openConnection [numbered 1 [1],numbered 2 [2]]).mpr
      (fun p hp q hq _ _ _ => hnumbers p hp q hq) _ rfl⟩

/-- The caller sends two payloads under one sequence: both go out, under one nonce. -/
theorem send_nonce_reused : NonceInjective padHash ∧
    ∃ e e', sendBoth (numbered 1 [1]) (numbered 1 [2]) = [e,e'] ∧
      e.key = e'.key ∧ e.nonce = e'.nonce ∧ e.plaintext ≠ e'.plaintext := by
  have hok : ∀ p ∈ [numbered 1 [1],numbered 1 [2]],
      succeeds .initial sumAead padHash openConnection (p,takesAll p) = true := by decide +kernel
  refine ⟨padHash_injective,encryptionOf padHash openConnection (numbered 1 [1]),
    encryptionOf padHash openConnection (numbered 1 [2]),?_,rfl,rfl,by decide⟩
  simp [sendBoth,sentEncryptions,hok]

end SmoFramework.Network
