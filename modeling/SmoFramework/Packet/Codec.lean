import Mathlib.Data.Vector.Basic
import SmoFramework.Opcode.Registry
import SmoFramework.Library.BigEndian

/-! The packet wire format (`protocol/packet/packet` and `packet_route`): a 39-byte big-endian
header, the payload, and an authentication field whose length follows from namespace and suite. -/
namespace SmoFramework
open SmoFramework.Library.BigEndian List

namespace PacketRoute

structure Route where
  ns : UInt8
  messageId : UInt16
  deriving DecidableEq, Repr

variable (reg : OpcodeRegistry)

def toPacketRoute (op : Opcode) : Option Route :=
  match reg.resolve op with
  | .error _ => none
  | .ok entry => if entry.ns = 0 ∨ entry.messageId = 0 then none else some ⟨entry.ns,entry.messageId⟩

def toPacketRouteId (opcodeId : UInt32) : Option Route :=
  if opcodeId > 0xFF then none else toPacketRoute reg ⟨opcodeId.toUInt8⟩

def fromPacketRoute (ns : UInt8) (messageId : UInt16) : Option Opcode :=
  match reg.resolveByWire ns messageId with
  | .error _ => none
  | .ok entry => some entry.id

def opcodeIdOf (ns : UInt8) (messageId : UInt16) : UInt32 :=
  match fromPacketRoute reg ns messageId with
  | some op => op.val.toUInt32
  | none => 0

end PacketRoute

def kPacketProtocolVersion : UInt8 := 0x03
def kPacketHeaderWireSize : ℕ := 39
def kAeadTagLen : ℕ := 16
def kEd25519SigLen : ℕ := 64
def kMlDsa65SigLen : ℕ := 3309

abbrev Id16 := List.Vector UInt8 16

def Id16.zero : Id16 := List.Vector.replicate 16 0

structure PacketHeader where
  protocolVersion : UInt8 := kPacketProtocolVersion
  suiteId : UInt8 := 0
  ns : UInt8 := 0
  messageId : UInt16 := 0
  sessionId : Id16 := Id16.zero
  timestamp : Int64 := 0
  nonce : UInt64 := 0
  payloadLength : UInt16 := 0
  deriving DecidableEq

structure Packet where
  header : PacketHeader := {}
  payload : Bytes := []
  auth : Bytes := []
  opcodeId : UInt32 := 0
  intentId : Id16 := Id16.zero
  deriving DecidableEq

def expectedAuthLength (ns suiteId : UInt8) : ℕ :=
  if ns = kNamespaceDiscovery ∨ ns = kNamespaceExecution ∨ ns = kNamespaceData then kAeadTagLen
  else if ns = kNamespaceControl then
    if suiteId = 1 ∨ suiteId = 2 then kEd25519SigLen
    else if suiteId = 3 then kMlDsa65SigLen
    else 0
  else 0

def serializePacketHeader (header : PacketHeader) : Bytes :=
  [header.protocolVersion,header.suiteId,header.ns] ++ (write16 header.messageId ++
    (header.sessionId.toList ++ (write64 header.timestamp.toUInt64 ++ (write64 header.nonce ++
      write16 header.payloadLength))))

/-- The field reads of `packet_from_buffer`, on a buffer of at least 39 bytes. -/
def readPacketHeader (wire : Bytes) : PacketHeader where
  protocolVersion := wire.getD 0 0
  suiteId := wire.getD 1 0
  ns := wire.getD 2 0
  messageId := read16 (wire.getD 3 0) (wire.getD 4 0)
  sessionId := ⟨bytesAt wire 5 16,length_bytesAt _ _ _⟩
  timestamp := (read64 (bytesAt wire 21 8)).toInt64
  nonce := read64 (bytesAt wire 29 8)
  payloadLength := read16 (wire.getD 37 0) (wire.getD 38 0)

def isZeroSession (sid : Id16) : Bool := sid.toList.all (fun b => b == 0)

variable (reg : OpcodeRegistry)

def packetFromBuffer (wire : Bytes) : Result Packet :=
  if wire.length < kPacketHeaderWireSize then
    .error (smoErrProtocol 600 .error .noRetry .none "wire buffer too short for packet header")
  else if wire.getD 0 0 ≠ kPacketProtocolVersion then
    .error (smoErrProtocol 601 .error .noRetry .none "unsupported packet version")
  else
    let header := readPacketHeader wire
    if header.nonce = 0 then
      .error (smoErrProtocol 602 .error .noRetry .none "zero nonce rejected (RFC 0019 rule 1)")
    else if isZeroSession header.sessionId then
      .error (smoErrProtocol 603 .error .noRetry .none "zero session_id rejected")
    else
      let authLen := expectedAuthLength header.ns header.suiteId
      if authLen = 0 then
        .error (smoErrProtocol 604 .error .noRetry .none "unsupported namespace for packet G3")
      else match reg.validatePacketOpcode header.ns header.messageId with
        | .error e => .error e
        | .ok () =>
          let payloadEnd := kPacketHeaderWireSize+header.payloadLength.toNat
          if payloadEnd > wire.length then
            .error (smoErrProtocol 605 .error .noRetry .none "payload length exceeds wire buffer")
          else if payloadEnd+authLen ≠ wire.length then
            .error (smoErrProtocol 606 .error .noRetry .none "auth length mismatch")
          else .ok {
            header := header
            payload := (wire.drop kPacketHeaderWireSize).take header.payloadLength.toNat
            auth := wire.drop payloadEnd
            opcodeId := PacketRoute.opcodeIdOf reg header.ns header.messageId }

def emittedRoute (pkt : Packet) : Option PacketRoute.Route :=
  if pkt.header.messageId = 0 then PacketRoute.toPacketRouteId reg pkt.opcodeId
  else some ⟨pkt.header.ns,pkt.header.messageId⟩

def wireHeader (pkt : Packet) (route : PacketRoute.Route) : PacketHeader :=
  { pkt.header with
    protocolVersion := kPacketProtocolVersion
    ns := route.ns
    messageId := route.messageId
    payloadLength := UInt16.ofNat pkt.payload.length }

/-- The bytes left in `out`, which is empty after an error. -/
def packetToBuffer (pkt : Packet) : Result Bytes :=
  if pkt.header.protocolVersion ≠ kPacketProtocolVersion then
    .error (smoErrProtocol 601 .error .noRetry .none "unsupported packet version to serialize")
  else if pkt.payload.length > 65535 then
    .error (smoErrProtocol 602 .error .noRetry .none "payload too large")
  else match emittedRoute reg pkt with
    | none => .error (smoErrProtocol 603 .error .noRetry .none "no packet route for opcode")
    | some route => match reg.validatePacketOpcode route.ns route.messageId with
      | .error e => .error e
      | .ok () => .ok (serializePacketHeader (wireHeader pkt route) ++ pkt.payload ++ pkt.auth)

/-! The header codec. -/

@[simp] lemma length_serializePacketHeader (header : PacketHeader) :
    (serializePacketHeader header).length = 39 := by
  simp [serializePacketHeader,write16]

lemma take_serialized (header : PacketHeader) (payload auth : Bytes) :
    (serializePacketHeader header ++ payload ++ auth).take 39 = serializePacketHeader header := by
  rw [append_assoc,← length_serializePacketHeader header,take_left]

lemma drop_serialized (header : PacketHeader) (payload auth : Bytes) :
    (serializePacketHeader header ++ payload ++ auth).drop 39 = payload ++ auth := by
  rw [append_assoc,← length_serializePacketHeader header,drop_left]

theorem readPacketHeader_serialize (header : PacketHeader) (rest : Bytes) :
    readPacketHeader (serializePacketHeader header ++ rest) = header := by
  obtain ⟨version,suite,ns,mid,⟨sid,hsid⟩,ts,nonce,len⟩ := header
  generalize hwire : serializePacketHeader ⟨version,suite,ns,mid,⟨sid,hsid⟩,ts,nonce,len⟩ ++ rest = wire
  have hfield : ∀ {off n : ℕ} (front field behind : Bytes), wire = front ++ (field ++ behind) →
      front.length = off → field.length = n → bytesAt wire off n = field :=
    fun front field behind h hoff hn => h ▸ bytesAt_append hoff hn
  -- The prefixes in front of the four multi-byte fields have lengths 5, 21, 29 and 37.
  have hs : bytesAt wire 5 16 = sid := hfield ([version,suite,ns] ++ write16 mid) sid
    (write64 ts.toUInt64 ++ (write64 nonce ++ (write16 len ++ rest)))
    (by simp [← hwire,serializePacketHeader]) rfl hsid
  have ht : bytesAt wire 21 8 = write64 ts.toUInt64 := hfield ([version,suite,ns] ++ write16 mid ++ sid)
    _ (write64 nonce ++ (write16 len ++ rest)) (by simp [← hwire,serializePacketHeader])
    (by simp [write16,hsid]) (by simp)
  have hn : bytesAt wire 29 8 = write64 nonce :=
    hfield ([version,suite,ns] ++ write16 mid ++ sid ++ write64 ts.toUInt64) _ (write16 len ++ rest)
      (by simp [← hwire,serializePacketHeader]) (by simp [write16,hsid]) (by simp)
  have hl : bytesAt wire 37 2 = write16 len :=
    hfield ([version,suite,ns] ++ write16 mid ++ sid ++ write64 ts.toUInt64 ++ write64 nonce) _ rest
      (by simp [← hwire,serializePacketHeader]) (by simp [write16,hsid]) rfl
  obtain ⟨hl0,hl1⟩ := cons.inj hl
  subst hwire
  unfold readPacketHeader
  simp only [hs,ht,hn,read64_write64]
  congr 1
  · exact read16_write16 mid
  · exact (congrArg₂ read16 hl0 (cons.inj hl1).1).trans (read16_write16 len)

variable {wire : Bytes}

lemma serialize_readPacketHeader (h : 39 ≤ wire.length) :
    serializePacketHeader (readPacketHeader wire) = wire.take 39 := by
  have hfields : serializePacketHeader (readPacketHeader wire) =
      bytesAt wire 0 3 ++ (bytesAt wire 3 2 ++ (bytesAt wire 5 16 ++ (bytesAt wire 21 8 ++
        (bytesAt wire 29 8 ++ bytesAt wire 37 2)))) := by
    unfold serializePacketHeader readPacketHeader
    simp only [write16_read16,UInt64.toUInt64_toInt64,List.Vector.toList_mk,
      write64_read64 (length_bytesAt _ _ _)]
    rfl
  have hjoin : ∀ off n, off+n ≤ 39 → wire.take off ++ bytesAt wire off n = wire.take (off+n) :=
    fun off n hn => take_append_bytesAt (hn.trans h)
  have h0 : bytesAt wire 0 3 = wire.take 3 := by simpa using hjoin 0 3 (by decide)
  rw [hfields,h0]
  simp only [← append_assoc]
  rw [hjoin 3 2 (by decide),hjoin 5 16 (by decide),hjoin 21 8 (by decide),hjoin 29 8 (by decide),
    hjoin 37 2 (by decide)]

/-! What the two directions accept. -/

variable {reg : OpcodeRegistry} {pkt : Packet} {reg}

/-- Everything `packet_to_buffer` checks, and what it then emits. -/
theorem packetToBuffer_ok_iff : packetToBuffer reg pkt = .ok wire ↔
      pkt.header.protocolVersion = kPacketProtocolVersion ∧ pkt.payload.length ≤ 65535 ∧
      ∃ route, emittedRoute reg pkt = some route ∧
        reg.validatePacketOpcode route.ns route.messageId = .ok () ∧
        wire = serializePacketHeader (wireHeader pkt route) ++ pkt.payload ++ pkt.auth := by
  unfold packetToBuffer
  simp only [ite_error_eq_ok]
  constructor
  · rintro ⟨hv,hp,h⟩
    split at h
    · cases h
    · rename_i route hr
      split at h
      · cases h
      · rename_i hval
        exact ⟨not_not.mp hv,by omega,route,hr,hval,(Except.ok.inj h).symm⟩
  · rintro ⟨hv,hp,route,hr,hval,rfl⟩
    refine ⟨not_not.mpr hv,by omega,?_⟩
    simp only [hr,hval]

/-- The packet `packet_from_buffer` builds once every check has passed. -/
def packetOfWire (reg : OpcodeRegistry) (wire : Bytes) : Packet where
  header := readPacketHeader wire
  payload := (wire.drop 39).take (readPacketHeader wire).payloadLength.toNat
  auth := wire.drop (39+(readPacketHeader wire).payloadLength.toNat)
  opcodeId := PacketRoute.opcodeIdOf reg (readPacketHeader wire).ns (readPacketHeader wire).messageId

/-- The checks of `packet_from_buffer`. -/
structure Accepts (reg : OpcodeRegistry) (wire : Bytes) : Prop where
  long : 39 ≤ wire.length
  version : (readPacketHeader wire).protocolVersion = kPacketProtocolVersion
  nonce : (readPacketHeader wire).nonce ≠ 0
  session : isZeroSession (readPacketHeader wire).sessionId = false
  suite : 0 < expectedAuthLength (readPacketHeader wire).ns (readPacketHeader wire).suiteId
  opcode : reg.validatePacketOpcode (readPacketHeader wire).ns
    (readPacketHeader wire).messageId = .ok ()
  size : 39+(readPacketHeader wire).payloadLength.toNat+
    expectedAuthLength (readPacketHeader wire).ns (readPacketHeader wire).suiteId = wire.length

lemma packetFromBuffer_ok_iff :
    packetFromBuffer reg wire = .ok pkt ↔ Accepts reg wire ∧ pkt = packetOfWire reg wire := by
  unfold packetFromBuffer
  simp only [ite_error_eq_ok]
  rw [show kPacketHeaderWireSize = 39 from rfl]
  constructor
  · rintro ⟨hlen,hver,hnonce,hsid,hauth,h⟩
    split at h
    · cases h
    · rename_i hval
      obtain ⟨-,hsize,hpkt⟩ : _ ∧ _ ∧ _ := by simpa only [ite_error_eq_ok] using h
      exact ⟨⟨by omega,not_not.mp hver,hnonce,by simpa using hsid,by omega,hval,not_not.mp hsize⟩,
        (Except.ok.inj hpkt).symm⟩
  · rintro ⟨⟨hlen,hver,hnonce,hsid,hauth,hval,hsize⟩,rfl⟩
    refine ⟨by omega,not_not.mpr hver,hnonce,by simp [hsid],by omega,?_⟩
    simp only [hval,ite_error_eq_ok]
    exact ⟨by omega,not_not.mpr hsize,rfl⟩

lemma isZeroSession_eq_false : isZeroSession sid = false ↔ sid ≠ Id16.zero := by
  rw [← Bool.not_eq_true,not_iff_not]
  unfold isZeroSession
  rw [all_eq_true]
  constructor
  · intro h
    apply List.Vector.toList_injective
    change sid.toList = replicate 16 0
    exact eq_replicate_iff.mpr ⟨sid.toList_length,fun b hb => by simpa using h b hb⟩
  · rintro rfl b hb
    have hb' : b ∈ replicate 16 (0 : UInt8) := hb
    simp [eq_of_mem_replicate hb']

/-- The split of an accepted buffer into header, payload and authentication field. -/
theorem Accepts.split (h : Accepts reg wire) :
    wire = serializePacketHeader (readPacketHeader wire) ++ (packetOfWire reg wire).payload ++
      (packetOfWire reg wire).auth := by
  rw [serialize_readPacketHeader h.long]
  dsimp only [packetOfWire]
  rw [append_assoc,← drop_drop,take_append_drop,take_append_drop]

lemma Accepts.payload_length (h : Accepts reg wire) :
    (packetOfWire reg wire).payload.length = (readPacketHeader wire).payloadLength.toNat := by
  have hsize := h.size
  dsimp only [packetOfWire]
  rw [length_take,length_drop]
  omega

lemma Accepts.wireHeader_eq (h : Accepts reg wire) :
    wireHeader (packetOfWire reg wire) ⟨(readPacketHeader wire).ns,(readPacketHeader wire).messageId⟩ =
      readPacketHeader wire := by
  unfold wireHeader
  rw [h.payload_length,← h.version,UInt16.ofNat_toNat]
  rfl

lemma packetToBuffer_fromBuffer (hreg : reg.Reachable) (h : packetFromBuffer reg wire = .ok pkt) :
    packetToBuffer reg pkt = .ok wire := by
  obtain ⟨hacc,rfl⟩ := packetFromBuffer_ok_iff.mp h
  have hmid := (hreg.validatePacketOpcode_ok hacc.opcode).1
  have hlen := (readPacketHeader wire).payloadLength.toNat_lt
  refine packetToBuffer_ok_iff.mpr ⟨hacc.version,?_,_,if_neg hmid,hacc.opcode,?_⟩
  · rw [hacc.payload_length]
    omega
  · exact hacc.split.trans (by rw [← hacc.wireHeader_eq]; rfl)

theorem packetOfWire_serialize (reg : OpcodeRegistry)
    (hlen : header.payloadLength.toNat = payload.length) :
    packetOfWire reg (serializePacketHeader header ++ payload ++ auth) = {
      header := header
      payload := payload
      auth := auth
      opcodeId := PacketRoute.opcodeIdOf reg header.ns header.messageId } := by
  unfold packetOfWire
  rw [← drop_drop,drop_serialized,append_assoc,readPacketHeader_serialize,hlen,take_left,drop_left]

theorem packetFromBuffer_emitted (hver : header.protocolVersion = kPacketProtocolVersion)
    (hlen : header.payloadLength.toNat = payload.length) (hnonce : header.nonce ≠ 0)
    (hsid : header.sessionId ≠ Id16.zero)
    (hauth : auth.length = expectedAuthLength header.ns header.suiteId) (hpos : 0 < auth.length)
    (hval : reg.validatePacketOpcode header.ns header.messageId = .ok ()) :
    packetFromBuffer reg (serializePacketHeader header ++ payload ++ auth) = .ok {
      header := header
      payload := payload
      auth := auth
      opcodeId := PacketRoute.opcodeIdOf reg header.ns header.messageId } := by
  have hread := readPacketHeader_serialize header (payload ++ auth)
  rw [← append_assoc] at hread
  have hacc : Accepts reg (serializePacketHeader header ++ payload ++ auth) := by
    constructor
    · simp only [length_append,length_serializePacketHeader]
      omega
    · rwa [hread]
    · rwa [hread]
    · rw [hread]
      exact isZeroSession_eq_false.mpr hsid
    · rw [hread]
      omega
    · rwa [hread]
    · rw [hread]
      simp only [length_append,length_serializePacketHeader]
      omega
  exact packetFromBuffer_ok_iff.mpr ⟨hacc,(packetOfWire_serialize reg hlen).symm⟩

/-- The codec is a bijection between accepted buffers and the packets it emits. -/
theorem packet_codec_canonical (reg : OpcodeRegistry) (hreg : reg.Reachable) :
    (∀ wire pkt, packetFromBuffer reg wire = .ok pkt → packetToBuffer reg pkt = .ok wire) ∧
    (∀ pkt wire, packetToBuffer reg pkt = .ok wire → pkt.header.nonce ≠ 0 →
      pkt.header.sessionId ≠ Id16.zero →
      ∃ route, emittedRoute reg pkt = some route ∧
        wire.take 39 = serializePacketHeader (wireHeader pkt route) ∧
        (pkt.auth.length = expectedAuthLength route.ns pkt.header.suiteId → 0 < pkt.auth.length →
          packetFromBuffer reg wire = .ok {
            header := { pkt.header with
              ns := route.ns
              messageId := route.messageId
              payloadLength := UInt16.ofNat pkt.payload.length }
            payload := pkt.payload
            auth := pkt.auth
            opcodeId := PacketRoute.opcodeIdOf reg route.ns route.messageId })) := by
  refine ⟨fun wire pkt h => packetToBuffer_fromBuffer hreg h,?_⟩
  intro pkt wire h hnonce hsid
  obtain ⟨hver,hpay,route,hroute,hval,rfl⟩ := packetToBuffer_ok_iff.mp h
  have hheader : wireHeader pkt route = { pkt.header with
      ns := route.ns
      messageId := route.messageId
      payloadLength := UInt16.ofNat pkt.payload.length } := by
    unfold wireHeader
    rw [← hver]
  refine ⟨route,hroute,take_serialized _ _ _,fun hauth hpos => ?_⟩
  rw [hheader]
  have hlen : (UInt16.ofNat pkt.payload.length).toNat = pkt.payload.length :=
    UInt16.toNat_ofNat_of_lt' (Nat.lt_succ_of_le hpay)
  exact packetFromBuffer_emitted hver hlen hnonce hsid hauth hpos hval

def lsPacket : Packet where
  header := { suiteId := 1, sessionId := List.Vector.replicate 16 1, nonce := 7 }
  payload := [1,2,3]
  auth := List.replicate 16 9
  opcodeId := 0x01

lemma emittedRoute_lsPacket : emittedRoute .initial lsPacket = some ⟨1,0x0101⟩ := by
  decide +kernel

lemma packetToBuffer_lsPacket : packetToBuffer .initial lsPacket =
    .ok (serializePacketHeader (wireHeader lsPacket ⟨1,0x0101⟩) ++ [1,2,3] ++ List.replicate 16 9) :=
  packetToBuffer_ok_iff.mpr ⟨rfl,by decide,_,emittedRoute_lsPacket,by decide +kernel,rfl⟩

theorem packet_codec_canonical_ls : ∃ wire pkt, packetToBuffer .initial lsPacket = .ok wire ∧
      packetFromBuffer .initial wire = .ok pkt ∧ packetToBuffer .initial pkt = .ok wire ∧
      pkt.header.messageId = 0x0101 ∧ pkt.payload = [1,2,3] := by
  obtain ⟨hdec,henc⟩ := packet_codec_canonical .initial .initial
  obtain ⟨route,hroute,-,h⟩ := henc lsPacket _ packetToBuffer_lsPacket (by decide) (by decide)
  obtain rfl : route = ⟨1,0x0101⟩ := Option.some.inj (hroute.symm.trans emittedRoute_lsPacket)
  have hfrom := h (by decide) (by decide)
  exact ⟨_,_,packetToBuffer_lsPacket,hfrom,hdec _ _ hfrom,rfl,rfl⟩

end SmoFramework
