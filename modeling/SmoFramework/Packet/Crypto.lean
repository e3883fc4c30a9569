import SmoFramework.Packet.Codec

/-! Sealing and opening of data packets (`protocol/packet/packet_crypto` over
`core/crypto/aead/xchacha20_provider`). The cipher and the hash are parameters; of the cipher
only its lengths and that it opens what it locked are assumed. -/
namespace SmoFramework
open SmoFramework.Library.BigEndian

/-- `crypto_aead_lock` and `crypto_aead_unlock`, by key, nonce and associated data. -/
structure Aead where
  lock : Bytes → Bytes → Bytes → Bytes → Bytes × Bytes
  unlock : Bytes → Bytes → Bytes → Bytes → Bytes → Option Bytes
  cipher_length : ∀ key nonce aad plain, (lock key nonce aad plain).1.length = plain.length
  mac_length : ∀ key nonce aad plain, (lock key nonce aad plain).2.length = 16
  unlock_lock : ∀ key nonce aad plain,
    unlock (lock key nonce aad plain).2 key nonce aad (lock key nonce aad plain).1 = some plain

namespace XChaCha20Provider

def kKeySize : ℕ := 32
def kNonceSize : ℕ := 24
def kMacSize : ℕ := 16

/-- A thrown `std::runtime_error` is the error case. -/
def encrypt (aead : Aead) (plaintext aad key nonce : Bytes) : Except String Bytes :=
  if key.length ≠ kKeySize then .error "XChaCha20: invalid key size"
  else if nonce.length ≠ kNonceSize then .error "XChaCha20: invalid nonce size"
  else .ok ((aead.lock key nonce aad plaintext).1 ++ (aead.lock key nonce aad plaintext).2)

def decrypt (aead : Aead) (ciphertext aad key nonce : Bytes) : Except String Bytes :=
  if key.length ≠ kKeySize then .error "XChaCha20: invalid key size"
  else if nonce.length ≠ kNonceSize then .error "XChaCha20: invalid nonce size"
  else if ciphertext.length < kMacSize then .error "XChaCha20: truncated ciphertext"
  else
    let ptLen := ciphertext.length-kMacSize
    match aead.unlock (ciphertext.drop ptLen) key nonce aad (ciphertext.take ptLen) with
    | none => .error "XChaCha20: decryption failed (MAC mismatch)"
    | some plain => .ok plain

lemma encrypt_eq (aead : Aead) (hkey : key.length = kKeySize)
    (hnonce : nonce.length = kNonceSize) : encrypt aead plaintext aad key nonce =
      .ok ((aead.lock key nonce aad plaintext).1 ++ (aead.lock key nonce aad plaintext).2) := by
  rw [encrypt,if_neg (not_not.mpr hkey),if_neg (not_not.mpr hnonce)]

lemma decrypt_append (aead : Aead)
    (hkey : key.length = kKeySize) (hnonce : nonce.length = kNonceSize)
    (hmac : mac.length = kMacSize) : decrypt aead (cipher ++ mac) aad key nonce =
      match aead.unlock mac key nonce aad cipher with
      | none => .error "XChaCha20: decryption failed (MAC mismatch)"
      | some plain => .ok plain := by
  have hlen : (cipher ++ mac).length-kMacSize = cipher.length := by
    rw [List.length_append,hmac,Nat.add_sub_cancel]
  have hlong : ¬ (cipher ++ mac).length < kMacSize := by
    rw [List.length_append,hmac]
    omega
  rw [decrypt,if_neg (not_not.mpr hkey),if_neg (not_not.mpr hnonce),if_neg hlong]
  simp only [hlen,List.drop_left,List.take_left]

end XChaCha20Provider

structure PacketTxKey where
  material : Bytes

structure PacketRxKey where
  material : Bytes

abbrev Blake3 := Bytes → List.Vector UInt8 32

def deriveAeadNonce (blake3 : Blake3) (sessionId : Bytes) (wireNonce : UInt64) : Bytes :=
  (blake3 (sessionId ++ write64 wireNonce)).toList.take XChaCha20Provider.kNonceSize

/-- The packet as it is left behind: the header is written before encryption is tried. -/
def packetSealData (aead : Aead) (blake3 : Blake3) (packet : Packet) (key : PacketTxKey)
    (sequence : UInt64) : Result Unit × Packet :=
  if key.material.length ≠ XChaCha20Provider.kKeySize then
    (.error (smoErrProtocol 610 .error .noRetry .none "packet seal: invalid key size"),packet)
  else if sequence = 0 then
    (.error (smoErrProtocol 611 .error .noRetry .none "packet seal: zero sequence rejected"),packet)
  else if isZeroSession packet.header.sessionId then
    (.error (smoErrProtocol 612 .error .noRetry .none "packet seal: zero session_id rejected"),packet)
  else if packet.payload.length > 65535 then
    (.error (smoErrProtocol 613 .error .noRetry .none "packet seal: payload too large"),packet)
  else
    let packet := { packet with header := { packet.header with
      protocolVersion := kPacketProtocolVersion
      nonce := sequence
      payloadLength := UInt16.ofNat packet.payload.length } }
    let nonce := deriveAeadNonce blake3 packet.header.sessionId.toList sequence
    let aad := serializePacketHeader packet.header
    match XChaCha20Provider.encrypt aead packet.payload aad key.material nonce with
    | .error _ =>
      (.error (smoErrProtocol 614 .error .noRetry .none "packet seal: AEAD encrypt failed"),packet)
    | .ok combined =>
      if combined.length ≠ packet.payload.length+kAeadTagLen then
        (.error (smoErrProtocol 614 .error .noRetry .none
          "packet seal: unexpected AEAD output size"),packet)
      else
        let ctLen := combined.length-kAeadTagLen
        (.ok (),{ packet with auth := combined.drop ctLen, payload := combined.take ctLen })

def packetOpenData (aead : Aead) (blake3 : Blake3) (packet : Packet) (key : PacketRxKey) :
    Result Unit × Packet :=
  if key.material.length ≠ XChaCha20Provider.kKeySize then
    (.error (smoErrProtocol 610 .error .noRetry .none "packet open: invalid key size"),packet)
  else if packet.header.nonce = 0 then
    (.error (smoErrProtocol 611 .error .noRetry .none "packet open: zero nonce rejected"),packet)
  else if packet.auth.length ≠ kAeadTagLen then
    (.error (smoErrProtocol 615 .error .noRetry .none "packet open: invalid auth tag length"),packet)
  else if packet.header.payloadLength.toNat ≠ packet.payload.length then
    (.error (smoErrProtocol 616 .error .noRetry .none "packet open: payload_length mismatch"),packet)
  else
    let nonce := deriveAeadNonce blake3 packet.header.sessionId.toList packet.header.nonce
    let aad := serializePacketHeader packet.header
    match XChaCha20Provider.decrypt aead (packet.payload ++ packet.auth) aad key.material nonce with
    | .error _ =>
      (.error (smoErrProtocol 617 .error .noRetry .none "packet open: AEAD authentication failed"),
        packet)
    | .ok plaintext => (.ok (),{ packet with payload := plaintext, auth := [] })

section
variable {aead : Aead} {blake3 : Blake3}

@[simp] lemma length_deriveAeadNonce (sessionId : Bytes) (wireNonce : UInt64) :
    (deriveAeadNonce blake3 sessionId wireNonce).length = XChaCha20Provider.kNonceSize := by
  simp [deriveAeadNonce,XChaCha20Provider.kNonceSize]

def sealedHeader (packet : Packet) (sequence : UInt64) : PacketHeader :=
  { packet.header with
    protocolVersion := kPacketProtocolVersion
    nonce := sequence
    payloadLength := UInt16.ofNat packet.payload.length }

def lockPacket (aead : Aead) (blake3 : Blake3) (packet : Packet) (key : Bytes)
    (sequence : UInt64) : Bytes × Bytes :=
  aead.lock key (deriveAeadNonce blake3 packet.header.sessionId.toList sequence)
    (serializePacketHeader (sealedHeader packet sequence)) packet.payload

@[simp] lemma lockPacket_cipher_length (packet : Packet) (key : Bytes) (sequence : UInt64) :
    (lockPacket aead blake3 packet key sequence).1.length = packet.payload.length :=
  aead.cipher_length _ _ _ _

@[simp] lemma lockPacket_mac_length (packet : Packet) (key : Bytes) (sequence : UInt64) :
    (lockPacket aead blake3 packet key sequence).2.length = kAeadTagLen :=
  aead.mac_length _ _ _ _

variable {sequence : UInt64}

theorem packetSealData_ok_iff :
    packetSealData aead blake3 packet key sequence = (.ok (),sent) ↔
      key.material.length = XChaCha20Provider.kKeySize ∧ sequence ≠ 0 ∧ packet.header.sessionId ≠ Id16.zero ∧
      packet.payload.length ≤ 65535 ∧
      sent = { packet with
        header := sealedHeader packet sequence
        payload := (lockPacket aead blake3 packet key.material sequence).1
        auth := (lockPacket aead blake3 packet key.material sequence).2 } := by
  unfold packetSealData
  simp only [ite_error_pair_eq_ok,not_not,Bool.not_eq_true,isZeroSession_eq_false,not_lt]
  refine and_congr_right fun hkey => and_congr_right fun _ => and_congr_right fun _ =>
    and_congr_right fun _ => ?_
  change (match XChaCha20Provider.encrypt aead packet.payload
    (serializePacketHeader (sealedHeader packet sequence)) key.material
    (deriveAeadNonce blake3 packet.header.sessionId.toList sequence) with
    | .error _ => _ | .ok combined => _) = _ ↔ _
  rw [XChaCha20Provider.encrypt_eq aead hkey (length_deriveAeadNonce _ _)]
  have hlen : ((lockPacket aead blake3 packet key.material sequence).1 ++
      (lockPacket aead blake3 packet key.material sequence).2).length =
      packet.payload.length+kAeadTagLen := by simp
  have hsub : packet.payload.length+kAeadTagLen-kAeadTagLen =
      (lockPacket aead blake3 packet key.material sequence).1.length := by simp
  dsimp only
  rw [← lockPacket,if_neg (not_not.mpr hlen),hlen,hsub,List.drop_left,List.take_left]
  exact ⟨fun h => (Prod.mk.inj h).2.symm,fun h => Prod.ext rfl h.symm⟩

theorem packetOpenData_locked
    (hkey : key.material.length = XChaCha20Provider.kKeySize) (hnonce : packet.header.nonce ≠ 0)
    (hlen : packet.header.payloadLength.toNat = packet.payload.length)
    (hlock : aead.lock key.material
      (deriveAeadNonce blake3 packet.header.sessionId.toList packet.header.nonce)
      (serializePacketHeader packet.header) plain = (packet.payload,packet.auth)) :
    packetOpenData aead blake3 packet key = (.ok (),{ packet with payload := plain, auth := [] }) := by
  have hmac : packet.auth.length = kAeadTagLen := by
    have := aead.mac_length key.material
      (deriveAeadNonce blake3 packet.header.sessionId.toList packet.header.nonce)
      (serializePacketHeader packet.header) plain
    rwa [hlock] at this
  have hopen := aead.unlock_lock key.material
    (deriveAeadNonce blake3 packet.header.sessionId.toList packet.header.nonce)
    (serializePacketHeader packet.header) plain
  rw [hlock] at hopen
  unfold packetOpenData
  simp only [ite_error_pair_eq_ok]
  refine ⟨not_not.mpr hkey,hnonce,not_not.mpr hmac,not_not.mpr hlen,?_⟩
  rw [XChaCha20Provider.decrypt_append aead hkey (length_deriveAeadNonce _ _) hmac,hopen]

lemma wireHeader_sealed :
    wireHeader { packet with
      header := sealedHeader packet sequence
      payload := (lockPacket aead blake3 packet key sequence).1
      auth := (lockPacket aead blake3 packet key sequence).2 }
      ⟨packet.header.ns,packet.header.messageId⟩ = sealedHeader packet sequence := by
  unfold wireHeader
  dsimp only
  rw [lockPacket_cipher_length]
  rfl

/-- Whatever the receiver parses opens to the original payload exactly when the message id was
already set: a zero message id is authenticated as zero and then replaced on the wire. -/
theorem packet_seal_open_iff (reg : OpcodeRegistry) (hreg : reg.Reachable) (tx : PacketTxKey)
    (rx : PacketRxKey) (hkeys : tx.material = rx.material) (packet sent : Packet)
    (sequence : UInt64) (wire : Bytes)
    (hseal : packetSealData aead blake3 packet tx sequence = (.ok (),sent))
    (hwire : packetToBuffer reg sent = .ok wire) :
    (wire.take 39 = serializePacketHeader sent.header ∧
      ∀ received, packetFromBuffer reg wire = .ok received →
        ∃ opened, packetOpenData aead blake3 received rx = (.ok (),opened) ∧
          opened.payload = packet.payload) ↔ packet.header.messageId ≠ 0 := by
  obtain ⟨hkey,hseq,-,hpay,rfl⟩ := packetSealData_ok_iff.mp hseal
  obtain ⟨-,-,route,hroute,hval,rfl⟩ := packetToBuffer_ok_iff.mp hwire
  constructor
  · rintro ⟨haad,-⟩ hzero
    rw [take_serialized] at haad
    have hheader := congrArg (fun bytes => readPacketHeader (bytes ++ [])) haad
    simp only [readPacketHeader_serialize] at hheader
    have hmid : route.messageId = packet.header.messageId := congrArg PacketHeader.messageId hheader
    exact (hreg.validatePacketOpcode_ok hval).1 (hmid.trans hzero)
  · intro hmid
    obtain rfl : (⟨packet.header.ns,packet.header.messageId⟩ : PacketRoute.Route) = route :=
      Option.some.inj ((if_neg hmid).symm.trans hroute)
    rw [wireHeader_sealed]
    refine ⟨take_serialized _ _ _,fun received hreceived => ?_⟩
    obtain ⟨-,rfl⟩ := packetFromBuffer_ok_iff.mp hreceived
    have hlen : (sealedHeader packet sequence).payloadLength.toNat =
        (lockPacket aead blake3 packet tx.material sequence).1.length := by
      rw [lockPacket_cipher_length]
      exact UInt16.toNat_ofNat_of_lt' (Nat.lt_succ_of_le hpay)
    rw [packetOfWire_serialize reg hlen]
    refine ⟨_,packetOpenData_locked (hkeys ▸ hkey) hseq hlen ?_,rfl⟩
    rw [← hkeys]
    rfl

end

/-! Two runs with a small cipher whose tag is the byte sum of the associated data. -/

def byteSum (aad : Bytes) : Bytes := List.replicate 16 (aad.foldl (·+·) 0)

def sumAead : Aead where
  lock _ _ aad plain := (plain,byteSum aad)
  unlock mac _ _ aad cipher := if mac = byteSum aad then some cipher else none
  cipher_length _ _ _ _ := rfl
  mac_length _ _ _ _ := List.length_replicate
  unlock_lock _ _ _ _ := if_pos rfl

def zeroHash : Blake3 := fun _ => List.Vector.replicate 32 0

def zeroKey : Bytes := List.replicate 32 0

def routedPacket : Packet :=
  { lsPacket with header := { lsPacket.header with ns := 1, messageId := 0x0101 } }

def sealed (packet : Packet) : Packet := (packetSealData sumAead zeroHash packet ⟨zeroKey⟩ 7).2

lemma packetSealData_sealed :
    packetSealData sumAead zeroHash routedPacket ⟨zeroKey⟩ 7 = (.ok (),sealed routedPacket) ∧
      packetSealData sumAead zeroHash lsPacket ⟨zeroKey⟩ 7 = (.ok (),sealed lsPacket) := by
  constructor <;> exact Prod.ext (by decide +kernel) rfl

lemma packetToBuffer_sealed (h : packet = routedPacket ∨ packet = lsPacket) :
    packetToBuffer .initial (sealed packet) =
      .ok (serializePacketHeader (wireHeader (sealed packet) ⟨1,0x0101⟩) ++ (sealed packet).payload ++
        (sealed packet).auth) := by
  have hval : OpcodeRegistry.initial.validatePacketOpcode 1 0x0101 = .ok () := by decide +kernel
  apply packetToBuffer_ok_iff.mpr
  refine ⟨?_,?_,⟨1,0x0101⟩,?_,hval,rfl⟩ <;> rcases h with rfl | rfl <;> decide +kernel

theorem packet_seal_open_routed : ∃ wire, packetToBuffer .initial (sealed routedPacket) = .ok wire ∧
      wire.take 39 = serializePacketHeader (sealed routedPacket).header ∧
      ∀ received, packetFromBuffer .initial wire = .ok received →
        ∃ opened, packetOpenData sumAead zeroHash received ⟨zeroKey⟩ = (.ok (),opened) ∧
          opened.payload = routedPacket.payload :=
  ⟨_,packetToBuffer_sealed (Or.inl rfl),
    (packet_seal_open_iff .initial .initial ⟨zeroKey⟩ ⟨zeroKey⟩ rfl routedPacket _ 7 _
      packetSealData_sealed.1 (packetToBuffer_sealed (Or.inl rfl))).mpr (by decide)⟩

/-- With the message id left to the serializer, the receiver parses the packet and then rejects
its tag. -/
theorem packet_seal_open_derived_route_fails : ∃ wire received,
      packetSealData sumAead zeroHash lsPacket ⟨zeroKey⟩ 7 = (.ok (),sealed lsPacket) ∧
      packetToBuffer .initial (sealed lsPacket) = .ok wire ∧
      wire.take 39 ≠ serializePacketHeader (sealed lsPacket).header ∧
      packetFromBuffer .initial wire = .ok received ∧
      packetOpenData sumAead zeroHash received ⟨zeroKey⟩ =
        (.error (smoErrProtocol 617 .error .noRetry .none "packet open: AEAD authentication failed"),
          received) := by
  refine ⟨_,_,packetSealData_sealed.2,packetToBuffer_sealed (Or.inr rfl),by decide +kernel,
    packetFromBuffer_emitted (by decide +kernel) (by decide +kernel) (by decide +kernel)
      (by decide +kernel) (by decide +kernel) (by decide +kernel) (by decide +kernel),
    by decide +kernel⟩

end SmoFramework
