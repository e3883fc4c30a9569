import SmoFramework.Certificate.Codec
import SmoFramework.Library.WordReader
import SmoFramework.Session.Manager

/-! The stored form of a session (`Session::serialize`, `Session::deserialize`). A session here has
all its fields except the channels and the fingerprint of the revocation check, which are not
stored. The peer certificate goes in without its signature. -/
namespace SmoFramework
open Library Library.BigEndian Library.WordBits Reader.Reads Certificate

abbrev NodeId := List.Vector UInt8 32

/-- `Capability::COUNT_`. -/
def kCapabilityCount : ℕ := 14

/-- `std::bitset<COUNT_>`. -/
abbrev CapabilitySet := Fin kCapabilityCount → Bool

def SessionState.toByte : SessionState → UInt8
  | .closed => 0
  | .handshake => 1
  | .established => 2
  | .active => 3
  | .renewing => 4

structure PeerSession extends Session where
  peerId : NodeId := List.Vector.replicate 32 0
  peerCert : Certificate := {}
  capabilities : CapabilitySet := fun _ => false

/-- What `deserialize` returns. The state byte is cast to the enumeration without a check, so it is
kept as a byte. -/
structure StoredSession where
  state : UInt8
  id : Id16
  peerId : NodeId
  capabilities : CapabilitySet
  createdAt : Int64
  expiresAt : Int64
  lastActive : Int64
  peerCert : Certificate
  securityState : SessionSecurityState

namespace CapabilitySet

variable (caps : CapabilitySet)

def test (n : ℕ) : Bool :=
  if h : n < kCapabilityCount then caps ⟨n,h⟩ else false

def toBytes : List.Vector UInt8 2 :=
  ⟨[packByte (fun j => caps.test j),packByte (fun j => caps.test (8+j))],rfl⟩

def ofBytes (bytes : List.Vector UInt8 2) : CapabilitySet :=
  fun n => bytes.toList.getD (n.val/8) 0 &&& (1 <<< UInt8.ofNat (n.val % 8)) ≠ 0

lemma ofBytes_toBytes : ofBytes caps.toBytes = caps := by
  funext n
  have hn : n.val < 14 := n.isLt
  have htest : caps.test n.val = caps n := dif_pos n.isLt
  rw [ofBytes,← htest,Bool.eq_iff_iff,decide_eq_true_iff]
  by_cases hlow : n.val < 8
  · rw [Nat.div_eq_of_lt hlow,Nat.mod_eq_of_lt hlow]
    exact packByte_and_mask (fun j => caps.test j) hlow
  · have hdiv : n.val/8 = 1 := by omega
    have hmod : n.val % 8 < 8 := Nat.mod_lt _ (by decide)
    have hsplit : 8+n.val % 8 = n.val := by omega
    have hbit := packByte_and_mask (fun j => caps.test (8+j)) hmod
    rw [hsplit] at hbit
    rw [hdiv]
    exact hbit

end CapabilitySet

namespace PeerSession

def create (id : Id16) (peerId : NodeId) (peerCert : Certificate) (capabilities : CapabilitySet)
    (now : Int64) (ttl : UInt64) : Result PeerSession :=
  (Session.create id now ttl).map fun s => { s with peerId, peerCert, capabilities }

variable (st : SessionSecurityState)

def writeSecurity : Bytes :=
  st.sessionId.toList ++ (write64 st.epoch ++ (write64 st.txSequence ++ (write64 st.rxEpoch ++
    (write64 st.rxWindow.highest ++ write64 st.rxWindow.bitmap))))

def serialize (s : PeerSession) : Bytes :=
  [s.state.toByte] ++ (s.id.toList ++ (s.peerId.toList ++ (s.capabilities.toBytes.toList ++
    (write64 s.createdAt.toUInt64 ++ (write64 s.expiresAt.toUInt64 ++
    (write64 s.lastActive.toUInt64 ++ (write32 (UInt32.ofNat s.peerCert.serialize.length) ++
    (s.peerCert.serialize ++ writeSecurity s.securityState))))))))

def truncated (what : String) : Error :=
  smoErrSession 500 .error .noRetry .reconnect ("truncated " ++ what)

/-- `read_u64`: as many of the eight bytes as there are. -/
def readU64 : Reader UInt8 Error UInt64 := fun data => .ok (read64 (data.take 8),data.drop 8)

def readU32 : Reader UInt8 Error UInt32 :=
  fun data => .ok ((data.take 4).foldl shiftIn32 0,data.drop 4)

def readChecked (what : String) : Reader UInt8 Error UInt64 := do
  let bytes ← Reader.vector 8 (truncated what)
  pure (read64 bytes.toList)

def readSecurity : Reader UInt8 Error SessionSecurityState := do
  let sessionId ← Reader.vector 16 (truncated "security state session_id")
  let epoch ← readChecked "security state epoch"
  let txSequence ← readChecked "security state tx_sequence"
  let rxEpoch ← readChecked "security state rx_epoch"
  let rxHighest ← readChecked "security state rx_highest"
  let rxBitmap ← readChecked "security state rx_bitmap"
  pure { sessionId, epoch, txSequence, rxEpoch, rxWindow := .restore rxHighest rxBitmap }

def readCert (certLen : ℕ) : Reader UInt8 Error Certificate := do
  let certData ← Reader.vector certLen (truncated "certificate")
  Reader.lift (Certificate.deserialize certData.toList)

def readSession : Reader UInt8 Error StoredSession := do
  let state ← Reader.symbol (truncated "session data")
  let id ← Reader.vector 16 (truncated "session id")
  let peerId ← Reader.vector 32 (truncated "peer id")
  let capabilities ← Reader.vector 2 (truncated "capabilities")
  let createdAt ← readU64
  let expiresAt ← readU64
  let lastActive ← readU64
  let certLen ← readU32
  let peerCert ← readCert certLen.toNat
  let securityState ← readSecurity
  pure { state, id, peerId, capabilities := .ofBytes capabilities, createdAt := createdAt.toInt64,
         expiresAt := expiresAt.toInt64, lastActive := lastActive.toInt64, peerCert, securityState }

def deserialize (data : Bytes) : Result StoredSession := (readSession.run data).map Prod.fst

lemma reads_readU64 (v : UInt64) : Reader.Reads readU64 (write64 v) v := word64 v

lemma reads_readU32 (v : UInt32) : Reader.Reads readU32 (write32 v) v := word32 v

lemma reads_readChecked (what : String) (v : UInt64) :
    Reader.Reads (readChecked what) (write64 v) v := by
  have h : Reader.Reads (readChecked what) (write64 v) (read64 (write64 v)) :=
    (vector _ (⟨write64 v,length_write64 v⟩ : List.Vector UInt8 8)).bind_pure
  rwa [read64_write64] at h

lemma reads_readSecurity : Reader.Reads readSecurity (writeSecurity st) st :=
  (vector _ _).bind ((reads_readChecked _ _).bind ((reads_readChecked _ _).bind
    ((reads_readChecked _ _).bind ((reads_readChecked _ _).bind (reads_readChecked _ _).bind_pure))))

lemma reads_readCert (h : Certificate.deserialize data = .ok c) :
    Reader.Reads (readCert data.length) data c :=
  (vector _ (⟨data,rfl⟩ : List.Vector UInt8 _)).bind_nil (lift h)

lemma run_readCert_error (h : Certificate.deserialize data = .error e)
    (rest : Bytes) : (readCert data.length).run (data ++ rest) = .error e := by
  refine ((vector _ (⟨data,rfl⟩ : List.Vector UInt8 _)).run_bind rest).trans ?_
  exact congrArg (fun x : Result Certificate => x.map (fun c => (c,rest))) h

lemma run_readSession (s : PeerSession) (rest : Bytes) :
    readSession.run ([s.state.toByte] ++ (s.id.toList ++ (s.peerId.toList ++
      (s.capabilities.toBytes.toList ++ (write64 s.createdAt.toUInt64 ++
      (write64 s.expiresAt.toUInt64 ++ (write64 s.lastActive.toUInt64 ++
      (write32 (UInt32.ofNat s.peerCert.serialize.length) ++ rest)))))))) = (do
      let peerCert ← readCert (UInt32.ofNat s.peerCert.serialize.length).toNat
      let securityState ← readSecurity
      pure { s with state := s.state.toByte, peerCert, securityState } :
        Reader UInt8 Error StoredSession).run rest := by
  unfold readSession
  rw [(symbol _ _).run_bind,(vector _ _).run_bind,(vector _ _).run_bind,(vector _ _).run_bind,
    (reads_readU64 _).run_bind,(reads_readU64 _).run_bind,(reads_readU64 _).run_bind,
    (reads_readU32 _).run_bind,CapabilitySet.ofBytes_toBytes]
  simp

lemma deserialize_serialize {s : PeerSession} (hfit : s.peerCert.FieldsFit)
    (hlen : s.peerCert.serialize.length < 2^32) : deserialize s.serialize =
      .ok { s with state := s.state.toByte, peerCert := { s.peerCert with signature := [] } } := by
  have hsize : (UInt32.ofNat s.peerCert.serialize.length).toNat = s.peerCert.serialize.length :=
    UInt32.toNat_ofNat_of_lt' hlen
  have hcert := reads_readCert (Certificate.deserialize_serialize hfit)
  have hsecurity := reads_readSecurity s.securityState []
  rw [List.append_nil] at hsecurity
  rw [deserialize,serialize,run_readSession,hsize,hcert.run_bind,StateT.run_bind,hsecurity]
  rfl

lemma deserialize_serialize_long {s : PeerSession} (hfit : s.peerCert.FieldsFit)
    (hlen : 2^32 ≤ s.peerCert.serialize.length) : ∃ e, deserialize s.serialize = .error e := by
  set n := (UInt32.ofNat s.peerCert.serialize.length).toNat
  have hcut : n < s.peerCert.serialize.length := (UInt32.toNat_lt _).trans_le hlen
  obtain ⟨e,he⟩ := deserialize_cut hfit hcut
  have hcert := run_readCert_error he
    (s.peerCert.serialize.drop n ++ writeSecurity s.securityState)
  rw [List.length_take_of_le hcut.le,← List.append_assoc,List.take_append_drop] at hcert
  refine ⟨e,?_⟩
  rw [deserialize,serialize,run_readSession,StateT.run_bind,hcert]
  rfl

/-- The stored session agrees with the one that was serialized, signature included, and its window
accepts the same sequences. -/
structure Restores (s : PeerSession) (t : StoredSession) : Prop where
  state : t.state = s.state.toByte
  id : t.id = s.id
  peerId : t.peerId = s.peerId
  capabilities : t.capabilities = s.capabilities
  createdAt : t.createdAt = s.createdAt
  expiresAt : t.expiresAt = s.expiresAt
  lastActive : t.lastActive = s.lastActive
  peerCert : t.peerCert = s.peerCert
  securityState : t.securityState = s.securityState
  accepts : ∀ sequence, t.securityState.rxWindow.isAcceptable sequence =
    s.securityState.rxWindow.isAcceptable sequence

/-- A session survives being stored exactly when its certificate carries no signature and its
canonical bytes fit their 32-bit length. -/
theorem restores_iff_unsigned (s : PeerSession) (hfit : s.peerCert.FieldsFit) :
    (∃ t, deserialize s.serialize = .ok t ∧ Restores s t) ↔
      s.peerCert.signature = [] ∧ s.peerCert.serialize.length < 2^32 := by
  constructor
  · rintro ⟨t,ht,hres⟩
    by_cases hlen : s.peerCert.serialize.length < 2^32
    · rw [deserialize_serialize hfit hlen] at ht
      cases ht
      exact ⟨congrArg signature hres.peerCert.symm,hlen⟩
    · obtain ⟨e,he⟩ := deserialize_serialize_long hfit (Nat.le_of_not_lt hlen)
      rw [he] at ht
      cases ht
  · rintro ⟨hsig,hlen⟩
    refine ⟨_,deserialize_serialize hfit hlen,rfl,rfl,rfl,rfl,rfl,rfl,rfl,?_,rfl,fun _ => rfl⟩
    simp only [← hsig]

def sampleCert (signature : Bytes) : Certificate :=
  { subjectPubkey := [1], issuerPubkey := [2], meshId := [3], role := .member, displayName := [110],
    epoch := 4, notBefore := 5, notAfter := 6, signature }

lemma sampleCert_fieldsFit {signature : Bytes} (h : signature.length < 2^32) :
    (sampleCert signature).FieldsFit :=
  ⟨by simp [sampleCert],by simp [sampleCert],by simp [sampleCert],by simp [sampleCert],
    by simp [sampleCert],h⟩

/-- A session without a signed certificate comes back. -/
theorem restores_unsigned_session :
    let s : PeerSession := { id := List.Vector.replicate 16 1, state := .active, expiresAt := 30,
                             peerCert := sampleCert [], capabilities := fun _ => true }
    ∃ t, deserialize s.serialize = .ok t ∧ Restores s t :=
  (restores_iff_unsigned _ (sampleCert_fieldsFit (by decide))).mpr (by decide +kernel)

/-- A session just created with a signed certificate comes back without the signature. -/
theorem restored_without_signature :
    ∃ s, create (List.Vector.replicate 16 1) (List.Vector.replicate 32 2) (sampleCert [7])
        (fun _ => true) 10 20 = .ok s ∧
      s.peerCert.signature = [7] ∧
      (∃ t, deserialize s.serialize = .ok t ∧ t.peerCert.signature = []) ∧
      ¬∃ t, deserialize s.serialize = .ok t ∧ Restores s t := by
  refine ⟨_,rfl,rfl,?_,?_⟩
  · exact ⟨_,deserialize_serialize (sampleCert_fieldsFit (by decide)) (by decide +kernel),rfl⟩
  · rintro ⟨t,ht,hres⟩
    rw [deserialize_serialize (sampleCert_fieldsFit (by decide)) (by decide +kernel)] at ht
    cases ht
    exact absurd (congrArg signature hres.peerCert) (by decide)

end PeerSession
end SmoFramework
