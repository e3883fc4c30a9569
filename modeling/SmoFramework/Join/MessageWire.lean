import SmoFramework.Join.FieldMap

/-! The wire forms of the requests to join and to synchronise and of the response to a join
(`core/join/join_protocol`). Fields with their default values are left out. -/
namespace SmoFramework.Join
open Library Library.Attempt Cbor GoesField Decoder
open Decoder (ahead)

/-- What is copied from a byte string of eight bytes; any other one is ignored. -/
def decodeNonce (nonce : Vector UInt8 8) : Calls (Vector UInt8 8) := do
  let v ← call decodeBytes
  .view fun d => if v.len = 8 then Vector.ofFn fun i => d.data.bytes.getD (v.off+i.val) 0 else nonce

lemma goes_nonce (nonce nonce' : Vector UInt8 8) (rest : Bytes) :
    Goes ahead (decodeNonce nonce') (encodeBytes nonce.toList ++ rest) (pure nonce) rest := by
  refine goes_word (encodeBytes_ne_nil _) fun data pre h => ?_
  obtain ⟨off,hcall,hcopy,-⟩ := decodeBytes_encoded h
  have hret : Returns (call decodeBytes) ⟨data,pre.length⟩ ⟨off,nonce.toList.length⟩
      ⟨data,pre.length+(encodeBytes nonce.toList).length⟩ := congrArg some hcall
  have hlen : nonce.toList.length = 8 := by simp
  have hvalue : (Vector.ofFn fun i : Fin 8 => data.bytes.getD (off+i.val) 0) = nonce := by
    refine Vector.ext fun i hi => ?_
    have hget := congrArg (·[i]?) hcopy
    simp only [List.getElem?_take,List.getElem?_drop,hlen,hi,if_true] at hget
    rw [Vector.getElem_ofFn,List.getD_eq_getElem?_getD,hget]
    simp [hi]
  rw [decodeNonce,hret.outcome_bind,outcome_view,if_pos hlen,hvalue,outcome_pure]

/-! Requests to join. -/

def kReqToken : UInt64 := 1
def kReqCsr : UInt64 := 2
def kReqTimestamp : UInt64 := 3
def kReqNonce : UInt64 := 4
def kReqCsrHash : UInt64 := 5
def kReqSig : UInt64 := 6
def kReqProtocolVer : UInt64 := 7
def kReqCapabilities : UInt64 := 8
def kReqIceCandidates : UInt64 := 9

namespace JoinRequest

variable (r : JoinRequest)

def fields : List Field :=
  [⟨true,kReqProtocolVer,encodeUint r.protocolVersion.toUInt64⟩,
    ⟨true,kReqToken,encodeString r.token⟩,
    ⟨true,kReqCsr,encodeString r.csrPem⟩,
    ⟨r.timestamp > 0,kReqTimestamp,encodeInt r.timestamp⟩,
    ⟨true,kReqNonce,encodeBytes r.nonce.toList⟩,
    ⟨r.csrHash ≠ [],kReqCsrHash,encodeBytes r.csrHash⟩,
    ⟨r.requestSignature ≠ [],kReqSig,encodeBytes r.requestSignature⟩,
    ⟨r.capabilityBitmap > 0,kReqCapabilities,encodeUint r.capabilityBitmap⟩,
    ⟨r.iceCandidatesCbor ≠ [],kReqIceCandidates,encodeBytes r.iceCandidatesCbor⟩]

def announced : ℕ :=
  2+(if r.timestamp > 0 then 1 else 0)+(if r.csrHash ≠ [] then 1 else 0)+
    (if r.requestSignature ≠ [] then 1 else 0)+1+1+(if r.capabilityBitmap > 0 then 1 else 0)+
    (if r.iceCandidatesCbor ≠ [] then 1 else 0)

def encodeCbor : Bytes :=
  encodeMap r.announced ++ r.fields.flatMap Field.written

variable (fuel : ℕ)

def decodeValue (key : UInt64) (r : JoinRequest) : Calls JoinRequest :=
  if key = kReqToken then do
    let v ← call decodeString
    pure { r with token := v }
  else if key = kReqCsr then do
    let v ← call decodeString
    pure { r with csrPem := v }
  else if key = kReqTimestamp then do
    let v ← call decodeInt
    pure { r with timestamp := v }
  else if key = kReqNonce then do
    let v ← decodeNonce r.nonce
    pure { r with nonce := v }
  else if key = kReqCsrHash then do
    let v ← decodeBytesCopy
    pure { r with csrHash := v }
  else if key = kReqSig then do
    let v ← decodeBytesCopy
    pure { r with requestSignature := v }
  else if key = kReqProtocolVer then do
    let v ← call decodeUint
    pure { r with protocolVersion := v.toUInt8 }
  else if key = kReqCapabilities then do
    let v ← call decodeUint
    pure { r with capabilityBitmap := v }
  else if key = kReqIceCandidates then do
    let v ← decodeBytesCopy
    pure { r with iceCandidatesCbor := v }
  else do
    (skip fuel : Calls Unit)
    pure r

/-- `decode_cbor`. The fuel bounds the nesting of skipped items. -/
def decodeCbor (data : BytesView) : Option (Outcome JoinRequest) :=
  ((decodeFields (decodeValue fuel) {}).outcome ⟨data,0⟩).map Prod.fst

lemma announced_eq : r.announced = r.fields.countP (·.present) := by
  simp only [announced,fields,List.countP_cons,List.countP_nil,decide_eq_true_eq,if_true]
  omega

lemma goes_decode {r : JoinRequest} (h : 0 ≤ r.timestamp) :
    Goes ahead (decodeFields (decodeValue fuel) {}) r.encodeCbor (pure { r with version := 1 }) [] := by
  refine goes_decodeFields r.announced_eq (by simp [fields]) ?_
  refine next (goes_version_field r.protocolVersion
    (fun v => ({ protocolVersion := v } : JoinRequest)) rfl) ?_
  refine next (goes_fixed_field fun rest => (goes_string _ rest).bind (.refl _ _)) ?_
  refine next (goes_fixed_field fun rest => (goes_string _ rest).bind (.refl _ _)) ?_
  refine next (goes_time_field h rfl rfl) ?_
  refine next (goes_fixed_field fun rest => (goes_nonce _ _ rest).bind (.refl _ _)) ?_
  refine next (goes_bytes_field r.csrHash rfl rfl) ?_
  refine next (goes_bytes_field r.requestSignature rfl rfl) ?_
  refine next (goes_uint_field r.capabilityBitmap rfl rfl) ?_
  exact next (goes_bytes_field r.iceCandidatesCbor rfl rfl) (.refl _ _)

end JoinRequest

/-! Responses to a join. -/

def kRespCert : UInt64 := 1
def kRespMeshId : UInt64 := 2
def kRespBootTicket : UInt64 := 3
def kRespNonce : UInt64 := 6
def kRespServerTime : UInt64 := 7
def kRespCapabilities : UInt64 := 8
def kRespIceCandidates : UInt64 := 9

namespace JoinResponse

variable (r : JoinResponse)

def fields : List Field :=
  [⟨r.certificatePem ≠ [],kRespCert,encodeString r.certificatePem⟩,
    ⟨r.meshId ≠ [],kRespMeshId,encodeString r.meshId⟩,
    ⟨r.bootstrapTicket ≠ [],kRespBootTicket,encodeBytes r.bootstrapTicket⟩,
    ⟨true,kRespNonce,encodeBytes r.nonce.toList⟩,
    ⟨r.serverTime > 0,kRespServerTime,encodeInt r.serverTime⟩,
    ⟨r.capabilityBitmap > 0,kRespCapabilities,encodeUint r.capabilityBitmap⟩,
    ⟨r.iceCandidatesCbor ≠ [],kRespIceCandidates,encodeBytes r.iceCandidatesCbor⟩]

/-- A map without pairs would be announced with one, but the nonce is always there. -/
def announced : ℕ :=
  let fields := 0+(if r.certificatePem ≠ [] then 1 else 0)+(if r.meshId ≠ [] then 1 else 0)+
    (if r.bootstrapTicket ≠ [] then 1 else 0)+1+(if r.serverTime > 0 then 1 else 0)+
    (if r.capabilityBitmap > 0 then 1 else 0)+(if r.iceCandidatesCbor ≠ [] then 1 else 0)
  if fields = 0 then 1 else fields

def encodeCbor : Bytes :=
  encodeMap r.announced ++ r.fields.flatMap Field.written

variable (fuel : ℕ)

def decodeValue (key : UInt64) (r : JoinResponse) : Calls JoinResponse :=
  if key = kRespCert then do
    let v ← call decodeString
    pure { r with certificatePem := v }
  else if key = kRespMeshId then do
    let v ← call decodeString
    pure { r with meshId := v }
  else if key = kRespBootTicket then do
    let v ← decodeBytesCopy
    pure { r with bootstrapTicket := v }
  else if key = kRespNonce then do
    let v ← decodeNonce r.nonce
    pure { r with nonce := v }
  else if key = kRespServerTime then do
    let v ← call decodeInt
    pure { r with serverTime := v }
  else if key = kRespCapabilities then do
    let v ← call decodeUint
    pure { r with capabilityBitmap := v }
  else if key = kRespIceCandidates then do
    let v ← decodeBytesCopy
    pure { r with iceCandidatesCbor := v }
  else do
    (skip fuel : Calls Unit)
    pure r

def decodeCbor (data : BytesView) : Option (Outcome JoinResponse) :=
  ((decodeFields (decodeValue fuel) {}).outcome ⟨data,0⟩).map Prod.fst

lemma announced_eq : r.announced = r.fields.countP (·.present) := by
  simp only [announced,fields,List.countP_cons,List.countP_nil,decide_eq_true_eq,if_true]
  rw [if_neg (by omega)]
  omega

lemma goes_decode {r : JoinResponse} (h : 0 ≤ r.serverTime) :
    Goes ahead (decodeFields (decodeValue fuel) {}) r.encodeCbor (pure { r with version := 1 }) [] := by
  refine goes_decodeFields r.announced_eq (by simp [fields]) ?_
  refine next (goes_string_field r.certificatePem rfl rfl) ?_
  refine next (goes_string_field r.meshId rfl rfl) ?_
  refine next (goes_bytes_field r.bootstrapTicket rfl rfl) ?_
  refine next (goes_fixed_field fun rest => (goes_nonce _ _ rest).bind (.refl _ _)) ?_
  refine next (goes_time_field h rfl rfl) ?_
  refine next (goes_uint_field r.capabilityBitmap rfl rfl) ?_
  exact next (goes_bytes_field r.iceCandidatesCbor rfl rfl) (.refl _ _)

end JoinResponse

/-! Requests to synchronise. -/

def kSyncReqMeshId : UInt64 := 1
def kSyncReqNodeId : UInt64 := 2
def kSyncReqMfRev : UInt64 := 3
def kSyncReqCrlRev : UInt64 := 4
def kSyncReqMemberRev : UInt64 := 5
def kSyncReqPolicyRev : UInt64 := 6
def kSyncReqBootTicket : UInt64 := 7
def kSyncReqProtocolVer : UInt64 := 9

namespace BootstrapSyncRequest

variable (r : BootstrapSyncRequest)

def fields : List Field :=
  [⟨true,kSyncReqProtocolVer,encodeUint r.protocolVersion.toUInt64⟩,
    ⟨r.meshId ≠ [],kSyncReqMeshId,encodeString r.meshId⟩,
    ⟨r.nodeId ≠ [],kSyncReqNodeId,encodeString r.nodeId⟩,
    ⟨r.bootstrapTicket ≠ [],kSyncReqBootTicket,encodeBytes r.bootstrapTicket⟩,
    ⟨r.manifestRevision > 0,kSyncReqMfRev,encodeUint r.manifestRevision⟩,
    ⟨r.crlRevision > 0,kSyncReqCrlRev,encodeUint r.crlRevision⟩,
    ⟨r.membershipRevision > 0,kSyncReqMemberRev,encodeUint r.membershipRevision⟩,
    ⟨r.policyRevision > 0,kSyncReqPolicyRev,encodeUint r.policyRevision⟩]

def announced : ℕ :=
  1+(if r.meshId ≠ [] then 1 else 0)+(if r.nodeId ≠ [] then 1 else 0)+
    (if r.bootstrapTicket ≠ [] then 1 else 0)+(if r.manifestRevision > 0 then 1 else 0)+
    (if r.crlRevision > 0 then 1 else 0)+(if r.membershipRevision > 0 then 1 else 0)+
    (if r.policyRevision > 0 then 1 else 0)

/-- The nonce is not written. -/
def encodeCbor : Bytes :=
  encodeMap r.announced ++ r.fields.flatMap Field.written

variable (fuel : ℕ)

def decodeValue (key : UInt64) (r : BootstrapSyncRequest) : Calls BootstrapSyncRequest :=
  if key = kSyncReqMeshId then do
    let v ← call decodeString
    pure { r with meshId := v }
  else if key = kSyncReqNodeId then do
    let v ← call decodeString
    pure { r with nodeId := v }
  else if key = kSyncReqBootTicket then do
    let v ← decodeBytesCopy
    pure { r with bootstrapTicket := v }
  else if key = kSyncReqMfRev then do
    let v ← call decodeUint
    pure { r with manifestRevision := v }
  else if key = kSyncReqCrlRev then do
    let v ← call decodeUint
    pure { r with crlRevision := v }
  else if key = kSyncReqMemberRev then do
    let v ← call decodeUint
    pure { r with membershipRevision := v }
  else if key = kSyncReqPolicyRev then do
    let v ← call decodeUint
    pure { r with policyRevision := v }
  else if key = kSyncReqProtocolVer then do
    let v ← call decodeUint
    pure { r with protocolVersion := v.toUInt8 }
  else do
    (skip fuel : Calls Unit)
    pure r

def decodeCbor (data : BytesView) : Option (Outcome BootstrapSyncRequest) :=
  ((decodeFields (decodeValue fuel) {}).outcome ⟨data,0⟩).map Prod.fst

lemma announced_eq : r.announced = r.fields.countP (·.present) := by
  simp only [announced,fields,List.countP_cons,List.countP_nil,decide_eq_true_eq,if_true]
  omega

lemma goes_decode (r : BootstrapSyncRequest) :
    Goes ahead (decodeFields (decodeValue fuel) {}) r.encodeCbor
      (pure { r with version := 1, nonce := .replicate 8 0 }) [] := by
  refine goes_decodeFields r.announced_eq (by simp [fields]) ?_
  refine next (goes_version_field r.protocolVersion
    (fun v => ({ protocolVersion := v } : BootstrapSyncRequest)) rfl) ?_
  refine next (goes_string_field r.meshId rfl rfl) ?_
  refine next (goes_string_field r.nodeId rfl rfl) ?_
  refine next (goes_bytes_field r.bootstrapTicket rfl rfl) ?_
  refine next (goes_uint_field r.manifestRevision rfl rfl) ?_
  refine next (goes_uint_field r.crlRevision rfl rfl) ?_
  refine next (goes_uint_field r.membershipRevision rfl rfl) ?_
  exact next (goes_uint_field r.policyRevision rfl rfl) (.refl _ _)

end BootstrapSyncRequest

/-! Round trips. -/

lemma decoded_of_goes {μ : Type} {x : Calls μ} {data : BytesView} {m : μ} {i j : Bytes}
    (h : Goes ahead x i (pure m) j) (hdata : data.bytes = i) :
    (x.outcome ⟨data,0⟩).map Prod.fst = some (.ok m) := by
  obtain ⟨d,-,hout⟩ := h ⟨data,0⟩ hdata
  rw [hout]
  rfl

/-- Every message comes back with all that its encoder writes. The version is not written, and neither is
the nonce of a request to synchronise. -/
theorem messages_come_back (fuel : ℕ) (data : BytesView) :
    (∀ r : JoinRequest, 0 ≤ r.timestamp → data.bytes = r.encodeCbor →
      JoinRequest.decodeCbor fuel data = some (.ok { r with version := 1 })) ∧
    (∀ r : JoinResponse, 0 ≤ r.serverTime → data.bytes = r.encodeCbor →
      JoinResponse.decodeCbor fuel data = some (.ok { r with version := 1 })) ∧
    ∀ r : BootstrapSyncRequest, data.bytes = r.encodeCbor →
      BootstrapSyncRequest.decodeCbor fuel data =
        some (.ok { r with version := 1, nonce := .replicate 8 0 }) :=
  ⟨fun _ h hdata => decoded_of_goes (JoinRequest.goes_decode fuel h) hdata,
    fun _ h hdata => decoded_of_goes (JoinResponse.goes_decode fuel h) hdata,
    fun r hdata => decoded_of_goes (BootstrapSyncRequest.goes_decode fuel r) hdata⟩

def plainRequest : JoinRequest :=
  { token := [0x74], timestamp := 1700000000, capabilityBitmap := 0x800 }

theorem messages_come_back_plain :
    JoinRequest.decodeCbor 0 ⟨plainRequest.encodeCbor,by decide⟩ = some (.ok plainRequest) :=
  (messages_come_back 0 ⟨plainRequest.encodeCbor,by decide⟩).1 plainRequest (by decide) rfl

end SmoFramework.Join
