import SmoFramework.Certificate.Codec
import SmoFramework.Library.WordReader

/-! The three messages of the federation handshake and their bytes (`FederationHello`, `FederationAuth`,
`FederationAck`). -/
namespace SmoFramework.Federation
open Library Library.BigEndian Reader
open Certificate (appendBytes readU32)

def serializationError (code : ℕ) (message : String) : Error :=
  smoErr .serialization code .error .noRetry .none message

def readString : Reader UInt8 Error Bytes :=
  .sized (readU32 (serializationError 1 "Truncated string length"))
    (serializationError 2 "Truncated string data")

def readBytes : Reader UInt8 Error Bytes :=
  .sized (readU32 (serializationError 3 "Truncated bytes length"))
    (serializationError 4 "Truncated bytes data")

def readInt64 (e : Error) : Reader UInt8 Error Int64 := do
  let bytes ← Reader.vector 8 e
  pure (read64 bytes.toList).toInt64

/-! Hello. -/

structure FederationHello where
  localMeshId : Bytes := []
  localGatewayNodeId : Bytes := []
  supportedSuites : List Bytes := []
  authorityPubkey : Bytes := []
  rootPubkey : Bytes := []
  epoch : Int64 := 1
  timestamp : Int64 := 0
  deriving DecidableEq

namespace FederationHello

def serialize (m : FederationHello) : Bytes :=
  appendBytes m.localMeshId ++ (appendBytes m.localGatewayNodeId ++
    (write32 (UInt32.ofNat m.supportedSuites.length) ++ (m.supportedSuites.flatMap appendBytes ++
      (appendBytes m.authorityPubkey ++ (appendBytes m.rootPubkey ++
        (write64 m.epoch.toUInt64 ++ write64 m.timestamp.toUInt64))))))

/-- Only the epoch is checked to be there: the timestamp is read from the bytes behind the message
in memory. -/
def read (behind : List.Vector UInt8 8) : Reader UInt8 Error FederationHello := do
  let localMeshId ← readString
  let localGatewayNodeId ← readString
  let suiteCount ← readU32 (serializationError 5 "Truncated suite count")
  let supportedSuites ← readString.times suiteCount.toNat
  let authorityPubkey ← readString
  let rootPubkey ← readString
  let epoch ← readInt64 (serializationError 6 "Truncated epoch")
  let rest ← get
  pure { localMeshId, localGatewayNodeId, supportedSuites, authorityPubkey, rootPubkey, epoch,
         timestamp := (read64 ((rest ++ behind.toList).take 8)).toInt64 }

def deserialize (behind : List.Vector UInt8 8) (data : Bytes) : Result FederationHello :=
  ((read behind).run data).map Prod.fst

end FederationHello

/-! Auth. -/

structure FederationAuth where
  remoteMeshId : Bytes := []
  localMeshId : Bytes := []
  signature : Bytes := []
  localCertificate : Certificate := {}
  trustAnchors : List Certificate := []
  timestamp : Int64 := 0
  deriving DecidableEq

namespace FederationAuth

def signedBytes (certificate : Certificate) (anchors : List Certificate) : Bytes :=
  certificate.serialize ++ anchors.flatMap Certificate.serialize

def serialize (m : FederationAuth) : Bytes :=
  appendBytes m.remoteMeshId ++ (appendBytes m.localMeshId ++ (appendBytes m.signature ++
    (appendBytes m.localCertificate.serialize ++ (write32 (UInt32.ofNat m.trustAnchors.length) ++
      (m.trustAnchors.flatMap (fun anchor => appendBytes anchor.serialize) ++
        write64 m.timestamp.toUInt64)))))

def readCertificate : Reader UInt8 Error Certificate := do
  let blob ← readBytes
  Reader.lift (Certificate.deserialize blob)

def read : Reader UInt8 Error FederationAuth := do
  let remoteMeshId ← readString
  let localMeshId ← readString
  let signature ← readBytes
  let localCertificate ← readCertificate
  let anchorCount ← readU32 (serializationError 5 "Truncated anchor count")
  let trustAnchors ← readCertificate.times anchorCount.toNat
  let timestamp ← readInt64 (serializationError 6 "Truncated timestamp")
  pure { remoteMeshId, localMeshId, signature, localCertificate, trustAnchors, timestamp }

def deserialize (data : Bytes) : Result FederationAuth := (read.run data).map Prod.fst

end FederationAuth

/-! Ack. -/

structure FederationAck where
  remoteMeshId : Bytes := []
  localMeshId : Bytes := []
  accepted : Bool := true
  rejectionReason : Bytes := []
  signature : Bytes := []
  timestamp : Int64 := 0
  deriving DecidableEq

namespace FederationAck

def serialize (m : FederationAck) : Bytes :=
  appendBytes m.remoteMeshId ++ (appendBytes m.localMeshId ++ ((if m.accepted then 1 else 0)::
    (appendBytes m.rejectionReason ++ (appendBytes m.signature ++ write64 m.timestamp.toUInt64))))

def read : Reader UInt8 Error FederationAck := do
  let remoteMeshId ← readString
  let localMeshId ← readString
  let accepted ← Reader.symbol (serializationError 5 "Truncated accepted flag")
  let rejectionReason ← readString
  let signature ← readBytes
  let timestamp ← readInt64 (serializationError 6 "Truncated timestamp")
  pure { remoteMeshId, localMeshId, accepted := accepted ≠ 0, rejectionReason, signature, timestamp }

def deserialize (data : Bytes) : Result FederationAck := (read.run data).map Prod.fst

end FederationAck

/-! The first field of a message. -/

/-- What is read where a string was written: the string, if its length fits four bytes, and never more
than that. -/
def ReadOf (written part : Bytes) : Prop :=
  part.length < 2^32 ∧ (written.length < 2^32 → part = written)

lemma readOf_readString
    (h : readString.run (appendBytes written ++ rest) = .ok (part,rest')) : ReadOf written part := by
  obtain ⟨hlen,hbytes⟩ := (run_sized_eq_ok fun _ _ _ => Certificate.run_readU32_eq_ok).mp h
  refine ⟨hlen,fun hfits => ?_⟩
  rw [appendBytes,List.append_assoc] at hbytes
  obtain ⟨hword,hbytes⟩ := List.append_inj hbytes (by simp)
  have hsame := congrArg UInt32.toNat (write32_injective hword)
  rw [UInt32.toNat_ofNat_of_lt' hfits,UInt32.toNat_ofNat_of_lt' hlen] at hsame
  exact (List.append_inj hbytes hsame).1.symm

lemma FederationHello.readOf_deserialize {m m' : FederationHello}
    (h : deserialize behind m.serialize = .ok m') : ReadOf m.localMeshId m'.localMeshId := by
  obtain ⟨rest,h⟩ := map_fst_eq_ok.mp h
  obtain ⟨localMeshId,mid,hfirst,h⟩ := run_bind_eq_ok.mp h
  have hkept : m'.localMeshId = localMeshId := by
    simp only [run_bind_eq_ok] at h
    obtain ⟨_,_,_,_,_,_,_,_,_,_,_,_,_,_,_,_,_,_,_,_,_,rfl,-⟩ := h
    rfl
  exact hkept ▸ readOf_readString hfirst

lemma FederationAuth.readOf_deserialize {m m' : FederationAuth}
    (h : deserialize m.serialize = .ok m') : ReadOf m.remoteMeshId m'.remoteMeshId := by
  obtain ⟨rest,h⟩ := map_fst_eq_ok.mp h
  obtain ⟨remoteMeshId,mid,hfirst,h⟩ := run_bind_eq_ok.mp h
  have hkept : m'.remoteMeshId = remoteMeshId := by
    simp only [run_bind_eq_ok] at h
    obtain ⟨_,_,_,_,_,_,_,_,_,_,_,_,_,_,_,_,_,_,rfl,-⟩ := h
    rfl
  exact hkept ▸ readOf_readString hfirst

end SmoFramework.Federation
