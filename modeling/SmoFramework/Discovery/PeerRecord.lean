import SmoFramework.Certificate.Codec

/-! What a node knows about a peer (`PeerRecord`, `Endpoint`, `MappedAddress`, `ice::Candidate`). -/
namespace SmoFramework.Discovery

abbrev NodeID := List.Vector UInt8 32

/-- `enum class PeerState : uint8_t`; a byte from the network is cast to it. -/
structure PeerState where
  val : UInt8
  deriving DecidableEq, Repr

def PeerState.unknown : PeerState := ⟨0⟩
def PeerState.online : PeerState := ⟨1⟩
def PeerState.suspect : PeerState := ⟨2⟩
def PeerState.offline : PeerState := ⟨3⟩

structure Endpoint where
  scheme : Bytes := []
  host : Bytes := []
  port : UInt16 := 0
  path : Bytes := []
  deriving DecidableEq

structure MappedAddress where
  ip : Bytes := []
  port : UInt16 := 0
  isIpv6 : Bool := false
  discoveredAt : Int64 := 0
  deriving DecidableEq

/-- `enum class CandidateType : uint8_t`; a number from the network is cast to it. -/
structure CandidateType where
  val : UInt8
  deriving DecidableEq, Repr

def CandidateType.host : CandidateType := ⟨0⟩

structure Candidate where
  type : CandidateType := .host
  foundation : Bytes := []
  ip : Bytes := []
  port : UInt16 := 0
  isIpv6 : Bool := false
  priority : UInt32 := 0
  relatedAddr : Bytes := []
  relatedPort : UInt16 := 0
  discoveredAt : Int64 := 0
  deriving DecidableEq

structure PeerRecord where
  nodeId : NodeID := List.Vector.replicate 32 0
  displayName : Bytes := []
  hostname : Bytes := []
  meshName : Bytes := []
  role : Role := .reader
  tags : List Bytes := []
  platform : Bytes := []
  arch : Bytes := []
  version : Bytes := []
  location : Bytes := []
  aliases : List Bytes := []
  endpoint : Endpoint := {}
  mappedAddress : MappedAddress := {}
  relayCapable : Bool := false
  state : PeerState := .unknown
  lastSeen : Int64 := 0
  pingMisses : Int32 := 0
  /-- `rtt_ms` as it is stored, in microseconds. -/
  rttMicros : UInt64 := 0
  iceCandidates : List Candidate := []
  deriving DecidableEq

end SmoFramework.Discovery
