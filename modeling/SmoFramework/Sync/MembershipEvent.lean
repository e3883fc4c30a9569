import SmoFramework.Discovery.MembershipTable
import SmoFramework.Library.LittleEndian

/-! Membership events and their bytes (`MembershipSync::serialize_events` and the reading half of
`apply_events`). A position in the input is the input from there on. The integer readers return zero
where the input is too short for them, and use up nothing. -/
namespace SmoFramework.Sync
open Library Library.LittleEndian Discovery List

/-- `enum class MembershipEventType : uint8_t`; a byte from the network is cast to it. -/
structure MembershipEventType where
  val : UInt8
  deriving DecidableEq, Repr

namespace MembershipEventType
def peerAdded : MembershipEventType := ⟨1⟩
def peerRemoved : MembershipEventType := ⟨2⟩
def peerUpdated : MembershipEventType := ⟨3⟩
def peerRenamed : MembershipEventType := ⟨4⟩
def capabilityChange : MembershipEventType := ⟨5⟩
def certificateRotate : MembershipEventType := ⟨6⟩
def stateChange : MembershipEventType := ⟨7⟩
end MembershipEventType

structure MembershipEvent where
  type : MembershipEventType
  nodeId : NodeID
  timestampNs : Int64 := 0
  sequence : UInt64 := 0
  oldDisplayName : Bytes := []
  newDisplayName : Bytes := []
  newRole : Role := .reader
  addedCaps : List Bytes := []
  removedCaps : List Bytes := []
  endpoint : Endpoint := {}
  newState : PeerState := .unknown
  newCert : Certificate := {}
  deriving DecidableEq

/-! Writing. -/

def putStr (s : Bytes) : Bytes := put16 (UInt16.ofNat s.length) ++ s

/-- The path is not sent. -/
def putEndpoint (ep : Endpoint) : Bytes := putStr ep.scheme ++ (putStr ep.host ++ put16 ep.port)

/-- The part of an event before its payload, and the payload as it was sent. -/
structure Frame where
  type : MembershipEventType
  nodeId : NodeID
  timestampNs : Int64
  sequence : UInt64
  payload : Bytes

def Frame.write (f : Frame) : Bytes :=
  f.type.val::(f.nodeId.toList ++ (put64 f.timestampNs.toUInt64 ++ (put64 f.sequence ++
    (put32 (UInt32.ofNat f.payload.length) ++ f.payload))))

namespace MembershipEvent
open MembershipEventType

variable (ev : MembershipEvent)

def payload : Bytes :=
  if ev.type = peerAdded ∨ ev.type = peerUpdated then putEndpoint ev.endpoint
  else if ev.type = peerRenamed then putStr ev.oldDisplayName ++ putStr ev.newDisplayName
  else if ev.type = stateChange then [ev.newState.val]
  else if ev.type = capabilityChange then
    ev.newRole.toByte::(put16 (UInt16.ofNat ev.addedCaps.length) ++
      (put16 (UInt16.ofNat ev.removedCaps.length) ++
      (ev.addedCaps.flatMap putStr ++ ev.removedCaps.flatMap putStr)))
  else if ev.type = certificateRotate then
    put16 (UInt16.ofNat ev.newCert.serialize.length) ++ ev.newCert.serialize
  else []

def frame : Frame := { ev with payload := ev.payload }

end MembershipEvent

def serializeEvents (events : List MembershipEvent) : Bytes :=
  put32 (UInt32.ofNat events.length) ++ events.flatMap fun ev => ev.frame.write

/-! Reading. -/

def readU8 : Bytes → UInt8 × Bytes
  | [] => (0,[])
  | b::data => (b,data)

variable (data : Bytes)

def readU16 : UInt16 × Bytes :=
  if data.length < 2 then (0,data) else (get16 (data.take 2),data.drop 2)

def readU32 : UInt32 × Bytes :=
  if data.length < 4 then (0,data) else (get32 (data.take 4),data.drop 4)

def readU64 : UInt64 × Bytes :=
  if data.length < 8 then (0,data) else (get64 (data.take 8),data.drop 8)

/-- A length that is too large makes the text empty; the length itself is used up. -/
def readStr : Bytes × Bytes :=
  let (len,data) := readU16 data
  if len.toNat > data.length then ([],data) else (data.take len.toNat,data.drop len.toNat)

def readStrs : ℕ → Bytes → List Bytes × Bytes
  | 0, data => ([],data)
  | n+1, data =>
    let (s,data) := readStr data
    let (rest,data) := readStrs n data
    (s::rest,data)

def readEndpoint : Endpoint :=
  let (scheme,data) := readStr data
  let (host,data) := readStr data
  let (port,_) := readU16 data
  { scheme, host, port }

namespace Frame
open MembershipEventType

/-- The event that the loop of `apply_events` builds from the header and the payload. -/
def event (f : Frame) : MembershipEvent :=
  let ev : MembershipEvent := { type := f.type, nodeId := f.nodeId, timestampNs := f.timestampNs,
                                sequence := f.sequence }
  if f.type = peerAdded ∨ f.type = peerUpdated then { ev with endpoint := readEndpoint f.payload }
  else if f.type = peerRenamed then
    let (oldDisplayName,data) := readStr f.payload
    let (newDisplayName,_) := readStr data
    { ev with oldDisplayName, newDisplayName }
  else if f.type = stateChange then { ev with newState := ⟨(readU8 f.payload).1⟩ }
  else if f.type = capabilityChange then
    let (newRole,data) := readU8 f.payload
    let (numAdded,data) := readU16 data
    let (numRemoved,data) := readU16 data
    let (addedCaps,data) := readStrs numAdded.toNat data
    let (removedCaps,_) := readStrs numRemoved.toNat data
    { ev with newRole := .ofByte newRole, addedCaps, removedCaps }
  else if f.type = certificateRotate then
    let (certLen,data) := readU16 f.payload
    if certLen > 0 ∧ certLen.toNat ≤ data.length then
      match Certificate.deserialize (data.take certLen.toNat) with
      | .ok cert => { ev with newCert := cert }
      | .error _ => ev
    else ev
  else ev

end Frame

/-- One turn of the reading loop; `none` where it breaks. -/
def readFrame : Option (Frame × Bytes) :=
  let (type,data) := readU8 data
  if h : data.length < 32 then none
  else
    let nodeId : NodeID := ⟨data.take 32,List.length_take_of_le (Nat.not_lt.mp h)⟩
    let (timestampNs,data) := readU64 (data.drop 32)
    let (sequence,data) := readU64 data
    let (payloadLen,data) := readU32 data
    if payloadLen.toNat > data.length then none
    else some ({ type := ⟨type⟩, nodeId, timestampNs := timestampNs.toInt64, sequence,
                 payload := data.take payloadLen.toNat },data.drop payloadLen.toNat)

def readFrames : ℕ → Bytes → List Frame
  | 0, _ => []
  | n+1, data => match readFrame data with
    | none => []
    | some (f,rest) => f::readFrames n rest

def decodeEvents : List MembershipEvent :=
  let (count,view) := readU32 data
  (readFrames count.toNat view).map Frame.event

/-! What was written is read. -/

lemma readU64_put64 (v : UInt64) (rest : Bytes) : readU64 (put64 v ++ rest) = (v,rest) := by
  have hlen := length_put64 v
  rw [readU64,if_neg,take_left' hlen,drop_left' hlen,get64_put64]
  rw [length_append,hlen]
  omega

lemma readU32_put32 (v : UInt32) (rest : Bytes) : readU32 (put32 v ++ rest) = (v,rest) := by
  have hlen := length_put32 v
  rw [readU32,if_neg,take_left' hlen,drop_left' hlen,get32_put32]
  rw [length_append,hlen]
  omega

lemma readFrame_write (f : Frame) (rest : Bytes) :
    let len := (UInt32.ofNat f.payload.length).toNat
    readFrame (f.write ++ rest) =
      some ({ f with payload := (f.payload ++ rest).take len },(f.payload ++ rest).drop len) := by
  have hid : f.nodeId.toList.length = 32 := f.nodeId.toList_length
  have hfits : ¬(UInt32.ofNat f.payload.length).toNat > (f.payload ++ rest).length := by
    rw [UInt32.toNat_ofNat',length_append]
    have hle := Nat.mod_le f.payload.length (2^32)
    omega
  obtain ⟨tail,htail⟩ : ∃ tail, tail = put64 f.timestampNs.toUInt64 ++ (put64 f.sequence ++
    (put32 (UInt32.ofNat f.payload.length) ++ (f.payload ++ rest))) := ⟨_,rfl⟩
  have hword : f.write ++ rest = f.type.val::(f.nodeId.toList ++ tail) := by
    simp only [Frame.write,htail,cons_append,append_assoc]
  have hlong : ¬(f.nodeId.toList ++ tail).length < 32 := by
    rw [length_append,hid]
    omega
  have hnode : (⟨(f.nodeId.toList ++ tail).take 32,length_take_of_le (Nat.not_lt.mp hlong)⟩ :
      NodeID) = f.nodeId := List.Vector.eq _ _ (take_left' hid)
  unfold readFrame
  rw [hword]
  dsimp only [readU8]
  rw [dif_neg hlong,hnode,drop_left' hid,htail,readU64_put64]
  dsimp only
  rw [readU64_put64]
  dsimp only
  rw [readU32_put32]
  dsimp only
  rw [if_neg hfits,Int64.toInt64_toUInt64]

lemma Frame.readFrame_of_lt (h : f.payload.length < 2^32) (rest : Bytes) :
    readFrame (f.write ++ rest) = some (f,rest) := by
  rw [readFrame_write,UInt32.toNat_ofNat_of_lt' h,take_left,drop_left]

variable {data}

lemma readFrame_payload_lt (h : readFrame data = some (f,rest)) :
    f.payload.length < 2^32 := by
  unfold readFrame at h
  dsimp only at h
  split_ifs at h
  cases h
  exact (length_take_le _ _).trans_lt (UInt32.toNat_lt _)

lemma length_readFrames_le (n : ℕ) (data : Bytes) : (readFrames n data).length ≤ n := by
  induction n generalizing data with
  | zero => exact Nat.le_refl 0
  | succ n ih =>
    unfold readFrames
    cases readFrame data with
    | none => exact Nat.zero_le _
    | some out => exact Nat.succ_le_succ (ih out.2)

lemma readFrames_payload_lt (h : f ∈ readFrames n data) :
    f.payload.length < 2^32 := by
  induction n generalizing data with
  | zero => cases h
  | succ n ih =>
    unfold readFrames at h
    cases hread : readFrame data with
    | none =>
      rw [hread] at h
      cases h
    | some out =>
      rw [hread] at h
      rcases mem_cons.mp h with rfl | h
      · exact readFrame_payload_lt hread
      · exact ih h

lemma readFrames_write (h : ∀ f ∈ fs, f.payload.length < 2^32) :
    readFrames fs.length (fs.flatMap Frame.write) = fs := by
  induction fs with
  | nil => rfl
  | cons f fs ih =>
    obtain ⟨hf,hfs⟩ := forall_mem_cons.mp h
    rw [flatMap_cons,length_cons,readFrames,Frame.readFrame_of_lt hf]
    exact congrArg (f::·) (ih hfs)

lemma decodeEvents_frames (fs : List Frame) (hcount : fs.length < 2^32)
    (h : ∀ f ∈ fs, f.payload.length < 2^32) :
    decodeEvents (put32 (UInt32.ofNat fs.length) ++ fs.flatMap Frame.write) = fs.map Frame.event := by
  rw [decodeEvents,readU32_put32]
  dsimp only
  rw [UInt32.toNat_ofNat_of_lt' hcount,readFrames_write h]

/-- Every event arrives, as its payload is read. -/
theorem decodeEvents_serializeEvents {events : List MembershipEvent} (hcount : events.length < 2^32)
    (h : ∀ ev ∈ events, ev.payload.length < 2^32) :
    decodeEvents (serializeEvents events) = events.map fun ev => ev.frame.event := by
  have hframes := decodeEvents_frames (events.map MembershipEvent.frame) (by simpa using hcount)
    (forall_mem_map.mpr h)
  rw [length_map,flatMap_map,map_map] at hframes
  exact hframes

theorem decodeEvents_serializeEvents_two :
    let renamed : MembershipEvent :=
      { type := .peerRenamed, nodeId := ⟨replicate 32 1,rfl⟩, timestampNs := -5, sequence := 3,
        oldDisplayName := [97], newDisplayName := [98,99] }
    let changed : MembershipEvent :=
      { type := .stateChange, nodeId := ⟨replicate 32 2,rfl⟩, sequence := 4, newState := .online }
    decodeEvents (serializeEvents [renamed,changed]) = [renamed.frame.event,changed.frame.event] :=
  decodeEvents_serializeEvents (by decide) (by decide)

lemma exists_single (h : ev ∈ decodeEvents data) :
    ∃ single, decodeEvents single = [ev] := by
  obtain ⟨f,hf,rfl⟩ := mem_map.mp h
  have hlen := readFrames_payload_lt hf
  exact ⟨_,decodeEvents_frames [f] (by simp) (by simpa using hlen)⟩

lemma length_decodeEvents_le (events : List MembershipEvent) :
    (decodeEvents (serializeEvents events)).length ≤ events.length := by
  rw [decodeEvents,serializeEvents,readU32_put32,length_map]
  refine (length_readFrames_le _ _).trans ?_
  rw [UInt32.toNat_ofNat']
  exact Nat.mod_le _ _

lemma decodeEvents_ne_nil (hne : events ≠ [])
    (hcount : events.length < 2^32) : decodeEvents (serializeEvents events) ≠ [] := by
  obtain ⟨ev,rest,rfl⟩ := exists_cons_of_ne_nil hne
  rw [decodeEvents,serializeEvents,readU32_put32]
  dsimp only
  rw [UInt32.toNat_ofNat_of_lt' hcount,flatMap_cons,length_cons,readFrames,readFrame_write]
  exact cons_ne_nil _ _

end SmoFramework.Sync
