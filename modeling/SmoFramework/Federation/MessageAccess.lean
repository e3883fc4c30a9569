import SmoFramework.Federation.Messages
import SmoFramework.Library.CheckedReader

/-! Which bytes the readers of the federation handshake look at. With every access checked, the
readers of the auth and of the ack message never look outside of what they were given; the reader of
the hello message does, where the message ends within its timestamp. -/
namespace SmoFramework.Federation
open Library Library.BigEndian Library.Cursor Certificate List Reader
open Certificate (appendBytes malformed)

namespace Access
variable (data : Bytes) (e : Error)

def readU32 : Checked Error UInt32 := do
  let word ← part data 4 e
  pure (read32 (word.getD 0 0) (word.getD 1 0) (word.getD 2 0) (word.getD 3 0))

variable (noLength noData : Error)

def readSized : Checked Error Bytes := do
  let len ← readU32 data noLength
  part data len.toNat noData

def readString : Checked Error Bytes :=
  readSized data (serializationError 1 "Truncated string length")
    (serializationError 2 "Truncated string data")

def readBytes : Checked Error Bytes :=
  readSized data (serializationError 3 "Truncated bytes length")
    (serializationError 4 "Truncated bytes data")

def readInt64 : Checked Error Int64 := do
  let bytes ← part data 8 e
  pure (read64 bytes).toInt64

/-! A certificate, from the copy of its bytes. -/

def readU64 : Checked Error UInt64 := do
  let hi ← readU32 data e
  let lo ← readU32 data e
  pure (join32 hi lo)

def certificateBody : Checked Error Certificate := do
  let meshId ← readSized data (malformed "failed to parse mesh_id") (malformed "failed to parse mesh_id")
  let subjectPubkey ← readSized data (malformed "failed to parse subject_pubkey")
    (malformed "failed to parse subject_pubkey")
  let issuerPubkey ← readSized data (malformed "failed to parse issuer_pubkey")
    (malformed "failed to parse issuer_pubkey")
  let role ← next data 0 (malformed "truncated: missing role")
  let displayName ← readSized data (malformed "failed to parse display_name")
    (malformed "failed to parse display_name")
  let capabilities ← readSized data (malformed "failed to parse capabilities")
    (malformed "failed to parse capabilities")
  let epoch ← readU64 data (malformed "failed to parse epoch")
  let notBefore ← readU64 data (malformed "failed to parse not_before")
  let notAfter ← readU64 data (malformed "failed to parse not_after")
  pure { meshId, subjectPubkey, issuerPubkey, role := .ofByte role, displayName, capabilities, epoch,
         notBefore := notBefore.toInt64, notAfter := notAfter.toInt64 }

def certificate : Checked Error Certificate := do
  let cert ← certificateBody data
  let off ← get
  if off < data.length then
    let signature ← readSized data (malformed "failed to parse signature")
      (malformed "failed to parse signature")
    pure { cert with signature }
  else pure cert

def readCertificate : Checked Error Certificate := do
  let blob ← readBytes data
  StateT.lift ((certificate blob).run' 0)

/-! The messages. -/

def helloHead : Checked Error FederationHello := do
  let localMeshId ← readString data
  let localGatewayNodeId ← readString data
  let suiteCount ← readU32 data (serializationError 5 "Truncated suite count")
  let supportedSuites ← valuesOf (readString data) suiteCount.toNat
  let authorityPubkey ← readString data
  let rootPubkey ← readString data
  let epoch ← readInt64 data (serializationError 6 "Truncated epoch")
  pure { localMeshId, localGatewayNodeId, supportedSuites, authorityPubkey, rootPubkey, epoch }

/-- `FederationHello::deserialize`: nothing asks whether the timestamp is there. -/
def hello : Checked Error FederationHello := do
  let m ← helloHead data
  let off ← get
  let bytes ← slice data off 8
  set (off+8)
  pure { m with timestamp := (read64 bytes).toInt64 }

def auth : Checked Error FederationAuth := do
  let remoteMeshId ← readString data
  let localMeshId ← readString data
  let signature ← readBytes data
  let localCertificate ← readCertificate data
  let anchorCount ← readU32 data (serializationError 5 "Truncated anchor count")
  let trustAnchors ← valuesOf (readCertificate data) anchorCount.toNat
  let timestamp ← readInt64 data (serializationError 6 "Truncated timestamp")
  pure { remoteMeshId, localMeshId, signature, localCertificate, trustAnchors, timestamp }

def ack : Checked Error FederationAck := do
  let remoteMeshId ← readString data
  let localMeshId ← readString data
  let accepted ← next data 0 (serializationError 5 "Truncated accepted flag")
  let rejectionReason ← readString data
  let signature ← readBytes data
  let timestamp ← readInt64 data (serializationError 6 "Truncated timestamp")
  pure { remoteMeshId, localMeshId, accepted := accepted ≠ 0, rejectionReason, signature, timestamp }

/-! They follow the readers of the messages. -/

variable {data}

lemma readU32_eq_vector : Certificate.readU32 e = (do
    let v ← Reader.vector 4 e
    pure (read32 (v.toList.getD 0 0) (v.toList.getD 1 0) (v.toList.getD 2 0) (v.toList.getD 3 0))) := by
  funext data
  match data with
  | [] | [_] | [_,_] | [_,_,_] => rfl
  | _::_::_::_::_ => rfl

lemma follows_readU32 : Follows data (readU32 data e) (Certificate.readU32 e) := by
  rw [readU32_eq_vector]
  exact .part e fun _ => .pure _

lemma follows_readSized : Follows data (readSized data noLength noData)
    (Reader.sized (Certificate.readU32 noLength) noData) := by
  refine (follows_readU32 noLength).bind fun len => ?_
  rw [← bind_pure (part data len.toNat noData)]
  exact .part noData fun _ => .pure _

lemma follows_readString : Follows data (readString data) Federation.readString :=
  follows_readSized _ _

lemma follows_readBytes : Follows data (readBytes data) Federation.readBytes :=
  follows_readSized _ _

lemma follows_readInt64 : Follows data (readInt64 data e) (Federation.readInt64 e) :=
  .part e fun _ => .pure _

lemma follows_readU64 : Follows data (readU64 data e) (Certificate.readU64 e) :=
  (follows_readU32 e).bind fun _ => (follows_readU32 e).bind fun _ => .pure _

lemma follows_certificateBody : Follows data (certificateBody data) readBody :=
  (follows_readSized _ _).bind fun _ => (follows_readSized _ _).bind fun _ =>
  (follows_readSized _ _).bind fun _ => (Follows.next 0 _).bind fun _ =>
  (follows_readSized _ _).bind fun _ => (follows_readSized _ _).bind fun _ =>
  (follows_readU64 _).bind fun _ => (follows_readU64 _).bind fun _ =>
  (follows_readU64 _).bind fun _ => .pure _

def certificateReader : Reader UInt8 Error Certificate := do
  let cert ← Certificate.readBody
  let rest ← get
  if rest = [] then pure cert
  else do
    let signature ← Certificate.readBytes (malformed "failed to parse signature")
    pure { cert with signature }

lemma deserialize_eq (blob : Bytes) :
    Certificate.deserialize blob = (certificateReader.run blob).map Prod.fst := by
  unfold Certificate.deserialize certificateReader
  rw [StateT.run_bind]
  cases Certificate.readBody.run blob with
  | error e => rfl
  | ok v =>
    obtain ⟨cert,rest⟩ := v
    change _ = Except.map Prod.fst ((if rest = [] then pure cert
      else do
        let signature ← Certificate.readBytes (malformed "failed to parse signature")
        pure { cert with signature } : Reader UInt8 Error Certificate).run rest)
    by_cases hnil : rest = []
    · simp only [hnil]
      rfl
    · simp only [bind,Except.bind,if_neg hnil]
      change _ = Except.map Prod.fst ((Certificate.readBytes _).run rest >>= _)
      cases (Certificate.readBytes (malformed "failed to parse signature")).run rest <;> rfl

lemma run'_certificate (blob : Bytes) :
    (certificate blob).run' 0 = (deserialize blob).mapError Fault.failed := by
  have hfollows : Follows blob (certificate blob) certificateReader :=
    follows_certificateBody.bind fun cert =>
      .ifLeft ((follows_readSized _ _).bind fun _ => .pure _) (.pure cert)
  rw [hfollows.run',deserialize_eq]

lemma follows_readCertificate :
    Follows data (readCertificate data) FederationAuth.readCertificate :=
  follows_readBytes.bind fun blob => .lift (run'_certificate blob)

lemma follows_auth (data : Bytes) : Follows data (auth data) FederationAuth.read :=
  follows_readString.bind fun _ => follows_readString.bind fun _ => follows_readBytes.bind fun _ =>
  follows_readCertificate.bind fun _ => (follows_readU32 _).bind fun count =>
  (follows_readCertificate.times count.toNat).bind fun _ => (follows_readInt64 _).bind fun _ => .pure _

lemma follows_ack (data : Bytes) : Follows data (ack data) FederationAck.read :=
  follows_readString.bind fun _ => follows_readString.bind fun _ => (Follows.next 0 _).bind fun _ =>
  follows_readString.bind fun _ => follows_readBytes.bind fun _ =>
  (follows_readInt64 _).bind fun _ => .pure _

/-! What has been read does not change when more comes. -/

lemma stable_readString : Reader.Stable Federation.readString :=
  (stable_readU32 _).sized _

lemma stable_readBytes : Reader.Stable Federation.readBytes :=
  (stable_readU32 _).sized _

lemma stable_readInt64 : Reader.Stable (Federation.readInt64 e) :=
  (Reader.Stable.vector 8 e).bind fun _ => .pure _

lemma stable_readCertificate : Reader.Stable FederationAuth.readCertificate :=
  stable_readBytes.bind fun _ => .lift _

lemma stable_auth : Reader.Stable FederationAuth.read :=
  stable_readString.bind fun _ => stable_readString.bind fun _ => stable_readBytes.bind fun _ =>
  stable_readCertificate.bind fun _ => (stable_readU32 _).bind fun count =>
  (stable_readCertificate.times count.toNat).bind fun _ => (stable_readInt64 _).bind fun _ => .pure _

lemma stable_ack : Reader.Stable FederationAck.read :=
  stable_readString.bind fun _ => stable_readString.bind fun _ => (Reader.Stable.symbol _).bind fun _ =>
  stable_readString.bind fun _ => stable_readBytes.bind fun _ =>
  (stable_readInt64 _).bind fun _ => .pure _

/-! The hello message. -/

def helloReader : Reader UInt8 Error FederationHello := do
  let localMeshId ← Federation.readString
  let localGatewayNodeId ← Federation.readString
  let suiteCount ← Certificate.readU32 (serializationError 5 "Truncated suite count")
  let supportedSuites ← Federation.readString.times suiteCount.toNat
  let authorityPubkey ← Federation.readString
  let rootPubkey ← Federation.readString
  let epoch ← Federation.readInt64 (serializationError 6 "Truncated epoch")
  pure { localMeshId, localGatewayNodeId, supportedSuites, authorityPubkey, rootPubkey, epoch }

lemma follows_helloHead (data : Bytes) : Follows data (helloHead data) helloReader :=
  follows_readString.bind fun _ => follows_readString.bind fun _ =>
  (follows_readU32 _).bind fun count => (follows_readString.times count.toNat).bind fun _ =>
  follows_readString.bind fun _ => follows_readString.bind fun _ =>
  (follows_readInt64 _).bind fun _ => .pure _

lemma stable_helloReader : Reader.Stable helloReader :=
  stable_readString.bind fun _ => stable_readString.bind fun _ =>
  (stable_readU32 _).bind fun count => (stable_readString.times count.toNat).bind fun _ =>
  stable_readString.bind fun _ => stable_readString.bind fun _ =>
  (stable_readInt64 _).bind fun _ => .pure _

variable {e}

lemma run_hello_error (h : helloReader.run data = .error e) :
    (hello data).run 0 = .error (.failed e) := by
  have hhead := (follows_helloHead data 0 (Nat.zero_le _)).failed e h
  rw [hello,StateT.run_bind,hhead]
  rfl

lemma run_hello_ok (h : helloReader.run data = .ok (m,rest)) :
    ∃ q ≤ data.length, rest = data.drop q ∧ (hello data).run 0 =
      if q+8 ≤ data.length then
        .ok ({ m with timestamp := (read64 (rest.take 8)).toInt64 },q+8)
      else .error (.outside q 8) := by
  obtain ⟨q,hq,rfl,hhead⟩ := (follows_helloHead data 0 (Nat.zero_le _)).done m rest h
  refine ⟨q,hq,rfl,?_⟩
  rw [hello,StateT.run_bind,hhead]
  change (do
    let bytes ← slice data q 8
    set (q+8)
    pure { m with timestamp := (read64 bytes).toInt64 } : Checked Error FederationHello).run q = _
  unfold slice
  by_cases hlen : q+8 ≤ data.length
  · rw [if_pos hlen,if_pos hlen]
    rfl
  · rw [if_neg hlen,if_neg hlen]
    rfl

lemma inside_hello_iff :
    Inside hello data ↔ ∀ m rest, helloReader.run data = .ok (m,rest) → 8 ≤ rest.length := by
  have hvalue : (hello data).run' 0 = ((hello data).run 0).map Prod.fst := rfl
  constructor
  · intro hinside m rest h
    obtain ⟨q,hq,rfl,hrun⟩ := run_hello_ok h
    by_contra hshort
    rw [length_drop] at hshort
    rw [if_neg (by omega)] at hrun
    rw [hrun] at hvalue
    exact hinside q 8 hvalue
  · intro hlong off len houtside
    rw [hvalue] at houtside
    cases h : helloReader.run data with
    | error e =>
      rw [run_hello_error h] at houtside
      cases houtside
    | ok v =>
      obtain ⟨m,rest⟩ := v
      have hrest := hlong m rest h
      obtain ⟨q,hq,rfl,hrun⟩ := run_hello_ok h
      rw [length_drop] at hrest
      rw [hrun,if_pos (by omega)] at houtside
      cases houtside

lemma safeOn_hello_iff : SafeOn hello data ↔ Inside hello data := by
  refine ⟨And.left,fun hinside => .of_stable hinside ?_⟩
  intro a q hrun
  cases h : helloReader.run data with
  | error e =>
    rw [run_hello_error h] at hrun
    cases hrun
  | ok v =>
    obtain ⟨m,rest⟩ := v
    obtain ⟨p,hp,rfl,hhello⟩ := run_hello_ok h
    rw [hhello] at hrun
    split_ifs at hrun with hlen
    cases hrun
    refine ⟨hlen,fun tail => ?_⟩
    obtain ⟨p',hp',hrest,hhello'⟩ := run_hello_ok (stable_helloReader _ _ _ h tail)
    have hlength := congrArg length hrest
    simp only [length_append,length_drop] at hlength hp'
    obtain rfl : p' = p := by omega
    rw [hhello',if_pos (by rw [length_append]; omega),take_append_of_le_length]
    rw [length_drop]
    omega

end Access

/-! The inputs on which the hello message is read from outside. -/

namespace FederationHello

structure Fits (m : FederationHello) : Prop where
  localMeshId : m.localMeshId.length < 2^32
  localGatewayNodeId : m.localGatewayNodeId.length < 2^32
  count : m.supportedSuites.length < 2^32
  suites : ∀ suite ∈ m.supportedSuites, suite.length < 2^32
  authorityPubkey : m.authorityPubkey.length < 2^32
  rootPubkey : m.rootPubkey.length < 2^32

lemma Fits.setTimestamp {m : FederationHello} (h : m.Fits) (timestamp : Int64) :
    ({ m with timestamp } : FederationHello).Fits :=
  ⟨h.localMeshId,h.localGatewayNodeId,h.count,h.suites,h.authorityPubkey,h.rootPubkey⟩

/-- A hello message without its last bytes, one to eight of them. -/
def CutInTimestamp (data : Bytes) : Prop :=
  ∃ m : FederationHello, m.Fits ∧ ∃ n, 0 < n ∧ n ≤ 8 ∧ data = m.serialize.take (m.serialize.length-n)

variable (m : FederationHello)

def head : Bytes :=
  appendBytes m.localMeshId ++ (appendBytes m.localGatewayNodeId ++
    (write32 (UInt32.ofNat m.supportedSuites.length) ++ (m.supportedSuites.flatMap appendBytes ++
      (appendBytes m.authorityPubkey ++ (appendBytes m.rootPubkey ++ write64 m.epoch.toUInt64)))))

lemma serialize_eq_head :
    m.serialize = m.head ++ write64 m.timestamp.toUInt64 := by
  simp only [serialize,head,append_assoc]

end FederationHello

lemma run_readString_eq_ok {data part rest : Bytes} : readString.run data = .ok (part,rest) ↔
    part.length < 2^32 ∧ data = appendBytes part ++ rest := by
  exact run_sized_eq_ok fun _ _ _ => run_readU32_eq_ok

lemma run_readInt64_eq_ok :
    (readInt64 e).run data = .ok (v,rest) ↔ data = write64 v.toUInt64 ++ rest := by
  simp only [readInt64,run_bind_eq_ok,run_vector_eq_ok,run_pure_eq_ok]
  constructor
  · rintro ⟨bytes,_,rfl,rfl,rfl⟩
    rw [UInt64.toUInt64_toInt64,write64_read64 bytes.toList_length]
  · rintro rfl
    refine ⟨⟨write64 v.toUInt64,length_write64 _⟩,rest,rfl,?_,rfl⟩
    exact congrArg UInt64.toInt64 (read64_write64 v.toUInt64)

namespace Access

lemma run_helloReader_eq_ok {data rest : Bytes} :
    helloReader.run data = .ok (m,rest) ↔ m.Fits ∧ m.timestamp = 0 ∧ data = m.head ++ rest := by
  simp only [helloReader,run_bind_eq_ok,run_readString_eq_ok,run_readU32_eq_ok,
    run_times_eq_ok fun _ _ _ => run_readString_eq_ok,run_readInt64_eq_ok,run_pure_eq_ok]
  constructor
  · rintro ⟨a,_,⟨ha,rfl⟩,b,_,⟨hb,rfl⟩,count,_,rfl,suites,_,⟨hcount,hsuites,rfl⟩,c,_,⟨hc,rfl⟩,d,_,
      ⟨hd,rfl⟩,epoch,_,rfl,rfl,rfl⟩
    have hfits : suites.length < 2^32 := hcount.trans_lt count.toNat_lt
    refine ⟨⟨ha,hb,hfits,hsuites,hc,hd⟩,rfl,?_⟩
    simp only [FederationHello.head,hcount,UInt32.ofNat_toNat,append_assoc]
  · rintro ⟨hfits,hzero,rfl⟩
    have hcount : (UInt32.ofNat m.supportedSuites.length).toNat = m.supportedSuites.length :=
      UInt32.toNat_ofNat_of_lt' hfits.count
    simp only [FederationHello.head,append_assoc]
    refine ⟨_,_,⟨hfits.localMeshId,rfl⟩,_,_,⟨hfits.localGatewayNodeId,rfl⟩,_,_,rfl,_,_,
      ⟨hcount.symm,hfits.suites,rfl⟩,_,_,⟨hfits.authorityPubkey,rfl⟩,_,_,⟨hfits.rootPubkey,rfl⟩,
      m.epoch,_,rfl,?_,rfl⟩
    rw [← hzero]

lemma cutInTimestamp_iff {data : Bytes} : FederationHello.CutInTimestamp data ↔
    ∃ m rest, helloReader.run data = .ok (m,rest) ∧ rest.length < 8 := by
  simp only [run_helloReader_eq_ok]
  constructor
  · rintro ⟨m,hfits,n,hpos,hle,rfl⟩
    have hlen := length_write64 m.timestamp.toUInt64
    refine ⟨{ m with timestamp := 0 },(write64 m.timestamp.toUInt64).take (8-n),
      ⟨hfits.setTimestamp 0,rfl,?_⟩,by rw [length_take]; omega⟩
    rw [m.serialize_eq_head,length_append,hlen,Nat.add_sub_assoc hle,take_length_add_append]
    rfl
  · rintro ⟨m,rest,⟨hfits,-,rfl⟩,hshort⟩
    let filled := rest ++ replicate (8-rest.length) 0
    have hfilled : filled.length = 8 := by
      rw [length_append,length_replicate]
      omega
    refine ⟨{ m with timestamp := (read64 filled).toInt64 },hfits.setTimestamp _,8-rest.length,
      by omega,by omega,?_⟩
    rw [FederationHello.serialize_eq_head,length_append,length_write64,UInt64.toUInt64_toInt64,
      write64_read64 hfilled,Nat.add_sub_assoc (by omega),take_length_add_append,
      show 8-(8-rest.length) = rest.length by omega,take_left]
    rfl

lemma inside_hello_iff_not_cut :
    Inside hello data ↔ ¬FederationHello.CutInTimestamp data := by
  rw [inside_hello_iff,cutInTimestamp_iff]
  simp only [not_exists,not_and,not_lt]

/-- The three readers look only at the bytes they were given, and report a message that ends too early,
unless the bytes are those of a hello message that ends within its timestamp. -/
theorem safeOn_messages_iff (data : Bytes) :
    (SafeOn hello data ∧ SafeOn auth data ∧ SafeOn ack data) ↔
      ¬FederationHello.CutInTimestamp data := by
  rw [safeOn_hello_iff,inside_hello_iff_not_cut]
  exact and_iff_left ⟨.of_follows follows_auth stable_auth data,.of_follows follows_ack stable_ack data⟩

/-- An empty hello message without its timestamp: the reader goes on behind the 28 bytes. -/
theorem hello_reads_outside : (hello (List.replicate 28 0)).run' 0 = .error (.outside 28 8) ∧
    ¬SafeOn hello (List.replicate 28 0) := by
  have houtside : (hello (replicate 28 0)).run' 0 = .error (.outside 28 8) := by decide +kernel
  exact ⟨houtside,fun h => h.1 28 8 houtside⟩

end Access
end SmoFramework.Federation
