import SmoFramework.Errors
import SmoFramework.Library.BigEndian
import SmoFramework.Library.Reader

/-! Membership certificates and their canonical bytes (`core/certificate`). The body is every field
but the signature; the full form adds the signature behind it. -/
namespace SmoFramework
open Library Library.BigEndian List

/-- Reading a byte back casts it without a check, so a byte beyond the last name is a role too. -/
inductive Role
  | root | authority | contributor | reader | observer | member | recovery
  | unnamed (value : UInt8) (h : 7 ≤ value)
  deriving DecidableEq, Repr

namespace Role

def toByte : Role → UInt8
  | root => 0
  | authority => 1
  | contributor => 2
  | reader => 3
  | observer => 4
  | member => 5
  | recovery => 6
  | unnamed value _ => value

def ofByte (b : UInt8) : Role :=
  if h : 7 ≤ b then unnamed b h
  else match b.toNat with
    | 0 => root
    | 1 => authority
    | 2 => contributor
    | 3 => reader
    | 4 => observer
    | 5 => member
    | _ => recovery

lemma ofByte_toByte (r : Role) : ofByte r.toByte = r := by
  cases r with
  | unnamed value h => exact dif_pos h
  | _ => rfl

/-- `to_string`: the switch stops at `Observer`. -/
def toString : Role → String
  | root => "Root"
  | authority => "Authority"
  | contributor => "Contributor"
  | reader => "Reader"
  | observer => "Observer"
  | member | recovery | unnamed _ _ => "Unknown"

end Role

structure Certificate where
  subjectPubkey : Bytes := []
  issuerPubkey : Bytes := []
  meshId : Bytes := []
  role : Role := .reader
  displayName : Bytes := []
  capabilities : Bytes := []
  epoch : UInt64 := 0
  notBefore : Int64 := 0
  notAfter : Int64 := 0
  signature : Bytes := []
  deriving DecidableEq, Repr

namespace Certificate

/-! Writing. -/

def appendU64 (v : UInt64) : Bytes := write32 (v >>> 32).toUInt32 ++ write32 v.toUInt32

def appendBytes (data : Bytes) : Bytes := write32 (UInt32.ofNat data.length) ++ data

/-- `serialize`: every field except the signature. -/
def serialize (c : Certificate) : Bytes :=
  appendBytes c.meshId ++ (appendBytes c.subjectPubkey ++ (appendBytes c.issuerPubkey ++
    ([c.role.toByte] ++ (appendBytes c.displayName ++ (appendBytes c.capabilities ++
      (appendU64 c.epoch ++ (appendU64 c.notBefore.toUInt64 ++ appendU64 c.notAfter.toUInt64)))))))

def serializeFull (c : Certificate) : Bytes := c.serialize ++ appendBytes c.signature

/-! Reading. -/

def malformed (message : String) : Error := smoErrCert 203 .error .noRetry .reenroll message

def readU32 (e : Error) : Reader UInt8 Error UInt32
  | b3::b2::b1::b0::rest => .ok (read32 b3 b2 b1 b0,rest)
  | _ => .error e

def readU64 (e : Error) : Reader UInt8 Error UInt64 := do
  let hi ← readU32 e
  let lo ← readU32 e
  pure (join32 hi lo)

def readBytes (e : Error) : Reader UInt8 Error Bytes := do
  let len ← readU32 e
  let data ← Reader.vector len.toNat e
  pure data.toList

def readBody : Reader UInt8 Error Certificate := do
  let meshId ← readBytes (malformed "failed to parse mesh_id")
  let subjectPubkey ← readBytes (malformed "failed to parse subject_pubkey")
  let issuerPubkey ← readBytes (malformed "failed to parse issuer_pubkey")
  let role ← Reader.symbol (malformed "truncated: missing role")
  let displayName ← readBytes (malformed "failed to parse display_name")
  let capabilities ← readBytes (malformed "failed to parse capabilities")
  let epoch ← readU64 (malformed "failed to parse epoch")
  let notBefore ← readU64 (malformed "failed to parse not_before")
  let notAfter ← readU64 (malformed "failed to parse not_after")
  pure { meshId, subjectPubkey, issuerPubkey, role := .ofByte role, displayName, capabilities, epoch,
         notBefore := notBefore.toInt64, notAfter := notAfter.toInt64 }

/-- `deserialize`: a signature is read if anything follows the body, and what follows it is
ignored. -/
def deserialize (data : Bytes) : Result Certificate := do
  let (cert,rest) ← readBody.run data
  if rest = [] then pure cert
  else do
    let (signature,_) ← (readBytes (malformed "failed to parse signature")).run rest
    pure { cert with signature }

/-! What was written is read back, and a part of it is never taken for the whole. -/

lemma reads_readU32 (e : Error) (v : UInt32) : Reader.Reads (readU32 e) (write32 v) v := by
  intro rest
  obtain ⟨b3,b2,b1,b0,hbytes⟩ : ∃ b3 b2 b1 b0, write32 v = [b3,b2,b1,b0] := ⟨_,_,_,_,rfl⟩
  have hread : read32 b3 b2 b1 b0 = v := by
    apply UInt32.toNat_inj.mp
    rw [toNat_read32,← hbytes,write32_eq,ofBE_toBE_of_lt v.toNat_lt]
  rw [hbytes]
  change Except.ok (read32 b3 b2 b1 b0,rest) = _
  rw [hread]

lemma run_readU32_eq_ok :
    (readU32 e).run data = .ok (v,rest) ↔ data = write32 v ++ rest := by
  constructor
  · intro h
    match data with
    | b3::b2::b1::b0::tail =>
      cases h
      rw [write32_read32]
      rfl
  · rintro rfl
    exact reads_readU32 e v rest

lemma reads_readU64 (e : Error) (v : UInt64) : Reader.Reads (readU64 e) (appendU64 v) v := by
  have h : Reader.Reads (readU64 e) (appendU64 v) (join32 (v >>> 32).toUInt32 v.toUInt32) :=
    (reads_readU32 e _).bind (reads_readU32 e _).bind_pure
  rwa [join32_halves] at h

lemma reads_readBytes (e : Error) (h : data.length < 2^32) :
    Reader.Reads (readBytes e) (appendBytes data) data := by
  have hlen : (UInt32.ofNat data.length).toNat = data.length := UInt32.toNat_ofNat_of_lt' h
  have hvec := Reader.Reads.vector e (⟨data,hlen.symm⟩ : List.Vector UInt8 _)
  exact (reads_readU32 e _).bind (hvec.bind_pure (g := List.Vector.toList))

lemma stable_readU32 (e : Error) : Reader.Stable (readU32 e) := by
  intro data rest v h tail
  match data,h with
  | _::_::_::_::_,h => cases h; rfl

lemma stable_readU64 (e : Error) : Reader.Stable (readU64 e) :=
  (stable_readU32 e).bind fun _ => (stable_readU32 e).bind fun _ => .pure _

lemma stable_readBytes (e : Error) : Reader.Stable (readBytes e) :=
  (stable_readU32 e).bind fun _ => (Reader.Stable.vector _ e).bind fun _ => .pure _

lemma stable_readBody : Reader.Stable readBody :=
  (stable_readBytes _).bind fun _ => (stable_readBytes _).bind fun _ =>
  (stable_readBytes _).bind fun _ => (Reader.Stable.symbol _).bind fun _ =>
  (stable_readBytes _).bind fun _ => (stable_readBytes _).bind fun _ =>
  (stable_readU64 _).bind fun _ => (stable_readU64 _).bind fun _ =>
  (stable_readU64 _).bind fun _ => .pure _

structure FieldsFit (c : Certificate) : Prop where
  meshId : c.meshId.length < 2^32
  subjectPubkey : c.subjectPubkey.length < 2^32
  issuerPubkey : c.issuerPubkey.length < 2^32
  displayName : c.displayName.length < 2^32
  capabilities : c.capabilities.length < 2^32
  signature : c.signature.length < 2^32

variable {c : Certificate}

lemma reads_readBody (h : c.FieldsFit) :
    Reader.Reads readBody c.serialize { c with signature := [] } := by
  have hvalue : ({ c with
      role := .ofByte c.role.toByte
      notBefore := c.notBefore.toUInt64.toInt64
      notAfter := c.notAfter.toUInt64.toInt64
      signature := [] } : Certificate) = { c with signature := [] } := by
    simp [Role.ofByte_toByte]
  rw [← hvalue]
  exact (reads_readBytes _ h.meshId).bind ((reads_readBytes _ h.subjectPubkey).bind
    ((reads_readBytes _ h.issuerPubkey).bind ((Reader.Reads.symbol _ _).bind
    ((reads_readBytes _ h.displayName).bind ((reads_readBytes _ h.capabilities).bind
    ((reads_readU64 _ _).bind ((reads_readU64 _ _).bind (reads_readU64 _ _).bind_pure)))))))

lemma deserialize_serialize (h : c.FieldsFit) :
    deserialize c.serialize = .ok { c with signature := [] } := by
  have hread := reads_readBody h []
  rw [append_nil] at hread
  unfold deserialize
  rw [hread]
  rfl

lemma deserialize_serializeFull (h : c.FieldsFit) : deserialize c.serializeFull = .ok c := by
  have hsig := reads_readBytes (malformed "failed to parse signature") h.signature []
  rw [append_nil] at hsig
  have hne : appendBytes c.signature ≠ [] := by
    intro hnil
    have hlen := congrArg length hnil
    simp [appendBytes] at hlen
  unfold deserialize serializeFull
  rw [reads_readBody h]
  simp only [bind,Except.bind,hsig]
  rfl

lemma deserialize_cut_signature (h : c.FieldsFit) {part tail : Bytes}
    (hsig : appendBytes c.signature = part ++ tail) (hpart : part ≠ []) (htail : tail ≠ []) :
    ∃ e, deserialize (c.serialize ++ part) = .error e := by
  have hread := reads_readBytes (malformed "failed to parse signature") h.signature
  rw [hsig] at hread
  obtain ⟨e,he⟩ := (stable_readBytes _).fails_on_part hread htail
  refine ⟨e,?_⟩
  unfold deserialize
  rw [reads_readBody h]
  simp only [bind,Except.bind,if_neg hpart,he]

lemma body_eq_of_serialize_eq {d : Certificate} (hc : c.FieldsFit) (hd : d.FieldsFit)
    (h : c.serialize = d.serialize) : { c with signature := [] } = { d with signature := [] } := by
  have hread := deserialize_serialize hc
  rw [h,deserialize_serialize hd] at hread
  exact (Except.ok.inj hread).symm

lemma deserialize_cut (h : c.FieldsFit) (hn : n < c.serialize.length) :
    ∃ e, deserialize (c.serialize.take n) = .error e := by
  have hread := reads_readBody h
  rw [← take_append_drop n c.serialize] at hread
  obtain ⟨e,he⟩ := stable_readBody.fails_on_part hread (by
    intro hnil
    have hlen := congrArg length hnil
    rw [length_drop,length_nil] at hlen
    omega)
  refine ⟨e,?_⟩
  unfold deserialize
  rw [he]
  rfl

/-- The full form is read back, nothing shorter than it is taken for a certificate except the bare
body, and the body stands for one certificate only. -/
theorem serializeFull_canonical {c : Certificate} (h : c.FieldsFit) :
    deserialize c.serializeFull = .ok c ∧
    (∀ part, part <+: c.serializeFull → part ≠ c.serializeFull → part ≠ c.serialize →
      ∃ e, deserialize part = .error e) ∧
    ∀ d : Certificate, d.FieldsFit → c.serialize = d.serialize →
      { c with signature := [] } = { d with signature := [] } := by
  refine ⟨deserialize_serializeFull h,?_,fun d hd => body_eq_of_serialize_eq h hd⟩
  rintro part ⟨tail,hpart⟩ hfull hbody
  -- the cut lies inside the body or inside the signature behind it
  rcases append_eq_append_iff.mp hpart with ⟨mid,hmid,-⟩ | ⟨mid,rfl,hmid⟩
  · have htake : part = c.serialize.take part.length := by rw [hmid,take_left]
    rw [htake]
    apply deserialize_cut h
    rw [hmid,length_append]
    have hne : mid ≠ [] := by
      rintro rfl
      exact hbody (by rw [hmid,append_nil])
    have := length_pos_of_ne_nil hne
    omega
  · apply deserialize_cut_signature h hmid
    · rintro rfl
      exact hbody (append_nil _)
    · rintro rfl
      exact hfull (by rw [serializeFull,hmid,append_nil])

theorem serializeFull_canonical_member :
    let c : Certificate :=
      { meshId := [109], subjectPubkey := [1,2], issuerPubkey := [3], role := .member,
        displayName := [110], capabilities := [99], epoch := 4, notBefore := -1, notAfter := 9,
        signature := [7,8] }
    deserialize c.serializeFull = .ok c ∧
      ∀ part, part <+: c.serializeFull → part ≠ c.serializeFull → part ≠ c.serialize →
        ∃ e, deserialize part = .error e := by
  intro c
  have h := serializeFull_canonical (c := c)
    ⟨by decide,by decide,by decide,by decide,by decide,by decide⟩
  exact ⟨h.1,h.2.1⟩

end Certificate
end SmoFramework
