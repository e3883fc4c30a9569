import Mathlib.Tactic.IntervalCases
import SmoFramework.Errors
import SmoFramework.Library.BigEndian
import SmoFramework.Library.KeyedLog

/-! Certificate revocation lists (`core/recovery/crl`): the list itself and its bytes. The readers
never fail: at the end of the input they go on with what they have. The messages around revocation
and the event listener are left out. -/
namespace SmoFramework.Recovery
open Library Library.BigEndian List

structure CrlEntry where
  certFingerprint : Bytes := []
  nodeIdHex : Bytes := []
  reason : Bytes := []
  epoch : UInt64 := 0
  revokedAt : Int64 := 0
  deriving DecidableEq, Repr

structure Crl where
  entries : List CrlEntry := []
  deriving DecidableEq, Repr

/-! The helpers. -/

variable (data : Bytes)

def writeBytes : Bytes := write32 (UInt32.ofNat data.length) ++ data

/-- `for (i < 8 && off < data.size())`: fewer bytes make a smaller number. -/
def readU64 : UInt64 × Bytes := ((data.take 8).foldl shiftIn64 0,data.drop 8)

def readU32 : UInt32 × Bytes := ((data.take 4).foldl shiftIn32 0,data.drop 4)

/-- A length that points behind the end makes the field empty; the length itself is used up. -/
def readBytes : Bytes × Bytes :=
  let (len,data) := readU32 data
  if len.toNat > data.length then ([],data) else (data.take len.toNat,data.drop len.toNat)

namespace CrlEntry

def serialize (e : CrlEntry) : Bytes :=
  writeBytes e.certFingerprint ++ (writeBytes e.nodeIdHex ++ (writeBytes e.reason ++
    (write64 e.epoch ++ write64 e.revokedAt.toUInt64)))

def deserialize : Result CrlEntry :=
  let (certFingerprint,data) := readBytes data
  let (nodeIdHex,data) := readBytes data
  let (reason,data) := readBytes data
  let (epoch,data) := readU64 data
  let (revokedAt,_) := readU64 data
  .ok { certFingerprint, nodeIdHex, reason, epoch, revokedAt := revokedAt.toInt64 }

end CrlEntry

namespace Crl

/-- `revoke`: the first revocation of a certificate stays as it is. -/
def revoke (certFingerprint nodeIdHex reason : Bytes) (epoch : UInt64) (now : Int64) (crl : Crl) :
    Result Unit × Crl :=
  if crl.entries.any (fun entry => entry.certFingerprint == certFingerprint) then
    (.error (smoErrTrust 207 .warn .noRetry .none
      ("certificate already revoked: " ++ shown certFingerprint)),crl)
  else (.ok (),{ entries := crl.entries ++
    [{ certFingerprint, nodeIdHex, reason, epoch, revokedAt := now }] })

def isRevoked (certFingerprint : Bytes) (crl : Crl) : Result Bool :=
  .ok (crl.entries.any fun entry => entry.certFingerprint == certFingerprint)

def entriesSince (epoch : UInt64) (crl : Crl) : List CrlEntry :=
  crl.entries.filter fun entry => entry.epoch ≥ epoch

def serialize (crl : Crl) : Bytes :=
  write32 (UInt32.ofNat crl.entries.length) ++
    crl.entries.flatMap fun entry => writeBytes entry.serialize

/-- The loop of `deserialize`, with the number of turns it has left. -/
def readEntries : ℕ → Bytes → List CrlEntry
  | 0, _ => []
  | n+1, data =>
    let (len,data) := readU32 data
    if len.toNat > data.length then []
    else match CrlEntry.deserialize (data.take len.toNat) with
      | .error _ => []
      | .ok entry => entry::readEntries n (data.drop len.toNat)

def deserialize : Result Crl :=
  let (n,data) := readU32 data
  .ok { entries := readEntries n.toNat data }

end Crl

/-! What was written is read back. -/

lemma readU64_write64 (v : UInt64) (rest : Bytes) : readU64 (write64 v ++ rest) = (v,rest) := by
  have hlen := length_write64 v
  unfold readU64
  rw [take_left' hlen,drop_left' hlen]
  congr 1
  exact read64_write64 v

lemma readU32_write32 (v : UInt32) (rest : Bytes) : readU32 (write32 v ++ rest) = (v,rest) := by
  have hlen := length_write32 v
  unfold readU32
  rw [take_left' hlen,drop_left' hlen,foldl_shiftIn32_write32]

variable {data}

lemma readBytes_writeBytes (h : data.length < 2^32) (rest : Bytes) :
    readBytes (writeBytes data ++ rest) = (data,rest) := by
  have hlen : (UInt32.ofNat data.length).toNat = data.length := UInt32.toNat_ofNat_of_lt' h
  unfold readBytes writeBytes
  rw [append_assoc,readU32_write32]
  simp [hlen]

namespace CrlEntry

def Fits (e : CrlEntry) : Prop := e.serialize.length < 2^32

instance (e : CrlEntry) : Decidable e.Fits := inferInstanceAs (Decidable (_ < _))

lemma length_serialize (e : CrlEntry) : e.serialize.length =
    28+e.certFingerprint.length+e.nodeIdHex.length+e.reason.length := by
  simp only [serialize,writeBytes,length_append,length_write32,length_write64]
  omega

lemma deserialize_serialize (h : e.Fits) : deserialize e.serialize = .ok e := by
  have hlen := e.length_serialize
  unfold Fits at h
  have hlast : readU64 (write64 e.revokedAt.toUInt64) = (e.revokedAt.toUInt64,[]) := by
    have hread := readU64_write64 e.revokedAt.toUInt64 []
    rwa [append_nil] at hread
  unfold deserialize serialize
  rw [readBytes_writeBytes (by omega)]
  dsimp only
  rw [readBytes_writeBytes (by omega)]
  dsimp only
  rw [readBytes_writeBytes (by omega)]
  dsimp only
  rw [readU64_write64,hlast,Int64.toInt64_toUInt64]

end CrlEntry

namespace Crl

/-- Every length and the count fit in the 32 bits they are written in. -/
structure Fits (crl : Crl) : Prop where
  count : crl.entries.length < 2^32
  entry : ∀ e ∈ crl.entries, e.Fits

lemma readEntries_append (h : ∀ e ∈ es, e.Fits) (n : ℕ) (rest : Bytes) :
    readEntries (es.length+n) ((es.flatMap fun e => writeBytes e.serialize) ++ rest) =
      es ++ readEntries n rest := by
  induction es with
  | nil => simp
  | cons e es ih =>
    have he : e.Fits := h e (mem_cons_self ..)
    have hlen : (UInt32.ofNat e.serialize.length).toNat = e.serialize.length :=
      UInt32.toNat_ofNat_of_lt' he
    have hes := ih fun e' he' => h e' (mem_cons_of_mem _ he')
    rw [length_cons,Nat.add_right_comm]
    simp only [flatMap_cons,writeBytes,append_assoc,readEntries,readU32_write32,hlen] at hes ⊢
    rw [if_neg (by simp),take_left,drop_left,CrlEntry.deserialize_serialize he]
    dsimp only
    rw [hes,cons_append]

lemma deserialize_write32 (n : UInt32) (data : Bytes) :
    deserialize (write32 n ++ data) = .ok { entries := readEntries n.toNat data } := by
  rw [deserialize,readU32_write32]

lemma deserialize_serialize (h : crl.Fits) : deserialize crl.serialize = .ok crl := by
  have hread := readEntries_append h.entry 0 []
  rw [append_nil,Nat.add_zero,readEntries,append_nil] at hread
  rw [serialize,deserialize_write32,UInt32.toNat_ofNat_of_lt' h.count,hread]

lemma entries_le_flatMap (es : List CrlEntry) :
    es.length ≤ (es.flatMap fun e => writeBytes e.serialize).length ∧
      ∀ e ∈ es, e.serialize.length ≤ (es.flatMap fun e => writeBytes e.serialize).length := by
  induction es with
  | nil => simp
  | cons e es ih =>
    simp only [flatMap_cons,length_append,writeBytes,length_write32,length_cons,
      forall_mem_cons] at ih ⊢
    refine ⟨by omega,by omega,fun e' he' => ?_⟩
    have hle := ih.2 e' he'
    omega

/-- A list whose bytes can be counted in 32 bits fits. -/
lemma fits_of_length {crl : Crl} (h : crl.serialize.length < 2^32) : crl.Fits := by
  obtain ⟨hcount,hentry⟩ := entries_le_flatMap crl.entries
  rw [serialize,length_append] at h
  refine ⟨by omega,fun e he => ?_⟩
  have hle := hentry e he
  unfold CrlEntry.Fits
  omega

/-! What a cut list becomes. -/

/-- Cut inside an entry, the list comes back without it and without all that follow. -/
theorem deserialize_cut_inside (h : Fits ⟨es ++ e::missing⟩) (hn : n < e.serialize.length) :
    deserialize (write32 (UInt32.ofNat (es ++ e::missing).length) ++
      ((es.flatMap fun e => writeBytes e.serialize) ++
        (write32 (UInt32.ofNat e.serialize.length) ++ e.serialize.take n))) = .ok ⟨es⟩ := by
  have he : e.Fits := h.entry e (mem_append_right _ (mem_cons_self ..))
  have hlen : (UInt32.ofNat e.serialize.length).toNat = e.serialize.length :=
    UInt32.toNat_ofNat_of_lt' he
  have hstop : readEntries (missing.length+1)
      (write32 (UInt32.ofNat e.serialize.length) ++ e.serialize.take n) = [] := by
    rw [readEntries,readU32_write32]
    dsimp only
    rw [hlen,if_pos]
    rw [length_take]
    omega
  have hread := readEntries_append (fun e he => h.entry e (mem_append_left _ he))
    (missing.length+1) (write32 (UInt32.ofNat e.serialize.length) ++ e.serialize.take n)
  rw [hstop,append_nil] at hread
  rw [deserialize_write32,UInt32.toNat_ofNat_of_lt' h.count,length_append,length_cons,hread]

theorem deserialize_cut_inside_second : let entry (fp : UInt8) : CrlEntry := { certFingerprint := [fp] }
    deserialize (write32 3 ++ (writeBytes (entry 97).serialize ++
      (write32 29 ++ (entry 98).serialize.take 7))) = .ok ⟨[entry 97]⟩ :=
  @deserialize_cut_inside [{ certFingerprint := [97] }] { certFingerprint := [98] }
    [{ certFingerprint := [99] }] 7 ⟨by decide,by decide⟩ (by decide)

/-- Every list with an entry has a strict part that is read as another list without an error. -/
theorem cut_is_noticed_iff (crl : Crl) : (∀ part, part <+: crl.serialize → part ≠ crl.serialize →
      ∀ crl', deserialize part = .ok crl' → crl' = crl) ↔ crl.entries = [] := by
  have hhead : 4 ≤ crl.serialize.length := by simp [serialize]
  constructor
  · intro h
    -- the empty part is read as the empty list
    have hnil := h [] nil_prefix (by intro heq; simp [← heq] at hhead) {} rfl
    rw [← hnil]
  · rintro hnil part ⟨tail,hpart⟩ - crl' hread
    have hbytes : crl.serialize = [0,0,0,0] := by
      rw [serialize,hnil]
      rfl
    obtain ⟨k,hk⟩ : ∃ k ≤ 4, part = [0,0,0,0].take k := by
      refine ⟨part.length,?_,?_⟩
      · have := congrArg length (hpart.trans hbytes)
        simp at this
        omega
      · rw [← hbytes,← hpart,take_left]
    have hempty : deserialize part = .ok {} := by
      rw [hk.2]
      obtain ⟨hle,-⟩ := hk
      interval_cases k <;> rfl
    cases hempty.symm.trans hread
    exact congrArg Crl.mk hnil.symm

theorem cut_is_not_noticed : ∃ (crl : Crl) (part : Bytes), crl.entries ≠ [] ∧
    part <+: crl.serialize ∧ part ≠ crl.serialize ∧ deserialize part = .ok {} :=
  ⟨⟨[{ certFingerprint := [97,98], nodeIdHex := [49], reason := [120], epoch := 3, revokedAt := 7 }]⟩,
    [0,0,0,1,0,0,0,32,0,0,0,2,97,98],by decide,by decide,by decide,by decide⟩

/-! The list as a log with one record for every certificate. -/

abbrev Distinct (crl : Crl) : Prop := KeyedLog.Distinct CrlEntry.certFingerprint crl.entries

def fingerprints (crl : Crl) : Set Bytes := KeyedLog.keys CrlEntry.certFingerprint crl.entries

lemma isRevoked_iff (certFingerprint : Bytes) (crl : Crl) :
    crl.isRevoked certFingerprint = .ok true ↔ certFingerprint ∈ crl.fingerprints := by
  simp [isRevoked,fingerprints]

lemma isRevoked_congr {crl crl' : Crl} (h : crl.fingerprints = crl'.fingerprints) (fp : Bytes) :
    crl.isRevoked fp = crl'.isRevoked fp := by
  have hiff : crl.isRevoked fp = .ok true ↔ crl'.isRevoked fp = .ok true := by
    rw [isRevoked_iff,isRevoked_iff,h]
  simp only [isRevoked,Except.ok.injEq] at hiff ⊢
  exact Bool.eq_iff_iff.mpr hiff

variable (certFingerprint nodeIdHex reason : Bytes) (epoch : UInt64) (now : Int64)

lemma revoke_entries (crl : Crl) : (crl.revoke certFingerprint nodeIdHex reason epoch now).2.entries =
      KeyedLog.insertNew CrlEntry.certFingerprint crl.entries
        { certFingerprint, nodeIdHex, reason, epoch, revokedAt := now } := by
  simp only [revoke,KeyedLog.insertNew,any_eq_true,beq_iff_eq,mem_map]
  split_ifs <;> rfl

lemma revoke_extends (crl : Crl) :
    crl.entries <+: (crl.revoke certFingerprint nodeIdHex reason epoch now).2.entries := by
  rw [revoke_entries]
  exact KeyedLog.insertNew_extends _ _

lemma distinct_revoke {crl : Crl} (h : crl.Distinct) (certFingerprint nodeIdHex reason : Bytes)
    (epoch : UInt64) (now : Int64) :
    (crl.revoke certFingerprint nodeIdHex reason epoch now).2.Distinct := by
  rw [Distinct,revoke_entries]
  exact h.insertNew _

end Crl
end SmoFramework.Recovery
