import SmoFramework.Cbor.ContextValue
import SmoFramework.Library.Cursor

/-! The CBOR helpers of the join token (`core/enroll/join_token`, namespace `cbor`). The writer is
that of `core/bootstrap`, but the reader reports no errors: it returns nothing, and the position
stays behind the bytes looked at. Only a length that no string can have leaves a reader, as a
`std::length_error`. -/
namespace SmoFramework.Enroll
open Library Library.BigEndian Library.Cursor
open Cbor (Failure sizeAdd kMaxString HeadAt encodeHead)

abbrev Decode (α : Type) := Cursor Failure α

/-! Writing. -/

def encodeUint (val : UInt64) : Bytes := encodeHead 0 val

def encodeText (s : Bytes) : Bytes := encodeHead 3 (UInt64.ofNat s.length) ++ s

def encodeBytes (data : Bytes) : Bytes := encodeHead 2 (UInt64.ofNat data.length) ++ data

def encodeArray (n : ℕ) : Bytes := encodeHead 4 (UInt64.ofNat n)

def encodeMap (n : ℕ) : Bytes := encodeHead 5 (UInt64.ofNat n)

/-! Reading. -/

section
variable (data : Bytes)

/-- `read_int`: the additional information 28 to 31 stands for 16 to 128 bytes. -/
def readInt (ib : UInt8) : Decode UInt64 := do
  let extra := ib &&& 0x1F
  if extra ≤ 23 then pure extra.toUInt64
  else
    let off ← get
    let nbytes := 2^(extra.toNat-24)
    if sizeAdd off nbytes > data.length then pure 0
    else
      set (off+nbytes)
      pure (read64 (bytesAt data off nbytes))

/-- What the readers have in common: the first byte, its major type and the number in the head. -/
def decodeItem {α : Type} (major : UInt8) (nothing : α) (value : UInt64 → Decode α) : Decode α := do
  let off ← get
  if off ≥ data.length then pure nothing
  else
    let ib := data.getD off 0
    set (off+1)
    if ib >>> 5 ≠ major then pure nothing
    else
      let val ← readInt data ib
      value val

/-- The bytes of a string; the copy throws on a length whose sum with the position has wrapped. -/
def takeBytes (len : UInt64) : Decode Bytes := do
  let off ← get
  if sizeAdd off len.toNat > data.length then pure []
  else if len.toNat > kMaxString then throw .lengthError
  else
    set (off+len.toNat)
    pure ((data.drop off).take len.toNat)

def decodeUint : Decode UInt64 := decodeItem data 0 0 pure

def decodeText : Decode Bytes := decodeItem data 3 [] (takeBytes data)

def decodeBytes : Decode Bytes := decodeItem data 2 [] (takeBytes data)

def decodeArray : Decode ℕ := decodeItem data 4 0 fun n => pure n.toNat

def decodeMap : Decode ℕ := decodeItem data 5 0 fun n => pure n.toNat

def peekMajor : Decode UInt8 := do
  let off ← get
  pure (data.getD off 0 >>> 5)

end

/-! Reading what was written. -/

lemma encodeHead_ne_nil (major : UInt8) (val : UInt64) : encodeHead major val ≠ [] := by
  unfold encodeHead
  split_ifs <;> simp

variable {data : Bytes} {α : Type}

lemma decodes_peekMajor {f : UInt8 → Decode α} (hm : major.toNat < 8)
    {a : α}
    (h : Decodes data (f major) (encodeHead major val ++ word) a) :
    Decodes data (peekMajor data >>= f) (encodeHead major val ++ word) a := by
  intro p hp
  obtain ⟨pre,rest,hdata,rfl⟩ := hp.left
  have hhead := Cbor.headAt_encodeHead pre rest hm val
  rw [← hdata] at hhead
  obtain ⟨ib,hib,hmajor,-⟩ := hhead
  have htype : data.getD pre.length 0 >>> 5 = major := by
    rw [List.getD_eq_getElem?_getD,hib]
    exact UInt8.toNat_inj.mp ((Cbor.toNat_shiftRight5 ib).trans hmajor.symm)
  change (f (data.getD pre.length 0 >>> 5)).run pre.length = _
  rw [htype]
  exact h _ hp

section
variable (hsmall : data.length < 2^63)
include hsmall

lemma run_readInt (h : HeadAt data p major val.toNat q)
    (hib : data[p]? = some ib) : (readInt data ib).run (p+1) = .ok (val,q) := by
  obtain ⟨ib',hib',-,hval⟩ := h
  cases hib.symm.trans hib'
  have hai := Cbor.toNat_and1F ib
  unfold readInt
  rcases hval with ⟨hlow,hv,rfl⟩ | ⟨hge,hlt28,rfl,hq,hv⟩
  · have hle : ib &&& 0x1F ≤ 23 := by
      rw [UInt8.le_iff_toNat_le]
      change _ ≤ 23
      omega
    have hv' : (ib &&& 0x1F).toUInt64 = val := by
      apply UInt64.toNat_inj.mp
      rw [UInt8.toNat_toUInt64,hai,hv]
    rw [if_pos hle,hv']
    rfl
  · have hgt : ¬ ib &&& 0x1F ≤ 23 := by
      rw [UInt8.le_iff_toNat_le]
      change ¬ _ ≤ 23
      omega
    have hpow : 2^(ib.toNat % 32-24) ≤ 8 :=
      Nat.pow_le_pow_right (by decide) (by omega : ib.toNat % 32-24 ≤ 3)
    have hadd : sizeAdd (p+1) (2^(ib.toNat % 32-24)) = p+1+2^(ib.toNat % 32-24) :=
      Nat.mod_eq_of_lt (by omega)
    have hread : read64 (bytesAt data (p+1) (2^(ib.toNat % 32-24))) = val := by
      apply UInt64.toNat_inj.mp
      rw [read64,toNat_foldl_shiftIn64_zero _ (by rw [length_bytesAt]; exact hpow),
        bytesAt_eq_take_drop (by omega),hv]
    rw [if_neg hgt,hai]
    change (if sizeAdd (p+1) (2^(ib.toNat % 32-24)) > data.length then
        (pure 0 : Decode UInt64) else do
      set (p+1+2^(ib.toNat % 32-24))
      pure (read64 (bytesAt data (p+1) (2^(ib.toNat % 32-24))))).run (p+1) = _
    rw [if_neg (by omega),hread]
    rfl

lemma run_decodeItem {nothing : α} {value : UInt64 → Decode α}
    (h : HeadAt data p major.toNat val.toNat q) :
    (decodeItem data major nothing value).run p = (value val).run q := by
  have hlt := h.lt
  have hfirst := h
  obtain ⟨ib,hib,hmajor,-⟩ := hfirst
  have hget : data.getD p 0 = ib := by
    rw [List.getD_eq_getElem?_getD,hib]
    rfl
  have htype : ib >>> 5 = major := UInt8.toNat_inj.mp ((Cbor.toNat_shiftRight5 ib).trans hmajor.symm)
  change (if p ≥ data.length then (pure nothing : Decode α) else do
    set (p+1)
    if data.getD p 0 >>> 5 ≠ major then pure nothing
    else do
      let val ← readInt data (data.getD p 0)
      value val).run p = _
  rw [if_neg (by omega),hget,htype,if_neg (not_not.mpr rfl)]
  change (readInt data ib >>= value).run (p+1) = _
  rw [StateT.run_bind,run_readInt hsmall h hib]
  rfl

lemma decodes_item (hm : major.toNat < 8) {nothing a : α}
    {value : UInt64 → Decode α} (h : Decodes data (value val) word a) :
    Decodes data (decodeItem data major nothing value) (encodeHead major val ++ word) a := by
  intro p hp
  have hright := hp.right
  obtain ⟨pre,rest,hdata,rfl⟩ := hp.left
  have hhead := Cbor.headAt_encodeHead pre rest hm val
  rw [← hdata] at hhead
  rw [run_decodeItem hsmall hhead,h _ hright,List.length_append,Nat.add_assoc]

lemma decodes_uint (val : UInt64) : Decodes data (decodeUint data) (encodeUint val) val := by
  have h : Decodes data (decodeUint data) (encodeHead 0 val ++ []) val :=
    decodes_item hsmall (by decide) (.pure val)
  rwa [List.append_nil] at h

lemma toNat_count (h : Holds data p word) (hn : n ≤ word.length) :
    (UInt64.ofNat n).toNat = n := by
  have hle := h.le
  exact UInt64.toNat_ofNat_of_lt' (lt_of_lt_of_le (by omega : n < 2^63) (by decide))

lemma decodes_takeBytes (field : Bytes) :
    Decodes data (takeBytes data (UInt64.ofNat field.length)) field field := by
  refine .look fun p hp => ?_
  have hle := hp.le
  have hlen := toNat_count hsmall hp le_rfl
  have hadd : sizeAdd p field.length = p+field.length := Nat.mod_eq_of_lt (by omega)
  have hmax : ¬ field.length > kMaxString := by
    unfold kMaxString
    omega
  rw [hlen,if_neg (by omega),if_neg hmax,hp.take]
  rfl

lemma decodes_array {n : ℕ} (h : n < 2^64) : Decodes data (decodeArray data) (encodeArray n) n := by
  have hitem : Decodes data (decodeArray data) (encodeHead 4 (UInt64.ofNat n) ++ []) _ :=
    decodes_item hsmall (by decide) (.pure _)
  rwa [List.append_nil,UInt64.toNat_ofNat_of_lt' h] at hitem

lemma decodes_map {n : ℕ} (h : n < 2^64) : Decodes data (decodeMap data) (encodeMap n) n := by
  have hitem : Decodes data (decodeMap data) (encodeHead 5 (UInt64.ofNat n) ++ []) _ :=
    decodes_item hsmall (by decide) (.pure _)
  rwa [List.append_nil,UInt64.toNat_ofNat_of_lt' h] at hitem

lemma decodes_text (s : Bytes) : Decodes data (decodeText data) (encodeText s) s :=
  decodes_item hsmall (by decide) (decodes_takeBytes hsmall s)

lemma decodes_bytes (b : Bytes) : Decodes data (decodeBytes data) (encodeBytes b) b :=
  decodes_item hsmall (by decide) (decodes_takeBytes hsmall b)

end
end SmoFramework.Enroll
