import SmoFramework.Errors
import SmoFramework.Library.BigEndian

/-! The CBOR encoder and decoder (`core/bootstrap/cbor`). Positions and lengths are natural
numbers and every `size_t` addition that the code does not bound is taken modulo `2^64`. -/
namespace SmoFramework.Cbor
open SmoFramework.Library.BigEndian

/-- A view of bytes in memory; no object is larger than `PTRDIFF_MAX`. -/
structure BytesView where
  bytes : Bytes
  small : bytes.length < 2^63

def BytesView.size (data : BytesView) : ℕ := data.bytes.length

structure Decoder where
  data : BytesView
  pos : ℕ := 0

structure View where
  off : ℕ
  len : ℕ
  deriving DecidableEq, Repr

inductive Failure
  | error (e : Error)
  | lengthError
  deriving DecidableEq, Repr

abbrev Outcome (α : Type) := Except Failure α

def cborErr (code : ℕ) (message : String) : Failure :=
  .error (smoErrProtocol code .error .noRetry .none message)

def sizeAdd (a b : ℕ) : ℕ := (a+b) % 2^64

/-- `std::string::max_size()`. -/
def kMaxString : ℕ := 2^63-1

/-! The encoder. -/

def encodeHead (major : UInt8) (val : UInt64) : Bytes :=
  if val ≤ 23 then [(major <<< 5) ||| val.toUInt8]
  else if val ≤ 0xFF then [(major <<< 5) ||| 24,val.toUInt8]
  else if val ≤ 0xFFFF then ((major <<< 5) ||| 25)::(write64 val).drop 6
  else if val ≤ 0xFFFFFFFF then ((major <<< 5) ||| 26)::(write64 val).drop 4
  else ((major <<< 5) ||| 27)::write64 val

def encodeUint (val : UInt64) : Bytes := encodeHead 0 val

def encodeInt (val : Int64) : Bytes :=
  if val ≥ 0 then encodeUint val.toUInt64 else encodeHead 1 (-1-val).toUInt64

def encodeBytes (data : Bytes) : Bytes := encodeHead 2 (UInt64.ofNat data.length) ++ data

def encodeString (s : Bytes) : Bytes := encodeHead 3 (UInt64.ofNat s.length) ++ s

def encodeArray (count : ℕ) : Bytes := encodeHead 4 (UInt64.ofNat count)

def encodeMap (count : ℕ) : Bytes := encodeHead 5 (UInt64.ofNat count)

/-! The decoder. -/

namespace Decoder

variable (d : Decoder)

def done : Bool := d.pos ≥ d.data.size

def headExtra (ai : UInt8) : Option ℕ :=
  if ai = 24 then some 1 else if ai = 25 then some 2 else if ai = 26 then some 4
  else if ai = 27 then some 8 else none

/-- Major type and value, with the position left behind also after an error. -/
def decodeHead : Outcome (UInt8 × UInt64) × Decoder :=
  if d.pos ≥ d.data.size then (.error (cborErr 700 "CBOR: unexpected end of data"),d)
  else
    let ib := d.data.bytes.getD d.pos 0
    let d := { d with pos := d.pos+1 }
    let ai := ib &&& 0x1F
    if ai ≤ 23 then (.ok (ib >>> 5,ai.toUInt64),d)
    else match headExtra ai with
      | none => (.error (cborErr 701 "CBOR: reserved additional info"),d)
      | some extra =>
        if sizeAdd d.pos extra > d.data.size then
          (.error (cborErr 700 "CBOR: truncated additional info"),d)
        else (.ok (ib >>> 5,read64 (bytesAt d.data.bytes d.pos extra)),{ d with pos := d.pos+extra })

def peekMajor : UInt8 :=
  if d.pos ≥ d.data.size then 0xFF else d.data.bytes.getD d.pos 0 >>> 5

def decodeHeadOf (major : UInt8) (code : ℕ) (message : String) (d : Decoder) :
    Outcome UInt64 × Decoder :=
  match d.decodeHead with
  | (.error e,d) => (.error e,d)
  | (.ok (m,val),d) => if m ≠ major then (.error (cborErr code message),d) else (.ok val,d)

def decodeUint : Decoder → Outcome UInt64 × Decoder :=
  decodeHeadOf 0 702 "CBOR: expected unsigned integer"

def decodeInt : Outcome Int64 × Decoder :=
  match d.decodeHead with
  | (.error e,d) => (.error e,d)
  | (.ok (m,val),d) =>
    if m = 0 then (.ok val.toInt64,d)
    else if m = 1 then (.ok (-1-val.toInt64),d)
    else (.error (cborErr 703 "CBOR: expected integer"),d)

def decodeBytes : Outcome View × Decoder :=
  match decodeHeadOf 2 704 "CBOR: expected byte string" d with
  | (.error e,d) => (.error e,d)
  | (.ok len,d) =>
    if sizeAdd d.pos len.toNat > d.data.size then
      (.error (cborErr 700 "CBOR: truncated byte string"),d)
    else (.ok ⟨d.pos,len.toNat⟩,{ d with pos := sizeAdd d.pos len.toNat })

/-- The copy into a `std::string` is made before the position moves, and throws on a length no
string can have. -/
def decodeString : Outcome Bytes × Decoder :=
  match decodeHeadOf 3 705 "CBOR: expected text string" d with
  | (.error e,d) => (.error e,d)
  | (.ok len,d) =>
    if sizeAdd d.pos len.toNat > d.data.size then
      (.error (cborErr 700 "CBOR: truncated text string"),d)
    else if len.toNat > kMaxString then (.error .lengthError,d)
    else (.ok ((d.data.bytes.drop d.pos).take len.toNat),
      { d with pos := sizeAdd d.pos len.toNat })

def decodeArraySize : Decoder → Outcome UInt64 × Decoder :=
  decodeHeadOf 4 706 "CBOR: expected array"

def decodeMapSize : Decoder → Outcome UInt64 × Decoder :=
  decodeHeadOf 5 707 "CBOR: expected map"

def skipN (skip : Decoder → Option (Outcome Unit × Decoder)) :
    ℕ → Decoder → Option (Outcome Unit × Decoder)
  | 0, d => some (.ok (),d)
  | count+1, d => match skip d with
    | none => none
    | some (.error e,d) => some (.error e,d)
    | some (.ok (),d) => skipN skip count d

/-- The fuel bounds the nesting of calls. The result of a head is dropped; the number of items in a
map is a `size_t` product. -/
def skip : ℕ → Decoder → Option (Outcome Unit × Decoder)
  | 0, _ => none
  | fuel+1, d =>
    if d.pos ≥ d.data.size then some (.error (cborErr 700 "CBOR: unexpected end during skip"),d)
    else
      let major := d.data.bytes.getD d.pos 0 >>> 5
      if major = 0 ∨ major = 1 then some (.ok (),d.decodeHead.2)
      else if major = 2 then match d.decodeBytes with
        | (.error e,d) => some (.error e,d)
        | (.ok _,d) => some (.ok (),d)
      else if major = 3 then match d.decodeString with
        | (.error e,d) => some (.error e,d)
        | (.ok _,d) => some (.ok (),d)
      else if major = 4 then match d.decodeArraySize with
        | (.error e,d) => some (.error e,d)
        | (.ok size,d) => skipN (skip fuel) size.toNat d
      else if major = 5 then match d.decodeMapSize with
        | (.error e,d) => some (.error e,d)
        | (.ok size,d) => skipN (skip fuel) (size*2).toNat d
      else if major = 7 then some (.ok (),d.decodeHead.2)
      else some (.error (cborErr 708 ("CBOR: cannot skip major type " ++ toString major.toNat)),d)

end Decoder

/-! Heads as the format defines them: a byte with the major type in its upper three bits, and a
value that is either in its lower five bits or in the 1, 2, 4 or 8 bytes after it. -/

def HeadAt (data : Bytes) (p major val q : ℕ) : Prop :=
  ∃ ib, data[p]? = some ib ∧ major = ib.toNat/32 ∧
    (ib.toNat % 32 < 24 ∧ val = ib.toNat % 32 ∧ q = p+1 ∨
      24 ≤ ib.toNat % 32 ∧ ib.toNat % 32 < 28 ∧ q = p+1+2^(ib.toNat % 32-24) ∧ q ≤ data.length ∧
        val = ofBE ((data.drop (p+1)).take (2^(ib.toNat % 32-24))))

lemma HeadAt.lt (h : HeadAt data p major val q) :
    p < q ∧ q ≤ data.length := by
  obtain ⟨ib,hib,-,h⟩ := h
  have hp := (List.getElem?_eq_some_iff.mp hib).1
  rcases h with ⟨-,-,rfl⟩ | ⟨-,-,rfl,hq,-⟩
  · omega
  · have := Nat.pow_pos (a := 2) (n := ib.toNat % 32-24) (by decide)
    omega

lemma HeadAt.unique (h : HeadAt data p major val q) (h' : HeadAt data p major' val' q') :
    major = major' ∧ val = val' ∧ q = q' := by
  obtain ⟨ib,hib,rfl,h⟩ := h
  obtain ⟨ib',hib',rfl,h'⟩ := h'
  obtain rfl : ib = ib' := Option.some.inj (hib.symm.trans hib')
  rcases h with ⟨h1,rfl,rfl⟩ | ⟨h1,h2,rfl,-,rfl⟩ <;>
    rcases h' with ⟨h1',rfl,rfl⟩ | ⟨h1',h2',rfl,-,rfl⟩ <;> omega

lemma toNat_shiftRight5 (ib : UInt8) : (ib >>> 5).toNat = ib.toNat/32 := by
  change ib.toNat >>> (5 % 8) = _
  rw [Nat.shiftRight_eq_div_pow]

lemma toNat_and1F (ib : UInt8) : (ib &&& 0x1F).toNat = ib.toNat % 32 := by
  exact Nat.and_two_pow_sub_one_eq_mod _ 5

lemma headExtra_eq (ai : UInt8) (h : 24 ≤ ai.toNat) :
    Decoder.headExtra ai = if ai.toNat < 28 then some (2^(ai.toNat-24)) else none := by
  have hcases : ai.toNat = 24 ∨ ai.toNat = 25 ∨ ai.toNat = 26 ∨ ai.toNat = 27 ∨ 28 ≤ ai.toNat := by
    omega
  rcases hcases with h | h | h | h | h
  · obtain rfl : ai = 24 := UInt8.toNat_inj.mp h
    rfl
  · obtain rfl : ai = 25 := UInt8.toNat_inj.mp h
    rfl
  · obtain rfl : ai = 26 := UInt8.toNat_inj.mp h
    rfl
  · obtain rfl : ai = 27 := UInt8.toNat_inj.mp h
    rfl
  · have hne : ∀ b : UInt8, b.toNat < 28 → ai ≠ b := by
      rintro b hb rfl
      omega
    unfold Decoder.headExtra
    rw [if_neg (hne 24 (by decide)),if_neg (hne 25 (by decide)),if_neg (hne 26 (by decide)),
      if_neg (hne 27 (by decide)),if_neg (by omega)]

lemma not_headAt (hib : data[p]? = some ib)
    (h : 28 ≤ ib.toNat % 32 ∨
      24 ≤ ib.toNat % 32 ∧ data.length < p+1+2^(ib.toNat % 32-24)) (major val q : ℕ) :
    ¬HeadAt data p major val q := by
  rintro ⟨ib',hib',-,h'⟩
  obtain rfl : ib = ib' := Option.some.inj (hib.symm.trans hib')
  rcases h' with ⟨h1,-⟩ | ⟨-,h2,rfl,hq,-⟩ <;> omega

namespace Decoder

variable (d : Decoder)

/-- What `decode_head` does: it reads a head, or fails and has moved by at most one byte. -/
theorem decodeHead_cases :
    (∃ m val q, d.decodeHead = (.ok (m,val),{ d with pos := q }) ∧
      HeadAt d.data.bytes d.pos m.toNat val.toNat q) ∨
    (∃ e q, d.decodeHead = (.error e,{ d with pos := q }) ∧
      (∀ major val r, ¬HeadAt d.data.bytes d.pos major val r) ∧
      (q = d.pos ∧ d.data.size ≤ d.pos ∨ q = d.pos+1 ∧ d.pos < d.data.size)) := by
  have hsmall := d.data.small
  unfold decodeHead
  by_cases hend : d.pos ≥ d.data.size
  · rw [if_pos hend]
    refine Or.inr ⟨_,d.pos,rfl,fun major val r h => ?_,Or.inl ⟨rfl,hend⟩⟩
    have := h.lt
    unfold BytesView.size at hend
    omega
  rw [if_neg hend]
  have hlt : d.pos < d.data.bytes.length := Nat.lt_of_not_le hend
  obtain ⟨ib,hib⟩ : ∃ ib, d.data.bytes[d.pos]? = some ib := ⟨_,List.getElem?_eq_getElem hlt⟩
  have hget : d.data.bytes.getD d.pos 0 = ib := by rw [List.getD_eq_getElem?_getD,hib]; rfl
  have hai := toNat_and1F ib
  rw [hget]
  by_cases hsmallai : ib &&& 0x1F ≤ 23
  · rw [if_pos hsmallai]
    have hle : ib.toNat % 32 ≤ 23 := hai ▸ UInt8.le_iff_toNat_le.mp hsmallai
    refine Or.inl ⟨_,_,_,rfl,ib,hib,toNat_shiftRight5 ib,Or.inl ⟨by omega,?_,rfl⟩⟩
    rw [UInt8.toNat_toUInt64,hai]
  rw [if_neg hsmallai]
  have hge : 24 ≤ ib.toNat % 32 := by
    by_contra hlt'
    apply hsmallai
    rw [UInt8.le_iff_toNat_le,hai]
    change ib.toNat % 32 ≤ 23
    omega
  rw [headExtra_eq _ (hai.symm ▸ hge),hai]
  by_cases hres : ib.toNat % 32 < 28
  · rw [if_pos hres]
    have hpow : 2^(ib.toNat % 32-24) ≤ 8 :=
      Nat.pow_le_pow_right (by decide) (by omega : ib.toNat % 32-24 ≤ 3)
    have hadd : sizeAdd (d.pos+1) (2^(ib.toNat % 32-24)) = d.pos+1+2^(ib.toNat % 32-24) :=
      Nat.mod_eq_of_lt (by omega)
    dsimp only
    rw [hadd]
    by_cases htrunc : d.pos+1+2^(ib.toNat % 32-24) > d.data.size
    · rw [if_pos htrunc]
      exact Or.inr ⟨_,_,rfl,not_headAt hib (Or.inr ⟨hge,htrunc⟩),Or.inr ⟨rfl,hlt⟩⟩
    · rw [if_neg htrunc]
      unfold BytesView.size at htrunc
      refine Or.inl ⟨_,_,_,rfl,ib,hib,toNat_shiftRight5 ib,Or.inr ⟨hge,hres,rfl,by omega,?_⟩⟩
      rw [read64,toNat_foldl_shiftIn64_zero _ (by rw [length_bytesAt]; exact hpow),
        bytesAt_eq_take_drop (by omega)]
  · rw [if_neg hres]
    exact Or.inr ⟨_,_,rfl,not_headAt hib (Or.inl (not_lt.mp hres)),Or.inr ⟨rfl,hlt⟩⟩

def Moves (q : ℕ) : Prop := d.pos ≤ q ∧ (d.pos ≤ d.data.size → q ≤ d.data.size)

lemma Moves.of_headAt {d : Decoder} (h : HeadAt d.data.bytes d.pos major val q) : d.Moves q :=
  ⟨h.lt.1.le,fun _ => h.lt.2⟩

lemma Moves.of_failed_head {d : Decoder}
    (h : q = d.pos ∧ d.data.size ≤ d.pos ∨ q = d.pos+1 ∧ d.pos < d.data.size) : d.Moves q := by
  rcases h with ⟨rfl,-⟩ | ⟨rfl,hlt⟩
  · exact ⟨le_rfl,id⟩
  · exact ⟨Nat.le_succ _,fun _ => hlt⟩

lemma decodeHead_moves : ∃ q, d.decodeHead.2 = { d with pos := q } ∧ d.Moves q := by
  rcases d.decodeHead_cases with ⟨m,val,q,hd,hq⟩ | ⟨e,q,hd,-,hq⟩
  · exact ⟨q,by rw [hd],.of_headAt hq⟩
  · exact ⟨q,by rw [hd],.of_failed_head hq⟩

lemma decodeHeadOf_cases (major : UInt8) (code : ℕ) (message : String) (d : Decoder) :
    (∃ val q, decodeHeadOf major code message d = (.ok val,{ d with pos := q }) ∧
      HeadAt d.data.bytes d.pos major.toNat val.toNat q) ∨
    (∃ e q, decodeHeadOf major code message d = (.error e,{ d with pos := q }) ∧
      (∀ val r, ¬HeadAt d.data.bytes d.pos major.toNat val r) ∧ d.Moves q) := by
  unfold decodeHeadOf
  rcases d.decodeHead_cases with ⟨m,val,q,hd,hq⟩ | ⟨e,q,hd,hno,hq⟩
  · rw [hd]
    by_cases hm : m = major
    · subst hm
      exact Or.inl ⟨val,q,if_neg (not_not.mpr rfl),hq⟩
    · refine Or.inr ⟨_,q,if_pos hm,fun val' r h => hm ?_,.of_headAt hq⟩
      exact UInt8.toNat_inj.mp (hq.unique h).1
  · rw [hd]
    exact Or.inr ⟨e,q,rfl,fun val r => hno _ _ _,.of_failed_head hq⟩

lemma sizeAdd_cases (hq : q ≤ size) (hsize : size < 2^63) (hn : n < 2^64) :
    (q+n ≤ size ∧ sizeAdd q n = q+n) ∨ (2^64 ≤ q+n ∧ sizeAdd q n = q+n-2^64 ∧ q+n-2^64 < q) ∨
      (size < q+n ∧ q+n < 2^64 ∧ sizeAdd q n = q+n) := by
  unfold sizeAdd
  omega

theorem decodeBytes_cases :
    (∃ n q, HeadAt d.data.bytes d.pos 2 n q ∧ q+n ≤ d.data.size ∧
      d.decodeBytes = (.ok ⟨q,n⟩,{ d with pos := q+n })) ∨
    (∃ n q, HeadAt d.data.bytes d.pos 2 n q ∧ 2^64 ≤ q+n ∧
      d.decodeBytes = (.ok ⟨q,n⟩,{ d with pos := q+n-2^64 })) ∨
    (∃ e q, d.decodeBytes = (.error e,{ d with pos := q }) ∧ d.Moves q ∧
      ∀ n r, HeadAt d.data.bytes d.pos 2 n r → d.data.size < r+n ∧ r+n < 2^64) := by
  have hsmall : d.data.size < 2^63 := d.data.small
  unfold decodeBytes
  rcases decodeHeadOf_cases 2 704 "CBOR: expected byte string" d with
    ⟨val,q,hd,hq⟩ | ⟨e,q,hd,hno,hq⟩
  · rw [hd]
    dsimp only
    have hsize : q ≤ d.data.size := hq.lt.2
    rcases sizeAdd_cases hsize hsmall val.toNat_lt with
      ⟨hle,hadd⟩ | ⟨hwrap,hadd,hlt⟩ | ⟨hgt,hlt,hadd⟩
    · rw [hadd,if_neg (not_lt.mpr hle)]
      exact Or.inl ⟨_,q,hq,hle,rfl⟩
    · rw [hadd,if_neg (by omega)]
      exact Or.inr (Or.inl ⟨_,q,hq,hwrap,rfl⟩)
    · rw [hadd,if_pos hgt]
      refine Or.inr (Or.inr ⟨_,q,rfl,.of_headAt hq,fun n r h => ?_⟩)
      obtain ⟨-,rfl,rfl⟩ := hq.unique h
      exact ⟨hgt,hlt⟩
  · rw [hd]
    exact Or.inr (Or.inr ⟨e,q,rfl,hq,fun n r h => absurd h (hno n r)⟩)

theorem decodeString_cases :
    (∃ n q, HeadAt d.data.bytes d.pos 3 n q ∧ q+n ≤ d.data.size ∧
      d.decodeString = (.ok ((d.data.bytes.drop q).take n),{ d with pos := q+n })) ∨
    (∃ e q, d.decodeString = (.error e,{ d with pos := q }) ∧ d.Moves q ∧
      ∀ n r, HeadAt d.data.bytes d.pos 3 n r → d.data.size < r+n) := by
  have hsmall : d.data.size < 2^63 := d.data.small
  unfold decodeString
  rcases decodeHeadOf_cases 3 705 "CBOR: expected text string" d with
    ⟨val,q,hd,hq⟩ | ⟨e,q,hd,hno,hq⟩
  · rw [hd]
    dsimp only
    have hsize : q ≤ d.data.size := hq.lt.2
    have hfail : d.data.size < q+val.toNat →
        ∀ n r, HeadAt d.data.bytes d.pos 3 n r → d.data.size < r+n := by
      intro hgt n r h
      obtain ⟨-,rfl,rfl⟩ := hq.unique h
      exact hgt
    rcases sizeAdd_cases hsize hsmall val.toNat_lt with
      ⟨hle,hadd⟩ | ⟨hwrap,hadd,hlt⟩ | ⟨hgt,hlt,hadd⟩
    · have hmax : ¬ val.toNat > kMaxString := by
        unfold kMaxString
        omega
      rw [hadd,if_neg (not_lt.mpr hle),if_neg hmax]
      exact Or.inl ⟨_,q,hq,hle,rfl⟩
    · have hmax : val.toNat > kMaxString := by
        unfold kMaxString
        omega
      rw [if_neg (by omega),if_pos hmax]
      exact Or.inr ⟨_,q,rfl,.of_headAt hq,hfail (by omega)⟩
    · rw [hadd,if_pos hgt]
      exact Or.inr ⟨_,q,rfl,.of_headAt hq,hfail hgt⟩
  · rw [hd]
    exact Or.inr ⟨e,q,rfl,hq,fun n r h => absurd h (hno n r)⟩

end Decoder
end SmoFramework.Cbor
