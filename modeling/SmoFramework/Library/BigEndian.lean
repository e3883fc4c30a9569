import Mathlib.Data.Nat.Bitwise
import Mathlib.Tactic.Linarith
import Mathlib.Tactic.Ring

/-! Big-endian byte strings of fixed width, and the shift idioms of C code that write and read
them. The codec laws are stated on natural numbers; the bridges below carry machine words there. -/
namespace SmoFramework.Library.BigEndian
open List

/-- The low `width` bytes of a number, most significant first. -/
def toBE : ℕ → ℕ → List UInt8
  | 0, _ => []
  | width+1, n => UInt8.ofNat (n/256^width)::toBE width n

def ofBE : List UInt8 → ℕ
  | [] => 0
  | b::bs => b.toNat*256^bs.length+ofBE bs

@[simp] lemma length_toBE (width n : ℕ) : (toBE width n).length = width := by
  induction width with
  | zero => rfl
  | succ width ih => simp [toBE,ih]

lemma ofBE_lt (bs : List UInt8) : ofBE bs < 256^bs.length := by
  induction bs with
  | nil => simp [ofBE]
  | cons b bs ih =>
    have hb := b.toNat_lt
    simp only [ofBE,length_cons,pow_succ]
    nlinarith

lemma ofBE_toBE (width n : ℕ) : ofBE (toBE width n) = n % 256^width := by
  induction width with
  | zero => simp [toBE,ofBE,Nat.mod_one]
  | succ width ih =>
    rw [toBE,ofBE,ih,length_toBE,UInt8.toNat_ofNat',pow_succ 256 width,Nat.mod_mul]
    change n/256^width % 256*256^width+n % 256^width = _
    ring

lemma ofBE_toBE_of_lt (h : n < 256^width) : ofBE (toBE width n) = n := by
  rw [ofBE_toBE,Nat.mod_eq_of_lt h]

lemma toBE_add_mul (width n k : ℕ) : toBE width (k*256^width+n) = toBE width n := by
  induction width generalizing k with
  | zero => rfl
  | succ width ih =>
    have hk : k*256^(width+1)+n = k*256*256^width+n := by ring
    rw [toBE,toBE,hk,ih]
    congr 1
    apply UInt8.toNat_inj.mp
    rw [UInt8.toNat_ofNat',UInt8.toNat_ofNat',Nat.add_comm,
      Nat.add_mul_div_right _ _ (Nat.pow_pos (by decide)),Nat.add_mul_mod_self_right]

lemma toBE_ofBE (bs : List UInt8) : toBE bs.length (ofBE bs) = bs := by
  induction bs with
  | nil => rfl
  | cons b bs ih =>
    rw [length_cons,toBE,ofBE,toBE_add_mul,ih]
    congr 1
    apply UInt8.toNat_inj.mp
    rw [UInt8.toNat_ofNat',Nat.add_comm,Nat.add_mul_div_right _ _ (Nat.pow_pos (by decide)),
      Nat.div_eq_of_lt (ofBE_lt bs),Nat.zero_add,Nat.mod_eq_of_lt b.toNat_lt]

lemma lt_iff_ofBE_lt (h : as.length = bs.length) : as < bs ↔ ofBE as < ofBE bs := by
  induction as generalizing bs with
  | nil =>
    obtain rfl := length_eq_zero_iff.mp h.symm
    simp
  | cons a as ih =>
    obtain ⟨b,bs,rfl⟩ := exists_cons_of_length_eq_add_one h.symm
    have hlength : as.length = bs.length := by simpa using h
    rw [cons_lt_cons_iff,ih hlength,ofBE,ofBE,hlength,UInt8.lt_iff_toNat_lt,← UInt8.toNat_inj]
    have ha := ofBE_lt as
    have hb := ofBE_lt bs
    rw [hlength] at ha
    generalize 256^bs.length = unit at ha hb ⊢
    rcases lt_trichotomy a.toNat b.toNat with hlt | heq | hgt
    · have hle := Nat.mul_le_mul_right unit hlt
      rw [Nat.succ_mul] at hle
      omega
    · rw [heq]
      omega
    · have hle := Nat.mul_le_mul_right unit hgt
      rw [Nat.succ_mul] at hle
      omega

lemma toBE_drop (k width n : ℕ) : (toBE (k+width) n).drop k = toBE width n := by
  induction k with
  | zero => simp
  | succ k ih => rw [Nat.add_right_comm,toBE,drop_succ_cons,ih]

/-! Machine words. -/

variable (v : UInt64) (b : UInt8)

/-- Shifting an accumulator left by one byte and or-ing a byte in. -/
def shiftIn64 : UInt64 := (v <<< 8) ||| b.toUInt64

lemma toNat_shiftIn64 :
    (shiftIn64 v b).toNat = (v.toNat*256+b.toNat) % 2^64 := by
  unfold shiftIn64
  have hb := b.toNat_lt
  have hshift : v.toNat <<< 8 % 2^64 = (v.toNat % 2^56) <<< 8 := by
    rw [Nat.shiftLeft_eq,Nat.shiftLeft_eq]
    omega
  rw [UInt64.toNat_or,UInt64.toNat_shiftLeft,UInt8.toNat_toUInt64]
  change v.toNat <<< (8 % 64) % 2^64 ||| b.toNat = _
  rw [show 8 % 64 = 8 from rfl,hshift,← Nat.shiftLeft_add_eq_or_of_lt hb,Nat.shiftLeft_eq]
  omega

lemma toNat_foldl_shiftIn64 (bs : List UInt8) (v : UInt64) :
    (bs.foldl shiftIn64 v).toNat = (v.toNat*256^bs.length+ofBE bs) % 2^64 := by
  induction bs generalizing v with
  | nil =>
    have := v.toNat_lt
    simp [ofBE]
  | cons b bs ih =>
    rw [foldl_cons,ih,toNat_shiftIn64,ofBE,length_cons,Nat.add_mod,Nat.mod_mul_mod,← Nat.add_mod]
    congr 1
    ring

/-- From a zero accumulator, at most eight bytes are read without loss. -/
lemma toNat_foldl_shiftIn64_zero (bs : List UInt8) (h : bs.length ≤ 8) :
    (bs.foldl shiftIn64 0).toNat = ofBE bs := by
  rw [toNat_foldl_shiftIn64,UInt64.toNat_zero,Nat.zero_mul,Nat.zero_add,Nat.mod_eq_of_lt]
  calc ofBE bs < 256^bs.length := ofBE_lt bs
    _ ≤ 256^8 := Nat.pow_le_pow_right (by decide) h
    _ = 2^64 := by norm_num

lemma toUInt8_shiftRight64 (k : UInt64) (hk : k.toNat < 64) :
    (v >>> k).toUInt8 = UInt8.ofNat (v.toNat/2^k.toNat) := by
  apply UInt8.toNat_inj.mp
  rw [UInt64.toNat_toUInt8,UInt64.toNat_shiftRight,UInt8.toNat_ofNat',Nat.mod_eq_of_lt hk,
    Nat.shiftRight_eq_div_pow]

/-! Reading and writing fields at a fixed offset. -/

/-- The bytes `data[off], …, data[off+n-1]`; callers check the length first, so that the
default is never read. -/
def bytesAt (data : List UInt8) (off n : ℕ) : List UInt8 :=
  (List.range n).map (fun i => data.getD (off+i) 0)

@[simp] lemma length_bytesAt (data : List UInt8) (off n : ℕ) :
    (bytesAt data off n).length = n := by simp [bytesAt]

lemma bytesAt_eq_take_drop (h : off+n ≤ data.length) :
    bytesAt data off n = (data.drop off).take n := by
  apply ext_getElem
  · rw [length_bytesAt,length_take,length_drop]
    omega
  · intro i hi _
    rw [length_bytesAt] at hi
    simp [bytesAt,getElem?_eq_getElem (show off+i < data.length by omega)]

lemma bytesAt_append {pre field rest : List UInt8} {off n : ℕ} (hoff : pre.length = off)
    (hn : field.length = n) : bytesAt (pre ++ (field ++ rest)) off n = field := by
  subst hoff hn
  rw [bytesAt_eq_take_drop (by simp),drop_left,take_left]

lemma take_append_bytesAt (h : off+n ≤ data.length) :
    data.take off ++ bytesAt data off n = data.take (off+n) := by
  rw [bytesAt_eq_take_drop h,take_add]

/-- The write loop `out[i] = (uint8_t)(v >> ((7 - i) * 8))`. -/
def write64 : List UInt8 :=
  (List.range 8).map (fun i => (v >>> (UInt64.ofNat ((7-i)*8))).toUInt8)

def read64 (bs : List UInt8) : UInt64 := bs.foldl shiftIn64 0

lemma write64_eq : write64 v = toBE 8 v.toNat := by
  have hbyte : ∀ k < 64, (v >>> UInt64.ofNat k).toUInt8 = UInt8.ofNat (v.toNat/2^k) := by
    intro k hk
    have hk' : (UInt64.ofNat k).toNat = k := UInt64.toNat_ofNat_of_lt' (hk.trans (by decide))
    rw [toUInt8_shiftRight64 v _ (by omega),hk']
  change [_,_,_,_,_,_,_,_] = [_,_,_,_,_,_,_,_]
  simp only [cons.injEq,and_true]
  exact ⟨hbyte 56 (by decide),hbyte 48 (by decide),hbyte 40 (by decide),hbyte 32 (by decide),
    hbyte 24 (by decide),hbyte 16 (by decide),hbyte 8 (by decide),hbyte 0 (by decide)⟩

@[simp] lemma length_write64 : (write64 v).length = 8 := by simp [write64]

lemma read64_write64 : read64 (write64 v) = v := by
  apply UInt64.toNat_inj.mp
  unfold read64
  rw [toNat_foldl_shiftIn64_zero _ (by simp),write64_eq,ofBE_toBE_of_lt v.toNat_lt]

lemma write64_read64 (h : bs.length = 8) : write64 (read64 bs) = bs := by
  unfold read64
  rw [write64_eq,toNat_foldl_shiftIn64_zero bs h.le,← h,toBE_ofBE]

/-- The two bytes `v >> 8` and `v & 0xFF`. -/
def write16 (v : UInt16) : List UInt8 := [(v >>> 8).toUInt8,(v &&& 0xFF).toUInt8]

variable (hi lo : UInt8)

/-- The word `(hi << 8) | lo`. -/
def read16 : UInt16 := (hi.toUInt16 <<< 8) ||| lo.toUInt16

lemma toNat_read16 : (read16 hi lo).toNat = hi.toNat*256+lo.toNat := by
  have hhi := hi.toNat_lt
  have hlo := lo.toNat_lt
  unfold read16
  rw [UInt16.toNat_or,UInt16.toNat_shiftLeft,UInt8.toNat_toUInt16,UInt8.toNat_toUInt16]
  change hi.toNat <<< (8 % 16) % 2^16 ||| lo.toNat = _
  rw [show 8 % 16 = 8 from rfl,Nat.mod_eq_of_lt (by rw [Nat.shiftLeft_eq]; omega),
    ← Nat.shiftLeft_add_eq_or_of_lt hlo,Nat.shiftLeft_eq]

lemma toNat_high16 (v : UInt16) : ((v >>> 8).toUInt8).toNat = v.toNat/256 := by
  have hv := v.toNat_lt
  rw [UInt16.toNat_toUInt8,UInt16.toNat_shiftRight]
  change v.toNat >>> (8 % 16) % 2^8 = _
  rw [show 8 % 16 = 8 from rfl,Nat.shiftRight_eq_div_pow]
  omega

lemma toNat_low16 (v : UInt16) : ((v &&& 0xFF).toUInt8).toNat = v.toNat % 256 := by
  rw [UInt16.toNat_toUInt8,UInt16.toNat_and]
  change (v.toNat &&& 2^8-1) % 2^8 = _
  rw [Nat.and_two_pow_sub_one_eq_mod]
  omega

lemma read16_write16 (v : UInt16) : read16 (v >>> 8).toUInt8 (v &&& 0xFF).toUInt8 = v := by
  apply UInt16.toNat_inj.mp
  rw [toNat_read16,toNat_high16,toNat_low16]
  omega

lemma write16_read16 : write16 (read16 hi lo) = [hi,lo] := by
  have hlo := lo.toNat_lt
  unfold write16
  congr 1
  · apply UInt8.toNat_inj.mp
    rw [toNat_high16,toNat_read16]
    omega
  · congr 1
    apply UInt8.toNat_inj.mp
    rw [toNat_low16,toNat_read16]
    omega

/-! Words of four bytes. -/

/-- The four bytes `v >> 24`, …, `v`. -/
def write32 (v : UInt32) : List UInt8 :=
  (List.range 4).map (fun i => (v >>> (UInt32.ofNat ((3-i)*8))).toUInt8)

variable (b3 b2 b1 b0 : UInt8)

/-- The word `(b3 << 24) | (b2 << 16) | (b1 << 8) | b0`. -/
def read32 : UInt32 :=
  (b3.toUInt32 <<< 24) ||| (b2.toUInt32 <<< 16) ||| (b1.toUInt32 <<< 8) ||| b0.toUInt32

lemma toNat_shiftLeft_toUInt32 (b : UInt8) (hk : k.toNat ≤ 24) :
    (b.toUInt32 <<< k).toNat = b.toNat*2^k.toNat := by
  have hb := b.toNat_lt
  have hk' : k.toNat % 32 = k.toNat := Nat.mod_eq_of_lt (by omega)
  rw [UInt32.toNat_shiftLeft,UInt8.toNat_toUInt32,hk',Nat.shiftLeft_eq,Nat.mod_eq_of_lt]
  calc b.toNat*2^k.toNat < 2^8*2^k.toNat := Nat.mul_lt_mul_of_pos_right hb (Nat.pow_pos (by decide))
    _ ≤ 2^8*2^24 := Nat.mul_le_mul_left _ (Nat.pow_le_pow_right (by decide) hk)

lemma toNat_read32 : (read32 b3 b2 b1 b0).toNat = ofBE [b3,b2,b1,b0] := by
  have h2 := b2.toNat_lt
  have h1 := b1.toNat_lt
  have h0 := b0.toNat_lt
  unfold read32
  rw [UInt32.toNat_or,UInt32.toNat_or,UInt32.toNat_or,toNat_shiftLeft_toUInt32 b3 (by decide),
    toNat_shiftLeft_toUInt32 b2 (by decide),toNat_shiftLeft_toUInt32 b1 (by decide),
    UInt8.toNat_toUInt32]
  change b3.toNat*2^24 ||| b2.toNat*2^16 ||| b1.toNat*2^8 ||| b0.toNat = _
  -- The three disjunctions are sums, since each lower part is below the next shift.
  rw [show b3.toNat*2^24 = b3.toNat <<< 24 from (Nat.shiftLeft_eq _ _).symm,
    ← Nat.shiftLeft_add_eq_or_of_lt (by omega : b2.toNat*2^16 < 2^24),
    show b3.toNat <<< 24+b2.toNat*2^16 = (b3.toNat*2^8+b2.toNat) <<< 16 by
      rw [Nat.shiftLeft_eq,Nat.shiftLeft_eq]; ring,
    ← Nat.shiftLeft_add_eq_or_of_lt (by omega : b1.toNat*2^8 < 2^16),
    show (b3.toNat*2^8+b2.toNat) <<< 16+b1.toNat*2^8 =
      (b3.toNat*2^16+b2.toNat*2^8+b1.toNat) <<< 8 by rw [Nat.shiftLeft_eq,Nat.shiftLeft_eq]; ring,
    ← Nat.shiftLeft_add_eq_or_of_lt h0,Nat.shiftLeft_eq]
  simp only [ofBE,length_cons,length_nil]
  ring

lemma write32_eq (v : UInt32) : write32 v = toBE 4 v.toNat := by
  have hbyte : ∀ k < 32, (v >>> UInt32.ofNat k).toUInt8 = UInt8.ofNat (v.toNat/2^k) := by
    intro k hk
    have hk' : (UInt32.ofNat k).toNat = k := UInt32.toNat_ofNat_of_lt' (hk.trans (by decide))
    apply UInt8.toNat_inj.mp
    rw [UInt32.toNat_toUInt8,UInt32.toNat_shiftRight,UInt8.toNat_ofNat',hk',Nat.mod_eq_of_lt hk,
      Nat.shiftRight_eq_div_pow]
  change [_,_,_,_] = [_,_,_,_]
  simp only [cons.injEq,and_true]
  exact ⟨hbyte 24 (by decide),hbyte 16 (by decide),hbyte 8 (by decide),hbyte 0 (by decide)⟩

@[simp] lemma length_write32 (v : UInt32) : (write32 v).length = 4 := by simp [write32]

lemma write32_read32 : write32 (read32 b3 b2 b1 b0) = [b3,b2,b1,b0] := by
  rw [write32_eq,toNat_read32]
  exact toBE_ofBE [b3,b2,b1,b0]

lemma write32_injective : Function.Injective write32 := by
  intro v w h
  have hv := congrArg ofBE h
  rw [write32_eq,write32_eq,ofBE_toBE_of_lt v.toNat_lt,ofBE_toBE_of_lt w.toNat_lt] at hv
  exact UInt32.toNat_inj.mp hv

lemma toNat_high32 : (v >>> 32).toUInt32.toNat = v.toNat/2^32 := by
  have hv := v.toNat_lt
  have h32 : (32 : UInt64).toNat % 64 = 32 := rfl
  rw [UInt64.toNat_toUInt32,UInt64.toNat_shiftRight,h32,Nat.shiftRight_eq_div_pow]
  omega

/-- The word `(hi << 32) | lo`. -/
def join32 (hi lo : UInt32) : UInt64 := (hi.toUInt64 <<< 32) ||| lo.toUInt64

lemma join32_halves : join32 (v >>> 32).toUInt32 v.toUInt32 = v := by
  have hv := v.toNat_lt
  have h32 : (32 : UInt64).toNat % 64 = 32 := rfl
  apply UInt64.toNat_inj.mp
  rw [join32,UInt64.toNat_or,UInt64.toNat_shiftLeft,UInt32.toNat_toUInt64,UInt32.toNat_toUInt64,
    toNat_high32,UInt64.toNat_toUInt32,h32,Nat.mod_eq_of_lt (by rw [Nat.shiftLeft_eq]; omega),
    ← Nat.shiftLeft_add_eq_or_of_lt (by omega),Nat.shiftLeft_eq]
  omega

/-- The read loop `v = (v << 8) | byte` with a 32-bit accumulator. -/
def shiftIn32 (v : UInt32) (b : UInt8) : UInt32 := (v <<< 8) ||| b.toUInt32

lemma foldl_shiftIn32 (bs : List UInt8) (v : UInt64) :
    bs.foldl shiftIn32 v.toUInt32 = (bs.foldl shiftIn64 v).toUInt32 := by
  induction bs generalizing v with
  | nil => rfl
  | cons b bs ih =>
    have hstep : shiftIn32 v.toUInt32 b = (shiftIn64 v b).toUInt32 := by
      unfold shiftIn32 shiftIn64
      rw [UInt64.toUInt32_or,UInt64.toUInt32_shiftLeft _ _ (by decide),UInt8.toUInt32_toUInt64]
      rfl
    rw [foldl_cons,foldl_cons,hstep,ih]

lemma foldl_shiftIn32_write32 (v : UInt32) : (write32 v).foldl shiftIn32 0 = v := by
  have hv := v.toNat_lt
  apply UInt32.toNat_inj.mp
  change ((write32 v).foldl shiftIn32 (0 : UInt64).toUInt32).toNat = _
  rw [foldl_shiftIn32,UInt64.toNat_toUInt32,toNat_foldl_shiftIn64_zero _ (by simp),write32_eq,
    ofBE_toBE_of_lt hv,Nat.mod_eq_of_lt hv]

lemma write32_foldl_shiftIn32 (h : bs.length = 4) :
    write32 (bs.foldl shiftIn32 0) = bs := by
  have hlt : ofBE bs < 2^32 := (ofBE_lt bs).trans_eq (by rw [h]; rfl)
  change write32 (bs.foldl shiftIn32 (0 : UInt64).toUInt32) = bs
  rw [write32_eq,foldl_shiftIn32,UInt64.toNat_toUInt32,toNat_foldl_shiftIn64_zero bs (by omega),
    Nat.mod_eq_of_lt hlt,← h,toBE_ofBE]

lemma write64_drop (hk : k+w = 8) (hlt : val.toNat < 256^w) :
    ((write64 val).drop k).length = w ∧ ofBE ((write64 val).drop k) = val.toNat := by
  rw [write64_eq,← hk,toBE_drop]
  exact ⟨length_toBE _ _,ofBE_toBE_of_lt hlt⟩

end SmoFramework.Library.BigEndian
