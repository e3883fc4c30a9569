import SmoFramework.Library.BigEndian

/-! Base64 without padding, over an arbitrary alphabet. Three bytes are written as four digits of
six bits. The reader keeps the bits it has not used in a 32-bit buffer whose upper bits it never
clears; what it emits depends on the lower ones alone. -/
namespace SmoFramework.Library.Base64

/-- Sixty-four digits and their values, apart from the character that ends a text. -/
structure Alphabet where
  digit : ℕ → UInt8
  value : UInt8 → Option UInt8
  stop : UInt8
  value_digit : ∀ i < 64, value (digit i) = some (UInt8.ofNat i)
  digit_ne_stop : ∀ i < 64, digit i ≠ stop

variable (α : Alphabet)

def Alphabet.at_ (v : UInt32) (shift : UInt32) : UInt8 :=
  α.digit ((v >>> shift) &&& 0x3f).toNat

def encode (α : Alphabet) : List UInt8 → List UInt8
  | a::b::c::rest =>
    let v := a.toUInt32 <<< 16 ||| b.toUInt32 <<< 8 ||| c.toUInt32
    α.at_ v 18::α.at_ v 12::α.at_ v 6::α.at_ v 0::encode α rest
  | [a,b] =>
    let v := a.toUInt32 <<< 16 ||| b.toUInt32 <<< 8
    [α.at_ v 18,α.at_ v 12,α.at_ v 6]
  | [a] =>
    let v := a.toUInt32 <<< 16
    [α.at_ v 18,α.at_ v 12]
  | [] => []

def decodeFrom (α : Alphabet) (buf : UInt32) (bits : ℕ) : List UInt8 → List UInt8
  | [] => []
  | c::rest =>
    if c = α.stop then []
    else match α.value c with
      | none => decodeFrom α buf bits rest
      | some val =>
        let buf := (buf <<< 6) ||| val.toUInt32
        let bits := bits+6
        if bits ≥ 8 then
          ((buf >>> UInt32.ofNat (bits-8)) &&& 0xFF).toUInt8::decodeFrom α buf (bits-8) rest
        else decodeFrom α buf bits rest

variable (text : List UInt8)

def decode : List UInt8 := decodeFrom α 0 0 text

lemma length_decodeFrom_le (buf : UInt32) (bits : ℕ) (text : List UInt8) :
    (decodeFrom α buf bits text).length ≤ text.length := by
  induction text generalizing buf bits with
  | nil => exact le_rfl
  | cons c rest ih =>
    rw [decodeFrom,List.length_cons]
    split_ifs with hstop
    · exact Nat.zero_le _
    · cases α.value c with
      | none => exact (ih buf bits).trans (Nat.le_succ _)
      | some val =>
        dsimp only
        split_ifs with hbits
        · exact Nat.succ_le_succ (ih _ _)
        · exact (ih _ _).trans (Nat.le_succ _)

lemma length_decode_le : (decode α text).length ≤ text.length := length_decodeFrom_le α 0 0 text

/-! The words, as numbers. -/

lemma toNat_group (a b c : UInt8) : (a.toUInt32 <<< 16 ||| b.toUInt32 <<< 8 ||| c.toUInt32).toNat =
    a.toNat*2^16+b.toNat*2^8+c.toNat := by
  have hb := b.toNat_lt
  have hc := c.toNat_lt
  have h16 : (a.toUInt32 <<< 16).toNat = a.toNat*2^16 :=
    BigEndian.toNat_shiftLeft_toUInt32 a (by decide)
  have h8 : (b.toUInt32 <<< 8).toNat = b.toNat*2^8 :=
    BigEndian.toNat_shiftLeft_toUInt32 b (by decide)
  rw [UInt32.toNat_or,UInt32.toNat_or,h16,h8,UInt8.toNat_toUInt32,← Nat.shiftLeft_eq,
    ← Nat.shiftLeft_add_eq_or_of_lt (by omega),Nat.shiftLeft_eq]
  rw [show a.toNat*2^16+b.toNat*2^8 = (a.toNat*2^8+b.toNat)*2^8 by ring,← Nat.shiftLeft_eq,
    ← Nat.shiftLeft_add_eq_or_of_lt (by omega)]

variable {i : ℕ}

lemma toNat_push (buf : UInt32) (hi : i < 64) :
    ((buf <<< 6) ||| (UInt8.ofNat i).toUInt32).toNat = (buf.toNat*64+i) % 2^32 := by
  have hval : (UInt8.ofNat i).toNat = i := UInt8.toNat_ofNat_of_lt' (hi.trans (by decide))
  have hshift : buf.toNat <<< 6 % 2^32 = (buf.toNat % 2^26) <<< 6 := by
    rw [Nat.shiftLeft_eq,Nat.shiftLeft_eq]
    omega
  rw [UInt32.toNat_or,UInt32.toNat_shiftLeft,UInt8.toNat_toUInt32,hval]
  change buf.toNat <<< 6 % 2^32 ||| i = _
  rw [hshift,← Nat.shiftLeft_add_eq_or_of_lt hi,Nat.shiftLeft_eq]
  omega

lemma toNat_emit {k : ℕ} (buf : UInt32) (hk : k < 32) :
    ((buf >>> UInt32.ofNat k) &&& 0xFF).toUInt8.toNat = buf.toNat/2^k % 256 := by
  have hk' : (UInt32.ofNat k).toNat = k := UInt32.toNat_ofNat_of_lt' (hk.trans (by decide))
  rw [UInt32.toNat_toUInt8,UInt32.toNat_and,UInt32.toNat_shiftRight,hk',Nat.mod_eq_of_lt hk,
    Nat.shiftRight_eq_div_pow]
  change (buf.toNat/2^k &&& 2^8-1) % 2^8 = _
  rw [Nat.and_two_pow_sub_one_eq_mod,Nat.mod_mod]

lemma Alphabet.at_eq (v shift : UInt32) (h : shift.toNat < 32) :
    α.at_ v shift = α.digit (v.toNat/2^shift.toNat % 64) := by
  unfold Alphabet.at_
  congr 1
  rw [UInt32.toNat_and,UInt32.toNat_shiftRight,Nat.mod_eq_of_lt h,Nat.shiftRight_eq_div_pow]
  exact Nat.and_two_pow_sub_one_eq_mod _ 6

/-! Reading what was written. -/

variable (α : Alphabet)

lemma decodeFrom_digit (buf : UInt32) (bits : ℕ) (hi : i < 64) (rest : List UInt8) :
    decodeFrom α buf bits (α.digit i::rest) =
      let buf' := (buf <<< 6) ||| (UInt8.ofNat i).toUInt32
      if bits+6 ≥ 8 then ((buf' >>> UInt32.ofNat (bits+6-8)) &&& 0xFF).toUInt8::
        decodeFrom α buf' (bits+6-8) rest
      else decodeFrom α buf' (bits+6) rest := by
  rw [decodeFrom,if_neg (α.digit_ne_stop i hi),α.value_digit i hi]

lemma decodeFrom_keep (buf : UInt32) (hi : i < 64) (rest : List UInt8) :
    ∃ buf', decodeFrom α buf 0 (α.digit i::rest) = decodeFrom α buf' 6 rest ∧
      buf'.toNat = (buf.toNat*64+i) % 2^32 := by
  refine ⟨(buf <<< 6) ||| (UInt8.ofNat i).toUInt32,?_,toNat_push buf hi⟩
  rw [decodeFrom_digit α buf 0 hi]
  dsimp only
  rw [if_neg (by decide),Nat.zero_add]

lemma decodeFrom_emit (buf : UInt32) (left : ℕ) (hleft : left < 32) (hi : i < 64)
    (byte : UInt8) (hbyte : (buf.toNat*64+i) % 2^32/2^left % 256 = byte.toNat) (rest : List UInt8) :
    ∃ buf', decodeFrom α buf (left+2) (α.digit i::rest) = byte::decodeFrom α buf' left rest ∧
      buf'.toNat = (buf.toNat*64+i) % 2^32 := by
  refine ⟨(buf <<< 6) ||| (UInt8.ofNat i).toUInt32,?_,toNat_push buf hi⟩
  rw [decodeFrom_digit α buf (left+2) hi]
  dsimp only
  rw [if_pos (by omega),show left+2+6-8 = left by omega]
  congr 1
  apply UInt8.toNat_inj.mp
  rw [toNat_emit _ hleft,toNat_push _ hi,hbyte]

/-! The four digits of a group in turn. Between them, four and then two bits are left over, the
upper ones of the next byte. A byte that is missing counts as zero. -/

section
variable {v : UInt32} {a b c : UInt8} (hv : v.toNat = a.toNat*2^16+b.toNat*2^8+c.toNat)
include hv

lemma decodeFrom_first (buf : UInt32) (rest : List UInt8) :
    ∃ buf', decodeFrom α buf 0 (α.at_ v 18::α.at_ v 12::rest) = a::decodeFrom α buf' 4 rest ∧
      buf'.toNat % 16 = b.toNat/16 := by
  have ha := a.toNat_lt
  have hb := b.toNat_lt
  have hc := c.toNat_lt
  have h18 : v.toNat/2^18 % 64 = a.toNat/4 := by omega
  have h12 : v.toNat/2^12 % 64 = a.toNat % 4*16+b.toNat/16 := by omega
  rw [α.at_eq v 18 (by decide),α.at_eq v 12 (by decide)]
  simp only [UInt32.reduceToNat,h18,h12]
  obtain ⟨buf₁,h₁,hbuf₁⟩ := decodeFrom_keep α buf (i := a.toNat/4) (by omega) _
  obtain ⟨buf₂,h₂,hbuf₂⟩ := decodeFrom_emit α buf₁ 4 (by decide)
    (i := a.toNat % 4*16+b.toNat/16) (by omega) a (by omega) rest
  exact ⟨buf₂,h₁.trans h₂,by omega⟩

variable {buf : UInt32}

lemma decodeFrom_second (hbuf : buf.toNat % 16 = b.toNat/16) (rest : List UInt8) :
    ∃ buf', decodeFrom α buf 4 (α.at_ v 6::rest) = b::decodeFrom α buf' 2 rest ∧
      buf'.toNat % 4 = c.toNat/64 := by
  have hb := b.toNat_lt
  have hc := c.toNat_lt
  have h6 : v.toNat/2^6 % 64 = b.toNat % 16*4+c.toNat/64 := by omega
  rw [α.at_eq v 6 (by decide)]
  simp only [UInt32.reduceToNat,h6]
  obtain ⟨buf',h,hbuf'⟩ := decodeFrom_emit α buf 2 (by decide)
    (i := b.toNat % 16*4+c.toNat/64) (by omega) b (by omega) rest
  exact ⟨buf',h,by omega⟩

lemma decodeFrom_third (hbuf : buf.toNat % 4 = c.toNat/64) (rest : List UInt8) :
    ∃ buf', decodeFrom α buf 2 (α.at_ v 0::rest) = c::decodeFrom α buf' 0 rest := by
  have hc := c.toNat_lt
  have h0 : v.toNat/2^0 % 64 = c.toNat % 64 := by omega
  rw [α.at_eq v 0 (by decide)]
  simp only [UInt32.reduceToNat,h0]
  obtain ⟨buf',h,-⟩ := decodeFrom_emit α buf 0 (by decide)
    (i := c.toNat % 64) (by omega) c (by omega) rest
  exact ⟨buf',h⟩

end

variable (data : List UInt8)

lemma decodeFrom_encode (buf : UInt32) :
    decodeFrom α buf 0 (encode α data) = data := by
  induction data using encode.induct generalizing buf with
  | case1 a b c rest ih =>
    have hv := toNat_group a b c
    obtain ⟨buf₁,h₁,hbuf₁⟩ := decodeFrom_first α hv buf _
    obtain ⟨buf₂,h₂,hbuf₂⟩ := decodeFrom_second α hv hbuf₁ _
    obtain ⟨buf₃,h₃⟩ := decodeFrom_third α hv hbuf₂ _
    rw [encode,h₁,h₂,h₃,ih buf₃]
  | case2 a b =>
    have hv := toNat_group a b 0
    rw [show (0 : UInt8).toUInt32 = 0 from rfl,UInt32.or_zero] at hv
    obtain ⟨buf₁,h₁,hbuf₁⟩ := decodeFrom_first α hv buf _
    obtain ⟨buf₂,h₂,-⟩ := decodeFrom_second α hv hbuf₁ _
    rw [encode,h₁,h₂,decodeFrom]
  | case3 a =>
    have hv := toNat_group a 0 0
    rw [show (0 : UInt8).toUInt32 = 0 from rfl,UInt32.or_zero,UInt32.zero_shiftLeft,
      UInt32.or_zero] at hv
    obtain ⟨buf₁,h₁,-⟩ := decodeFrom_first α hv buf _
    rw [encode,h₁,decodeFrom]
  | case4 => rfl

lemma decode_encode : decode α (encode α data) = data :=
  decodeFrom_encode α data 0

lemma length_le_length_encode : data.length ≤ (encode α data).length := by
  induction data using encode.induct with
  | case1 a b c rest ih =>
    simp only [encode,List.length_cons]
    omega
  | case2 a b => simp [encode]
  | case3 a => simp [encode]
  | case4 => simp

end SmoFramework.Library.Base64
