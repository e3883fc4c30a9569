import Mathlib.Algebra.Order.Ring.Int
import SmoFramework.Library.Reader

/-! LEB128: a number in groups of seven bits, the lowest group first, with the high bit set in every
byte but the last. -/
namespace SmoFramework.Library.Leb128
open Reader

/-- One byte for each turn; the number shifted by seven bits is what is left. The fuel bounds the
turns. -/
def groups : ℕ → ℕ → List UInt8
  | 0,_ => []
  | fuel+1,n =>
    let byte := n % 128
    if n/128 ≠ 0 then UInt8.ofNat (byte+128)::groups fuel (n/128) else [UInt8.ofNat byte]

/-- A number has fewer groups than its successor has units. -/
def write (n : ℕ) : List UInt8 := groups (n+1) n

/-- The number at the front of the input, of any length. -/
def read {ε : Type} (e : ε) : List UInt8 → Except ε (ℕ × List UInt8)
  | [] => .error e
  | b::rest =>
    if b.toNat < 128 then .ok (b.toNat,rest)
    else (read e rest).map fun (n,rest) => (b.toNat-128+128*n,rest)

variable {n fuel : ℕ}

lemma read_groups {ε : Type} (e : ε) (hfuel : n < fuel) (rest : List UInt8) :
    read e (groups fuel n ++ rest) = .ok (n,rest) := by
  induction fuel generalizing n with
  | zero => omega
  | succ fuel ih =>
    rw [groups]
    split_ifs with hmore
    · have hbyte : (UInt8.ofNat (n%128+128)).toNat = n%128+128 :=
        UInt8.toNat_ofNat_of_lt' (show n%128+128 < 256 by omega)
      rw [List.cons_append,read,hbyte,if_neg (by omega),ih (show n/128 < fuel by omega)]
      change Except.ok (n%128+128-128+128*(n/128),rest) = _
      rw [Nat.add_sub_cancel,Nat.mod_add_div]
    · have hbyte : (UInt8.ofNat (n%128)).toNat = n := by
        rw [UInt8.toNat_ofNat_of_lt' (show n%128 < 256 by omega)]
        omega
      rw [List.cons_append,List.nil_append,read,hbyte,if_pos (by omega)]

lemma Reads.leb128 {ε : Type} (e : ε) (n : ℕ) : Reads (read e : Reader UInt8 ε ℕ) (write n) n :=
  read_groups e (Nat.lt_succ_self n)

/-! Numbers of a width, signed or not, by the rules of WebAssembly. -/

/-- The number that a last group stands for, and the numbers of a width. -/
structure Form where
  value : ℕ → ℤ
  Fits : ℕ → ℤ → Prop
  decidable : ∀ width n, Decidable (Fits width n)
  value_mod : ∀ b < 128, value b % 128 = b
  fits_div : ∀ {width n}, Fits width n → value (n % 128).toNat ≠ n → 7 < width ∧ Fits (width-7) (n/128)

def unsigned : Form where
  value b := b
  Fits width n := 0 ≤ n ∧ n < 2^width
  decidable _ _ := inferInstance
  value_mod b h := by omega
  fits_div {width n} h hmore := by
    have hbig : 128 ≤ n := by omega
    have hwidth : 7 < width := by
      by_contra hsmall
      have hle : (2 : ℤ)^width ≤ 2^7 := pow_le_pow_right₀ (by decide) (by omega)
      omega
    obtain ⟨k,rfl⟩ : ∃ k, width = k+7 := ⟨width-7,by omega⟩
    rw [pow_add] at h
    simp only [Nat.add_sub_cancel]
    omega

def signed : Form where
  value b := if b < 64 then b else b-128
  Fits width n := -2^(width-1) ≤ n ∧ n < 2^(width-1)
  decidable _ _ := inferInstance
  value_mod b h := by
    split_ifs <;> omega
  fits_div {width n} h hmore := by
    have hbig : n < -64 ∨ 64 ≤ n := by
      split_ifs at hmore <;> omega
    have hwidth : 7 < width := by
      by_contra hsmall
      have hle : (2 : ℤ)^(width-1) ≤ 2^6 := pow_le_pow_right₀ (by decide) (by omega)
      omega
    obtain ⟨k,rfl⟩ : ∃ k, width = k+1+7 := ⟨width-8,by omega⟩
    have hpow : (2 : ℤ)^(k+1+7-1) = 2^k*128 := by rw [show k+1+7-1 = k+7 by omega,pow_add]; rfl
    rw [hpow] at h
    simp only [Nat.add_sub_cancel]
    omega

namespace Form
variable (f : Form)

instance (width : ℕ) (n : ℤ) : Decidable (f.Fits width n) := f.decidable width n

/-- At most so many groups; a group that stands for what is left is the last. -/
def groups : ℕ → ℤ → List UInt8
  | 0,_ => []
  | fuel+1,n =>
    let byte := (n % 128).toNat
    if f.value byte = n then [UInt8.ofNat byte] else UInt8.ofNat (byte+128)::groups fuel (n/128)

def read {ε : Type} (e : ε) : ℕ → List UInt8 → Except ε (ℤ × List UInt8)
  | _,[] => .error e
  | width,b::rest =>
    if b.toNat < 128 then
      if f.Fits width (f.value b.toNat) then .ok (f.value b.toNat,rest) else .error e
    else if 7 < width then
      (read e (width-7) rest).map fun (n,rest) => ((b.toNat-128 : ℕ)+128*n,rest)
    else .error e

variable {f} {ε : Type} {e : ε} {fuel width : ℕ} {n : ℤ}

lemma length_groups_le : (f.groups fuel n).length ≤ fuel := by
  induction fuel generalizing n with
  | zero => simp [groups]
  | succ fuel ih =>
    rw [groups]
    split_ifs
    · simp
    · simpa using ih

lemma reads_groups (h : f.Fits width n) (hfuel : width ≤ 7*fuel) (hpos : 0 < fuel) :
    Reads (f.read e width : Reader UInt8 ε ℤ) (f.groups fuel n) n := by
  intro rest
  change f.read e width (f.groups fuel n ++ rest) = _
  induction fuel generalizing width n with
  | zero => omega
  | succ fuel ih =>
    rw [groups]
    split_ifs with hlast
    · have hbyte : (UInt8.ofNat (n % 128).toNat).toNat = (n % 128).toNat :=
        UInt8.toNat_ofNat_of_lt' (show (n % 128).toNat < 256 by omega)
      rw [List.singleton_append,read,hbyte,if_pos (by omega),hlast,if_pos h]
    · obtain ⟨hwidth,hrest⟩ := f.fits_div h hlast
      have hbyte : (UInt8.ofNat ((n % 128).toNat+128)).toNat = (n % 128).toNat+128 :=
        UInt8.toNat_ofNat_of_lt' (show (n % 128).toNat+128 < 256 by omega)
      rw [List.cons_append,read,hbyte,if_neg (by omega),if_pos hwidth,ih hrest (by omega) (by omega)]
      change Except.ok ((((n % 128).toNat+128-128 : ℕ) : ℤ)+128*(n/128),rest) = _
      congr 2
      omega

lemma length_groups_le_of_read {word rest : List UInt8} (h : f.read e width word = .ok (n,rest)) :
    (f.groups fuel n).length ≤ word.length := by
  induction word generalizing width n fuel with
  | nil => cases h
  | cons b word ih =>
    cases fuel with
    | zero => simp [groups]
    | succ fuel =>
      rw [read] at h
      split_ifs at h with hlast hfits hwidth
      · cases h
        have hmod := f.value_mod _ hlast
        have hlow : (f.value b.toNat % 128).toNat = b.toNat := by omega
        simp [groups,hlow]
      · cases hread : f.read e (width-7) word with
        | error _ =>
          rw [hread] at h
          cases h
        | ok r =>
          rw [hread] at h
          cases h
          have hlt := b.toNat_lt
          have hdiv : (((b.toNat-128 : ℕ) : ℤ)+128*r.1)/128 = r.1 := by omega
          have hle : (f.groups fuel r.1).length ≤ word.length := ih hread
          rw [groups,hdiv]
          split_ifs
          · exact Nat.succ_le_succ (Nat.zero_le _)
          · exact Nat.succ_le_succ hle

end Form

lemma groups_eq_unsigned {k : ℕ} (h : n < fuel) (h' : n < 128^(k+1)) :
    groups fuel n = unsigned.groups (k+1) n := by
  induction k generalizing fuel n with
  | zero =>
    obtain ⟨fuel,rfl⟩ : ∃ m, fuel = m+1 := ⟨fuel-1,by omega⟩
    have hsmall : n < 128 := h'
    have hvalue : unsigned.value ((n : ℤ) % 128).toNat = n := by
      change (((n : ℤ) % 128).toNat : ℤ) = n
      omega
    rw [groups,if_neg (by omega),Form.groups,if_pos hvalue]
    rfl
  | succ k ih =>
    obtain ⟨fuel,rfl⟩ : ∃ m, fuel = m+1 := ⟨fuel-1,by omega⟩
    rw [groups,Form.groups]
    have hiff : unsigned.value ((n : ℤ) % 128).toNat = n ↔ ¬n/128 ≠ 0 := by
      change (((n : ℤ) % 128).toNat : ℤ) = n ↔ _
      omega
    by_cases hmore : n/128 ≠ 0
    · rw [if_pos hmore,if_neg (mt hiff.mp (not_not.mpr hmore)),ih (by omega) (by rw [pow_succ] at h'; omega)]
      rfl
    · rw [if_neg hmore,if_pos (hiff.mpr hmore)]
      rfl

end SmoFramework.Library.Leb128
