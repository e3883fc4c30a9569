import Mathlib.Data.Nat.Bitwise

/-! Single-bit reads and writes of machine words. A word is a set of flags indexed
by `Nat.testBit`; the three shift-and-mask idioms of C code become statements about that set. -/
namespace SmoFramework.Library.WordBits

/-- Flag `j` of a 64-bit word. -/
def flag (b : UInt64) (j : ℕ) : Bool := b.toNat.testBit j

@[simp] lemma flag_zero (j : ℕ) : flag 0 j = false := by simp [flag]

lemma flag_or (a b : UInt64) (j : ℕ) : flag (a ||| b) j = (flag a j || flag b j) := by
  simp [flag]

variable {j : ℕ}

lemma flag_shiftLeft (b k : UInt64) (hk : k.toNat < 64) (hj : j < 64) :
    flag (b <<< k) j = (decide (k.toNat ≤ j) && flag b (j-k.toNat)) := by
  simp only [flag,UInt64.toNat_shiftLeft,Nat.mod_eq_of_lt hk,Nat.testBit_mod_two_pow,
    Nat.testBit_shiftLeft,hj,decide_true,Bool.true_and,ge_iff_le]

lemma flag_one (j : ℕ) : flag 1 j = decide (j = 0) := by
  cases j with
  | zero => rfl
  | succ j => simp [flag,Nat.testBit_succ]

/-- The mask `1 << k` holds exactly the flag `k`. -/
lemma flag_mask (k : UInt64) (hk : k.toNat < 64) (hj : j < 64) :
    flag (1 <<< k) j = decide (j = k.toNat) := by
  rw [flag_shiftLeft 1 k hk hj,flag_one,Bool.eq_iff_iff]
  simp only [Bool.and_eq_true,decide_eq_true_eq]
  omega

lemma and_mask_eq_zero (b k : UInt64) (hk : k.toNat < 64) :
    b &&& (1 <<< k) = 0 ↔ flag b k.toNat = false := by
  rw [← UInt64.toNat_inj]
  constructor
  · intro h
    have hb := congrArg (fun n => n.testBit k.toNat) h
    simp only [UInt64.toNat_and,Nat.testBit_and,UInt64.toNat_zero,Nat.zero_testBit] at hb
    have hm := flag_mask k hk hk
    simp only [flag,decide_true] at hm
    rwa [hm,Bool.and_true] at hb
  · intro h
    apply Nat.eq_of_testBit_eq
    intro j
    simp only [UInt64.toNat_and,Nat.testBit_and,UInt64.toNat_zero,Nat.zero_testBit]
    by_cases hj : j < 64
    · have hm := flag_mask k hk hj
      simp only [flag] at hm h
      rw [hm]
      by_cases he : j = k.toNat
      · rw [he,h,Bool.false_and]
      · simp [he]
    · have hb : b.toNat < 2^j := b.toNat_lt.trans_le (Nat.pow_le_pow_right (by decide) (by omega))
      rw [Nat.testBit_lt_two_pow hb,Bool.false_and]

/-! Eight flags packed into a byte. -/

/-- The loop `if (bit(j)) byte |= 1 << j`, lowest flag first. -/
def packByte (bit : ℕ → Bool) : UInt8 :=
  (List.range 8).foldl (fun byte j => if bit j then byte ||| (1 <<< UInt8.ofNat j) else byte) 0

lemma testBit_byteMask (hj : j < 8) (k : ℕ) :
    ((1 : UInt8) <<< UInt8.ofNat j).toNat.testBit k = decide (j = k) := by
  have hj' : (UInt8.ofNat j).toNat % 8 = j := by
    rw [UInt8.toNat_ofNat']
    omega
  have hpow : 1 <<< j < 2^8 := by
    rw [Nat.one_shiftLeft]
    exact Nat.pow_lt_pow_right (by decide) hj
  rw [UInt8.toNat_shiftLeft,hj',UInt8.toNat_one,Nat.mod_eq_of_lt hpow,Nat.one_shiftLeft,
    Nat.testBit_two_pow]

lemma testBit_pack {n : ℕ} (bit : ℕ → Bool) (hn : n ≤ 8) (k : ℕ) :
    ((List.range n).foldl (fun byte j => if bit j then byte ||| (1 <<< UInt8.ofNat j) else byte)
      (0 : UInt8)).toNat.testBit k = (decide (k < n) && bit k) := by
  induction n with
  | zero => simp
  | succ n ih =>
    have hlt : k < n+1 ↔ k < n ∨ n = k := by omega
    rw [List.range_succ,List.foldl_append]
    by_cases hb : bit n = true
    · simp only [List.foldl_cons,List.foldl_nil,hb,if_true]
      rw [UInt8.toNat_or,Nat.testBit_or,ih (by omega),testBit_byteMask (by omega)]
      by_cases hk : n = k
      · subst hk
        simp [hb]
      · simp [hlt,hk]
    · simp only [List.foldl_cons,List.foldl_nil,hb]
      rw [if_neg (by simp),ih (by omega)]
      by_cases hk : n = k
      · subst hk
        simp [hb]
      · simp [hlt,hk]

lemma packByte_and_mask (bit : ℕ → Bool) (hj : j < 8) :
    packByte bit &&& (1 <<< UInt8.ofNat j) ≠ 0 ↔ bit j = true := by
  have hk : ∀ k, (packByte bit &&& (1 <<< UInt8.ofNat j)).toNat.testBit k =
      (decide (j = k) && bit j) := by
    intro k
    rw [UInt8.toNat_and,Nat.testBit_and,packByte,testBit_pack bit le_rfl,testBit_byteMask hj]
    by_cases h : j = k
    · subst h
      simp [hj]
    · simp [h]
  cases hb : bit j with
  | true =>
    refine iff_of_true (fun h0 => ?_) rfl
    have hj := hk j
    simp [h0,hb] at hj
  | false =>
    refine iff_of_false (fun hne => hne ?_) (by decide)
    apply UInt8.toNat_inj.mp
    apply Nat.eq_of_testBit_eq
    intro k
    rw [hk,hb,Bool.and_false,UInt8.toNat_zero,Nat.zero_testBit]

end SmoFramework.Library.WordBits
