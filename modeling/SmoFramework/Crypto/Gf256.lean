import Mathlib.Algebra.Ring.MinimalAxioms
import Mathlib.Data.FinEnum
import Mathlib.GroupTheory.OrderOfElement
import Mathlib.Tactic.NormNum.Prime
import Mathlib.Tactic.Ring
import SmoFramework.Errors

/-! The byte arithmetic of `core/crypto/shamir`. `gfMul` is multiplication modulo 0x11D. It is
additive in both arguments, so every ring law is decided on the eight one-bit bytes; inverses exist
because the byte 2 generates all nonzero elements. -/
namespace SmoFramework.Crypto

structure MulState where
  result : UInt16
  a : UInt8
  b : UInt8

def mulStep (s : MulState) : MulState :=
  let result := if s.b &&& 1 ≠ 0 then s.result ^^^ s.a.toUInt16 else s.result
  let shifted := s.a <<< 1
  let a := if s.a &&& 0x80 ≠ 0 then shifted ^^^ 0x1D else shifted
  ⟨result,a,s.b >>> 1⟩

def gfMul (a b : UInt8) : UInt8 := (mulStep^[8] ⟨0,a,b⟩).result.toUInt8

def gfAdd (a b : UInt8) : UInt8 := a ^^^ b

/-- The exponent is halved every time, so a bound equal to the exponent is never reached. -/
def gfPowLoop : ℕ → UInt8 → ℕ → UInt8 → UInt8
  | 0, _, _, result => result
  | fuel+1, a, n, result =>
    if n > 0 then gfPowLoop fuel (gfMul a a) (n/2) (if n % 2 = 1 then gfMul result a else result)
    else result

def gfPow (a : UInt8) (n : ℤ) : UInt8 := gfPowLoop n.toNat a n.toNat 1

def gfInv (a : UInt8) : UInt8 := gfPow a 254

def gfDiv (a b : UInt8) : UInt8 := gfMul a (gfInv b)

/-! Additivity of the loop in each argument. -/

lemma and_xor_mask (a b m : UInt8) : (a ^^^ b) &&& m = (a &&& m) ^^^ (b &&& m) := by
  apply UInt8.toBitVec_inj.mp
  ext i
  simp [Bool.and_xor_distrib_right]

lemma low_bit_cases : ∀ a : UInt8, a &&& 1 = 0 ∨ a &&& 1 = 1 := by decide +kernel

lemma high_bit_cases : ∀ a : UInt8, a &&& 0x80 = 0 ∨ a &&& 0x80 = 0x80 := by decide +kernel

def xtime (a : UInt8) : UInt8 := if a &&& 0x80 ≠ 0 then (a <<< 1) ^^^ 0x1D else a <<< 1

lemma xtime_xor (a b : UInt8) : xtime (a ^^^ b) = xtime a ^^^ xtime b := by
  have hxor (x y z : UInt8) : x ^^^ z ^^^ (y ^^^ z) = x ^^^ y := by
    rw [UInt8.xor_comm y z,← UInt8.xor_assoc,UInt8.xor_assoc x,UInt8.xor_self,UInt8.xor_zero]
  unfold xtime
  rw [and_xor_mask,UInt8.shiftLeft_xor]
  rcases high_bit_cases a with ha | ha <;> rcases high_bit_cases b with hb | hb
  · simp [ha,hb]
  · simp [ha,hb,UInt8.xor_assoc]
  · simp only [ha,hb,UInt8.xor_zero,ne_eq,not_true_eq_false,if_false,
      show ((0x80 : UInt8) = 0) = False from by decide,not_false_eq_true,if_true]
    rw [UInt8.xor_assoc,UInt8.xor_comm (b <<< 1),UInt8.xor_assoc]
  · simp only [ha,hb]
    exact (hxor _ _ _).symm

def contribution (a b : UInt8) : UInt16 := if b &&& 1 ≠ 0 then a.toUInt16 else 0

lemma mulStep_eq (s : MulState) :
    mulStep s = ⟨s.result ^^^ contribution s.a s.b,xtime s.a,s.b >>> 1⟩ := by
  unfold mulStep contribution xtime
  split_ifs <;> simp

lemma contribution_xor_left (a a' b : UInt8) :
    contribution (a ^^^ a') b = contribution a b ^^^ contribution a' b := by
  unfold contribution
  split_ifs <;> simp

lemma contribution_xor_right (a b b' : UInt8) :
    contribution a (b ^^^ b') = contribution a b ^^^ contribution a b' := by
  unfold contribution
  rw [and_xor_mask]
  rcases low_bit_cases b with hb | hb <;> rcases low_bit_cases b' with hb' | hb' <;> simp [hb,hb']

lemma xor_xor_xor_comm (r r' c c' : UInt16) :
    r ^^^ r' ^^^ (c ^^^ c') = r ^^^ c ^^^ (r' ^^^ c') := by
  rw [UInt16.xor_assoc,UInt16.xor_assoc,← UInt16.xor_assoc r',UInt16.xor_comm r' c,UInt16.xor_assoc]

/-- Three loop states with equal second operands, the third the sum of the other two. -/
def SumLeft (s t u : MulState) : Prop :=
  u.result = s.result ^^^ t.result ∧ u.a = s.a ^^^ t.a ∧ s.b = u.b ∧ t.b = u.b

def SumRight (s t u : MulState) : Prop :=
  u.result = s.result ^^^ t.result ∧ s.a = u.a ∧ t.a = u.a ∧ u.b = s.b ^^^ t.b

variable {s t u : MulState}

lemma SumLeft.step (h : SumLeft s t u) :
    SumLeft (mulStep s) (mulStep t) (mulStep u) := by
  obtain ⟨hr,ha,hs,ht⟩ := h
  simp only [mulStep_eq]
  refine ⟨?_,?_,?_,?_⟩
  · rw [hr,ha,hs,ht,contribution_xor_left]
    exact xor_xor_xor_comm _ _ _ _
  · exact (congrArg xtime ha).trans (xtime_xor _ _)
  · rw [hs]
  · rw [ht]

lemma SumRight.step (h : SumRight s t u) :
    SumRight (mulStep s) (mulStep t) (mulStep u) := by
  obtain ⟨hr,hs,ht,hb⟩ := h
  simp only [mulStep_eq]
  refine ⟨?_,?_,?_,?_⟩
  · rw [hr,hs,ht,hb,contribution_xor_right]
    exact xor_xor_xor_comm _ _ _ _
  · rw [hs]
  · rw [ht]
  · rw [hb,UInt8.shiftRight_xor]

lemma SumLeft.iterate (h : SumLeft s t u) (n : ℕ) :
    SumLeft (mulStep^[n] s) (mulStep^[n] t) (mulStep^[n] u) := by
  induction n generalizing s t u with
  | zero => exact h
  | succ n ih => exact ih h.step

lemma SumRight.iterate (h : SumRight s t u) (n : ℕ) :
    SumRight (mulStep^[n] s) (mulStep^[n] t) (mulStep^[n] u) := by
  induction n generalizing s t u with
  | zero => exact h
  | succ n ih => exact ih h.step

lemma gfMul_xor_left (a a' b : UInt8) : gfMul (a ^^^ a') b = gfMul a b ^^^ gfMul a' b := by
  have h : SumLeft ⟨0,a,b⟩ ⟨0,a',b⟩ ⟨0,a ^^^ a',b⟩ := ⟨by simp,rfl,rfl,rfl⟩
  unfold gfMul
  rw [(h.iterate 8).1,UInt16.toUInt8_xor]

lemma gfMul_xor_right (a b b' : UInt8) : gfMul a (b ^^^ b') = gfMul a b ^^^ gfMul a b' := by
  have h : SumRight ⟨0,a,b⟩ ⟨0,a,b'⟩ ⟨0,a,b ^^^ b'⟩ := ⟨by simp,rfl,rfl,rfl⟩
  unfold gfMul
  rw [(h.iterate 8).1,UInt16.toUInt8_xor]

/-! Laws that are additive in every argument hold once they hold on one-bit bytes. -/

def oneBit : List UInt8 := [1,2,4,8,16,32,64,128]

lemma byte_eq_sum_bits : ∀ a : UInt8,
    oneBit.foldr (fun m x => if a &&& m ≠ 0 then m ^^^ x else x) 0 = a := by decide +kernel

lemma additive_ext {f g : UInt8 → UInt8} (hf : ∀ a b, f (a ^^^ b) = f a ^^^ f b)
    (hg : ∀ a b, g (a ^^^ b) = g a ^^^ g b) (h : ∀ m ∈ oneBit, f m = g m) (a : UInt8) :
    f a = g a := by
  have zero_of_additive {k : UInt8 → UInt8} (hk : ∀ a b, k (a ^^^ b) = k a ^^^ k b) : k 0 = 0 := by
    have h0 := hk 0 0
    rwa [UInt8.xor_self,UInt8.xor_self] at h0
  have hl : ∀ ms : List UInt8, (∀ m ∈ ms, m ∈ oneBit) →
      f (ms.foldr (fun m x => if a &&& m ≠ 0 then m ^^^ x else x) 0) =
        g (ms.foldr (fun m x => if a &&& m ≠ 0 then m ^^^ x else x) 0) := by
    intro ms
    induction ms with
    | nil =>
      intro _
      exact (zero_of_additive hf).trans (zero_of_additive hg).symm
    | cons m ms ih =>
      intro hm
      have ht := ih (fun x hx => hm x (List.mem_cons_of_mem _ hx))
      rw [List.foldr_cons]
      split_ifs with hbit
      · rw [hf,hg,ht,h m (hm m (List.mem_cons_self ..))]
      · exact ht
  have hall := hl oneBit (fun _ hm => hm)
  rwa [byte_eq_sum_bits] at hall

lemma gfMul_comm (a b : UInt8) : gfMul a b = gfMul b a := by
  apply additive_ext (f := fun a => gfMul a b) (g := fun a => gfMul b a)
  · intro x y; exact gfMul_xor_left x y b
  · intro x y; exact gfMul_xor_right b x y
  intro m hm
  apply additive_ext (f := fun b => gfMul m b) (g := fun b => gfMul b m)
  · intro x y; exact gfMul_xor_right m x y
  · intro x y; exact gfMul_xor_left x y m
  revert m
  decide +kernel

lemma one_gfMul (a : UInt8) : gfMul 1 a = a := by
  apply additive_ext (f := gfMul 1) (g := id)
  · exact gfMul_xor_right 1
  · intro x y; rfl
  decide +kernel

lemma gfMul_xtime (a b : UInt8) : gfMul a (xtime b) = xtime (gfMul a b) := by
  apply additive_ext (f := fun a => gfMul a (xtime b)) (g := fun a => xtime (gfMul a b))
  · intro x y; exact gfMul_xor_left x y _
  · intro x y; simp only [gfMul_xor_left,xtime_xor]
  intro m hm
  apply additive_ext (f := fun b => gfMul m (xtime b)) (g := fun b => xtime (gfMul m b))
  · intro x y; simp only [xtime_xor,gfMul_xor_right]
  · intro x y; simp only [gfMul_xor_right,xtime_xor]
  revert m
  decide +kernel

lemma gfMul_xtime_iterate (a b : UInt8) (n : ℕ) :
    gfMul a (xtime^[n] b) = xtime^[n] (gfMul a b) := by
  induction n generalizing b with
  | zero => rfl
  | succ n ih => rw [Function.iterate_succ_apply,Function.iterate_succ_apply,ih,gfMul_xtime]

lemma oneBit_eq_xtime : ∀ m ∈ oneBit, ∃ n < 8, m = xtime^[n] 1 := by decide +kernel

lemma gfMul_assoc (a b c : UInt8) : gfMul (gfMul a b) c = gfMul a (gfMul b c) := by
  apply additive_ext (f := fun c => gfMul (gfMul a b) c) (g := fun c => gfMul a (gfMul b c))
  · intro x y; exact gfMul_xor_right _ x y
  · intro x y; simp only [gfMul_xor_right]
  intro m hm
  obtain ⟨n,_,rfl⟩ := oneBit_eq_xtime m hm
  have hone (x : UInt8) : gfMul x (xtime^[n] 1) = xtime^[n] x := by
    rw [gfMul_xtime_iterate,gfMul_comm,one_gfMul]
  simp only [hone,gfMul_xtime_iterate]

/-- A byte read as an element of GF(256) modulo 0x11D. -/
@[ext] structure GF256 where
  byte : UInt8
  deriving DecidableEq, Repr

namespace GF256

instance : Add GF256 := ⟨fun a b => ⟨gfAdd a.byte b.byte⟩⟩
instance : Mul GF256 := ⟨fun a b => ⟨gfMul a.byte b.byte⟩⟩
instance : Neg GF256 := ⟨fun a => a⟩
instance : Zero GF256 := ⟨⟨0⟩⟩
instance : One GF256 := ⟨⟨1⟩⟩

instance : CommRing GF256 := CommRing.ofMinimalAxioms
  (fun a b c => GF256.ext (UInt8.xor_assoc a.byte b.byte c.byte))
  (fun _ => GF256.ext UInt8.zero_xor)
  (fun _ => GF256.ext UInt8.xor_self)
  (fun a b c => GF256.ext (gfMul_assoc a.byte b.byte c.byte))
  (fun a b => GF256.ext (gfMul_comm a.byte b.byte))
  (fun a => GF256.ext (one_gfMul a.byte))
  (fun a b c => GF256.ext (gfMul_xor_right a.byte b.byte c.byte))

instance : Nontrivial GF256 := ⟨0,1,fun h => absurd (congrArg GF256.byte h) (by decide)⟩

lemma mk_add (a b : UInt8) : (⟨gfAdd a b⟩ : GF256) = ⟨a⟩+⟨b⟩ := rfl
lemma mk_mul (a b : UInt8) : (⟨gfMul a b⟩ : GF256) = ⟨a⟩*⟨b⟩ := rfl

lemma mk_gfPowLoop (fuel : ℕ) (a r : UInt8) (n : ℕ) (h : n ≤ fuel) :
    (⟨gfPowLoop fuel a n r⟩ : GF256) = ⟨r⟩*⟨a⟩^n := by
  induction fuel generalizing a r n with
  | zero =>
    obtain rfl : n = 0 := by omega
    simp [gfPowLoop]
  | succ fuel ih =>
    unfold gfPowLoop
    by_cases hn : n > 0
    · rw [if_pos hn,ih _ _ _ (by omega),mk_mul]
      have he : n = 2*(n/2)+n % 2 := by omega
      conv_rhs => rw [he,pow_add,pow_mul,pow_two]
      rcases Nat.mod_two_eq_zero_or_one n with h0 | h1
      · simp [h0]
      · rw [if_pos h1,h1,mk_mul]
        ring
    · obtain rfl : n = 0 := by omega
      simp

lemma mk_gfPow (a : UInt8) (n : ℕ) : (⟨gfPow a n⟩ : GF256) = ⟨a⟩^n := by
  unfold gfPow
  rw [mk_gfPowLoop _ _ _ _ (by simp)]
  simp [show (⟨1⟩ : GF256) = 1 from rfl]

/-! Inversion. The byte 2 has multiplicative order 255, so its powers are all nonzero bytes. -/

def equivFin : GF256 ≃ Fin UInt8.size where
  toFun a := a.byte.toFin
  invFun i := ⟨UInt8.ofFin i⟩
  left_inv _ := rfl
  right_inv _ := rfl

instance : Fintype GF256 := Fintype.ofEquiv _ equivFin.symm

lemma card_eq : Fintype.card GF256 = 256 :=
  (Fintype.card_congr equivFin).trans (Fintype.card_fin UInt8.size)

def generator : GF256 := ⟨2⟩

lemma orderOf_generator : orderOf generator = 255 := by
  apply orderOf_eq_of_pow_and_pow_div_prime (by decide)
  · decide +kernel
  · intro p hp hd
    have hfactors : p ∣ 3*5 ∨ p ∣ 17 := (Nat.Prime.dvd_mul hp).mp hd
    rw [Nat.Prime.dvd_mul hp,Nat.prime_dvd_prime_iff_eq hp (by norm_num),
      Nat.prime_dvd_prime_iff_eq hp (by norm_num),
      Nat.prime_dvd_prime_iff_eq hp (by norm_num)] at hfactors
    rcases hfactors with (rfl | rfl) | rfl <;> decide +kernel

lemma generator_isUnit : IsUnit generator :=
  IsUnit.of_pow_eq_one (orderOf_generator ▸ pow_orderOf_eq_one generator) (by decide)

lemma exists_generator_pow {a : GF256} (ha : a ≠ 0) : ∃ n, a = generator^n := by
  have hsub : (Finset.range 255).image (fun n => generator^n) ⊆ Finset.univ.erase (0 : GF256) := by
    intro x hx
    obtain ⟨n,_,rfl⟩ := Finset.mem_image.mp hx
    exact Finset.mem_erase.mpr ⟨(generator_isUnit.pow n).ne_zero,Finset.mem_univ _⟩
  have hcard : ((Finset.range 255).image (fun n => generator^n)).card = 255 := by
    rw [Finset.card_image_of_injOn,Finset.card_range]
    intro m hm n hn h
    apply pow_injOn_Iio_orderOf _ _ h
    · rw [orderOf_generator]; simpa using hm
    · rw [orderOf_generator]; simpa using hn
  have heq := Finset.eq_of_subset_of_card_le hsub (by
    rw [hcard,Finset.card_erase_of_mem (Finset.mem_univ _),Finset.card_univ,card_eq])
  have hmem : a ∈ (Finset.range 255).image (fun n => generator^n) :=
    heq ▸ Finset.mem_erase.mpr ⟨ha,Finset.mem_univ a⟩
  obtain ⟨n,_,h⟩ := Finset.mem_image.mp hmem
  exact ⟨n,h.symm⟩

lemma mul_gfInv {a : GF256} (ha : a ≠ 0) : a*⟨gfInv a.byte⟩ = 1 := by
  obtain ⟨n,rfl⟩ := exists_generator_pow ha
  have hone : generator^255 = 1 := orderOf_generator ▸ pow_orderOf_eq_one generator
  have hinv : (⟨gfInv (generator^n).byte⟩ : GF256) = (generator^n)^254 := mk_gfPow _ 254
  rw [hinv,← pow_succ',← pow_mul,mul_comm n,pow_mul,hone,one_pow]

/-- The code's own operations form a field. -/
instance : Field GF256 where
  inv a := ⟨gfInv a.byte⟩
  mul_inv_cancel _ ha := mul_gfInv ha
  inv_zero := GF256.ext (by decide +kernel)
  nnqsmul := _
  qsmul := _

lemma mk_div (a b : UInt8) : (⟨gfDiv a b⟩ : GF256) = ⟨a⟩/⟨b⟩ := by
  rfl

lemma mk_injective : Function.Injective GF256.mk := fun _ _ h => congrArg GF256.byte h

instance : CharP GF256 2 := CharTwo.of_one_ne_zero_of_two_eq_zero one_ne_zero
  (by rw [← one_add_one_eq_two]; exact GF256.ext UInt8.xor_self)

end GF256
end SmoFramework.Crypto
