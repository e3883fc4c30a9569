import Mathlib.LinearAlgebra.Lagrange

/-! Threshold sharing by polynomial evaluation over a field: as many values as there are
coefficients give the secret back; fewer leave it free, because a mask polynomial moves the secret
while vanishing at the observed points. -/
namespace SmoFramework.Library.SecretPolynomial
open Polynomial List
open scoped BigOperators

variable {F : Type*} [Field F]

/-- Value at `x` of the polynomial with coefficients `cs`, constant term first. -/
def evalCoeffs : List F → F → F
  | [], _ => 0
  | c::cs, x => c+x*evalCoeffs cs x

noncomputable def toPoly : List F → F[X]
  | [] => 0
  | c::cs => C c+X*toPoly cs

lemma eval_toPoly (cs : List F) (x : F) : (toPoly cs).eval x = evalCoeffs cs x := by
  induction cs with
  | nil => simp [toPoly,evalCoeffs]
  | cons c cs ih => simp [toPoly,evalCoeffs,ih]

lemma degree_toPoly_lt (cs : List F) : (toPoly cs).degree < cs.length := by
  induction cs with
  | nil => simp [toPoly]
  | cons c cs ih =>
    have hx : (X*toPoly cs).degree < ((c::cs).length : WithBot ℕ) := by
      rw [degree_mul,degree_X,add_comm,length_cons,Nat.cast_add]
      exact WithBot.add_lt_add_right (by simp) ih
    have hc : (C c).degree < ((c::cs).length : WithBot ℕ) :=
      degree_C_le.trans_lt (by exact_mod_cast Nat.succ_pos _)
    exact (degree_add_le _ _).trans_lt (max_lt hc hx)

lemma evalCoeffs_coeff (p : F[X]) (m : ℕ) (h : p.degree < m) (x : F) :
    evalCoeffs ((List.range m).map p.coeff) x = p.eval x := by
  have hsum : ∀ (k : ℕ) (f : ℕ → F),
      evalCoeffs ((range k).map f) x = ∑ i ∈ Finset.range k, f i*x^i := by
    intro k
    induction k with
    | zero => intro f; simp [evalCoeffs]
    | succ k ih =>
      intro f
      rw [range_succ_eq_map,map_cons,map_map,evalCoeffs,ih,
        Finset.sum_range_succ',Finset.mul_sum,add_comm]
      congr 1
      · apply Finset.sum_congr rfl
        intro i _
        simp only [Function.comp_apply,pow_succ]
        ring
      · simp
  rw [hsum]
  by_cases hp : p = 0
  · simp [hp]
  · exact (eval_eq_sum_range' ((natDegree_lt_iff_degree_lt hp).mpr h) x).symm

lemma evalCoeffs_zipWith_add (cs ds : List F) (h : cs.length = ds.length) (x : F) :
    evalCoeffs (List.zipWith (· + ·) cs ds) x = evalCoeffs cs x+evalCoeffs ds x := by
  induction cs generalizing ds with
  | nil =>
    obtain rfl : ds = [] := length_eq_zero_iff.mp h.symm
    simp [evalCoeffs]
  | cons c cs ih =>
    cases ds with
    | nil => cases h
    | cons d ds =>
      simp only [zipWith_cons_cons,evalCoeffs,ih ds (by simpa using h)]
      ring

lemma eval_zero_eq_sum {ι : Type*} [DecidableEq ι] (s : Finset ι) (v : ι → F)
    (hv : Set.InjOn v s) (p : F[X]) (hp : p.degree < s.card) :
    p.eval 0 = ∑ i ∈ s, p.eval (v i)*∏ j ∈ s.erase i, v j/(v j-v i) := by
  conv_lhs => rw [Lagrange.eq_interpolate hv hp]
  rw [Lagrange.interpolate_apply,eval_finsetSum]
  apply Finset.sum_congr rfl
  intro i hi
  rw [eval_mul,eval_C,Lagrange.basis,eval_prod]
  congr 1
  apply Finset.prod_congr rfl
  intro j hj
  have hne : v j-v i ≠ 0 := sub_ne_zero.mpr (fun he =>
    (Finset.mem_erase.mp hj).1 (hv (Finset.mem_of_mem_erase hj) hi he))
  rw [Lagrange.basisDivisor,eval_mul,eval_C,eval_sub,eval_X,eval_C,zero_sub,
    ← neg_sub (v j) (v i),inv_neg,neg_mul_neg,mul_comm,div_eq_mul_inv]

variable (points : Finset F)

/-- The product of `1-X/x` over the observed points: one at zero, zero at every point. -/
noncomputable def mask : F[X] := ∏ x ∈ points, (1-C x⁻¹*X)

lemma mask_eval_zero : (mask points).eval 0 = 1 := by
  simp [mask,eval_prod]

lemma mask_eval_point {x : F} {points : Finset F} (hx : x ∈ points) (h0 : x ≠ 0) :
    (mask points).eval x = 0 := by
  rw [mask,eval_prod]
  apply Finset.prod_eq_zero hx
  simp [h0]

lemma mask_degree_le : (mask points).degree ≤ points.card := by
  have hfactor (x : F) : (1-C x⁻¹*X : F[X]).degree ≤ 1 :=
    (degree_sub_le _ _).trans (max_le (degree_one_le.trans (by decide)) (degree_C_mul_X_le _))
  calc (mask points).degree ≤ ∑ x ∈ points, (1-C x⁻¹*X : F[X]).degree := degree_prod_le _ _
    _ ≤ ∑ _x ∈ points, (1 : WithBot ℕ) := Finset.sum_le_sum (fun x _ => hfactor x)
    _ = points.card := by simp

lemma exists_mask_coeffs (h0 : (0 : F) ∉ points) (m : ℕ)
    (hm : points.card < m) (δ : F) :
    ∃ ds : List F, ds.length+1 = m ∧ ∀ x ∈ points, evalCoeffs (δ::ds) x = 0 := by
  let p : F[X] := C δ*mask points
  have hdeg : p.degree < m := by
    calc p.degree ≤ (C δ).degree+(mask points).degree := degree_mul_le _ _
      _ ≤ 0+points.card := add_le_add degree_C_le (mask_degree_le points)
      _ < m := by rw [zero_add]; exact_mod_cast hm
  obtain ⟨k,rfl⟩ : ∃ k, m = k+1 := ⟨m-1,by omega⟩
  have hcoeff : p.coeff 0 = δ := by
    rw [coeff_zero_eq_eval_zero,eval_mul,eval_C,mask_eval_zero,mul_one]
  refine ⟨(range k).map (fun i => p.coeff (i+1)),by simp,?_⟩
  intro x hx
  have hlist : δ::(range k).map (fun i => p.coeff (i+1)) = (range (k+1)).map p.coeff := by
    rw [range_succ_eq_map,map_cons,map_map,hcoeff]
    rfl
  rw [hlist,evalCoeffs_coeff p _ hdeg,eval_mul,mask_eval_point hx (fun he => h0 (he ▸ hx)),mul_zero]

end SmoFramework.Library.SecretPolynomial
