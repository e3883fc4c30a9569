import Mathlib.Data.List.GetD
import SmoFramework.Crypto.Shamir
import SmoFramework.Library.SecretPolynomial

/-! Recovery: any `M` of the returned shares determine the secret. The loops over shares are read
as a sum of products in GF(256), where Lagrange interpolation at zero applies. -/
namespace SmoFramework.Crypto
open SmoFramework.Library SecretPolynomial List ShamirShare GF256
open scoped BigOperators

def fieldCoeffs (cs : Bytes) : List GF256 := cs.map GF256.mk

lemma evaluate_loop (cs : Bytes) (x y p : UInt8) :
    (⟨(cs.foldl (fun (s : UInt8 × UInt8) c => (gfAdd s.1 (gfMul c s.2),gfMul s.2 x)) (y,p)).1⟩ :
      GF256) = ⟨y⟩+⟨p⟩*evalCoeffs (fieldCoeffs cs) ⟨x⟩ := by
  induction cs generalizing y p with
  | nil => simp [fieldCoeffs,evalCoeffs]
  | cons c cs ih =>
    rw [foldl_cons,ih]
    simp only [fieldCoeffs,map_cons,evalCoeffs,mk_add,mk_mul]
    ring

theorem mk_evaluate (cs : Bytes) (x : UInt8) :
    (⟨evaluate cs x⟩ : GF256) = evalCoeffs (fieldCoeffs cs) ⟨x⟩ := by
  unfold evaluate
  rw [evaluate_loop]
  simp [show (⟨0⟩ : GF256) = 0 from rfl,show (⟨1⟩ : GF256) = 1 from rfl]

lemma mk_foldl_add (f : ℕ → UInt8) (n : ℕ) (acc : UInt8) :
    (⟨(List.range n).foldl (fun acc i => gfAdd acc (f i)) acc⟩ : GF256) =
      ⟨acc⟩+∑ i ∈ Finset.range n, (⟨f i⟩ : GF256) := by
  induction n with
  | zero => simp
  | succ n ih =>
    rw [range_succ,foldl_append,foldl_cons,foldl_nil,mk_add,ih,Finset.sum_range_succ,add_assoc]

lemma mk_foldl_mul_skip (f : ℕ → UInt8) (n i : ℕ) :
    (⟨(List.range n).foldl (fun acc j => if i = j then acc else gfMul acc (f j)) 1⟩ : GF256) =
      ∏ j ∈ (Finset.range n).erase i, (⟨f j⟩ : GF256) := by
  induction n with
  | zero => rfl
  | succ n ih =>
    rw [range_succ,foldl_append,foldl_cons,foldl_nil,Finset.range_add_one]
    split_ifs with hin
    · subst hin
      rw [ih,Finset.erase_insert Finset.notMem_range_self,
        Finset.erase_eq_of_notMem Finset.notMem_range_self]
    · rw [mk_mul,ih,Finset.erase_insert_of_ne (Ne.symm hin),Finset.prod_insert,mul_comm]
      exact fun h => Finset.notMem_range_self (Finset.mem_of_mem_erase h)

lemma mk_lagrangeCoeff (shares : List ShamirShare) (M i : ℕ) :
    (⟨lagrangeCoeff shares M i⟩ : GF256) = ∏ j ∈ (Finset.range M).erase i,
      (⟨(shares.getD j default).index⟩ : GF256)/
        (⟨(shares.getD j default).index⟩-⟨(shares.getD i default).index⟩) := by
  unfold lagrangeCoeff
  rw [mk_foldl_mul_skip]
  apply Finset.prod_congr rfl
  intro j _
  rw [mk_div,mk_add,CharTwo.sub_eq_add]

lemma recoverByte_eq (shares : List ShamirShare) (M bytePos : ℕ) (c : UInt8) (cs : Bytes)
    (hlen : (c::cs).length = M)
    (hinj : Set.InjOn (fun i => (shares.getD i default).index) (Finset.range M))
    (heval : ∀ i < M, (shares.getD i default).y.getD bytePos 0 =
      evaluate (c::cs) (shares.getD i default).index) : recoverByte shares M bytePos = c := by
  apply mk_injective
  unfold recoverByte
  rw [mk_foldl_add,show (⟨0⟩ : GF256) = 0 from rfl,zero_add]
  let v (i : ℕ) : GF256 := ⟨(shares.getD i default).index⟩
  have hdeg : (toPoly (fieldCoeffs (c::cs))).degree < (Finset.range M).card := by
    rw [← hlen]
    simpa [fieldCoeffs] using degree_toPoly_lt (fieldCoeffs (c::cs))
  have hzero := eval_zero_eq_sum (Finset.range M) v (mk_injective.comp_injOn hinj) _ hdeg
  have hsecret : (toPoly (fieldCoeffs (c::cs))).eval 0 = (⟨c⟩ : GF256) := by
    rw [eval_toPoly]
    simp [fieldCoeffs,evalCoeffs]
  rw [← hsecret,hzero]
  apply Finset.sum_congr rfl
  intro i hi
  rw [mk_mul,heval i (Finset.mem_range.mp hi),mk_lagrangeCoeff,mk_evaluate,eval_toPoly]

lemma checkShares_eq_none
    (h : ∀ s ∈ shares, s.y.length = 32 ∧ s.index ≠ 0) : checkShares shares = none := by
  induction shares with
  | nil => rfl
  | cons s shares ih =>
    obtain ⟨hy,hi⟩ := h s (mem_cons_self ..)
    unfold checkShares
    rw [if_neg (not_ne_iff.mpr hy),if_neg hi]
    exact ih (fun t ht => h t (mem_cons_of_mem _ ht))

variable {σ : Type*}

variable {rng : RngRef σ} {secret : Bytes} {M : UInt8}

/-- Every share of a split lies on the 32 polynomials, at a nonzero index up to `N`. -/
theorem mem_sharesOf (h : s ∈ sharesOf rng ctx secret N M) :
    s.index ≠ 0 ∧ s.index ≤ N ∧
      s.y = (List.range 32).map (fun b => evaluate (drawCoeffs rng M ctx secret b) s.index) := by
  obtain ⟨i,hi,rfl⟩ := mem_map.mp h
  have hi' := mem_range.mp hi
  have hN := N.toNat_lt
  have hnat : (UInt8.ofNat (i+1)).toNat = i+1 := UInt8.toNat_ofNat_of_lt' (by simp [UInt8.size]; omega)
  refine ⟨?_,?_,rfl⟩
  · intro h0
    have hz : (UInt8.ofNat (i+1)).toNat = 0 := congrArg UInt8.toNat h0
    omega
  · rw [UInt8.le_iff_toNat_le,hnat]
    omega

lemma sharesOf_index_injOn
    (hs : s ∈ sharesOf rng ctx secret N M) (ht : t ∈ sharesOf rng ctx secret N M)
    (h : s.index = t.index) : s = t := by
  have hsy := (mem_sharesOf hs).2.2
  have hty := (mem_sharesOf ht).2.2
  cases s; cases t
  simp_all

variable {chosen : List ShamirShare}

lemma index_injOn {M : ℕ} (hidx : (chosen.map ShamirShare.index).Nodup) (hM : M ≤ chosen.length) :
    Set.InjOn (fun i => (chosen.getD i default).index) (Finset.range M) := by
  intro i hi j hj he
  have hi' : i < chosen.length := (Finset.mem_range.mp hi).trans_le hM
  have hj' : j < chosen.length := (Finset.mem_range.mp hj).trans_le hM
  simp only [getD_eq_getElem _ _ hi',getD_eq_getElem _ _ hj'] at he
  have hib : i < (chosen.map index).length := by simpa using hi'
  have hjb : j < (chosen.map index).length := by simpa using hj'
  have hmap : (chosen.map index)[i] = (chosen.map index)[j] := by
    simpa using he
  exact hidx.getElem_inj_iff.mp hmap

lemma shamirRecover_eq (hM0 : M ≠ 0) (hM : M.toNat ≤ chosen.length) (hcount : chosen.length ≤ 255)
    (hshares : ∀ s ∈ chosen, s.y.length = 32 ∧ s.index ≠ 0)
    (hidx : (chosen.map ShamirShare.index).Nodup) :
    shamirRecover chosen M = .ok ((List.range 32).map (recoverByte chosen M.toNat)) := by
  unfold shamirRecover
  rw [if_neg (by omega),if_neg hM0,if_neg (by omega),checkShares_eq_none hshares]
  simp only [hidx,not_true_eq_false,if_false]

theorem shamirRecover_sharesOf (hs : secret.length = 32) (hM0 : M ≠ 0)
    (hsub : ∀ s ∈ chosen, s ∈ sharesOf rng ctx secret N M)
    (hidx : (chosen.map ShamirShare.index).Nodup) (hM : M.toNat ≤ chosen.length) :
    shamirRecover chosen M = .ok secret := by
  have hcount : chosen.length ≤ 255 := by
    have hle : chosen.length ≤ (sharesOf rng ctx secret N M).length :=
      (hidx.of_map.subperm (fun s hs' => hsub s hs')).length_le
    have hN := N.toNat_lt
    rw [sharesOf,shareTable_length] at hle
    omega
  have hshares : ∀ s ∈ chosen, s.y.length = 32 ∧ s.index ≠ 0 := by
    intro s hs'
    obtain ⟨h0,_,hy⟩ := mem_sharesOf (hsub s hs')
    exact ⟨by rw [hy]; simp,h0⟩
  rw [shamirRecover_eq hM0 hM hcount hshares hidx]
  congr 1
  apply ext_getElem
  · simp [hs]
  intro b hb hb'
  have hb32 : b < 32 := by simpa using hb
  rw [getElem_map,getElem_range]
  rw [recoverByte_eq chosen M.toNat b (secret.getD b 0) (randomCoeffs rng M (drawCtx rng M ctx b)).1]
  · exact getD_eq_getElem _ _ hb'
  · exact drawCoeffs_length rng hM0 ctx secret b
  · exact index_injOn hidx hM
  · intro i hi
    have hmem : chosen.getD i default ∈ chosen := by
      rw [getD_eq_getElem _ _ (hi.trans_le hM)]
      exact getElem_mem _
    rw [(mem_sharesOf (hsub _ hmem)).2.2]
    simp [hb32,drawCoeffs]

/-- Any list of at least `M` different shares of a successful split recovers the secret. -/
theorem shamirRecover_split (fuel : ℕ) (rng : RngRef σ) (ctx ctx' : σ) (secret : Bytes)
    (N M : UInt8) (shares : List ShamirShare)
    (h : shamirSplit fuel rng ctx secret N M = some (.ok shares,ctx'))
    (chosen : List ShamirShare) (hsub : ∀ s ∈ chosen, s ∈ shares) (hnodup : chosen.Nodup)
    (hM : M.toNat ≤ chosen.length) : shamirRecover chosen M = .ok secret := by
  obtain ⟨hs,hM0,_,_,rfl⟩ := shamirSplit_ok h
  have hidx : (chosen.map index).Nodup :=
    hnodup.map_on (fun s hs' t ht he => sharesOf_index_injOn (hsub s hs') (hsub t ht) he)
  exact shamirRecover_sharesOf hs hM0 hsub hidx hM

theorem shamirRecover_split_two_of_three :
    shamirRecover [⟨3,List.replicate 32 4⟩,⟨1,List.replicate 32 6⟩] 2 = .ok (List.replicate 32 7) :=
  shamirRecover_split 4 (constRng 1) () () (replicate 32 7) 3 2
    [⟨1,replicate 32 6⟩,⟨2,replicate 32 5⟩,⟨3,replicate 32 4⟩] (by decide +kernel)
    [⟨3,replicate 32 4⟩,⟨1,replicate 32 6⟩] (by decide) (by decide) (by decide)

end SmoFramework.Crypto
