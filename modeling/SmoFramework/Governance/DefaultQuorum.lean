import Mathlib.Data.Finset.Card
import SmoFramework.Governance.Engine

/-! The default quorum for any number of authorities below the limit where `3N+3` no longer fits an
`int`: three roundings, their order, and that two quorums share an authority. -/
namespace SmoFramework.Governance

def tierQuorum (tier : GovernanceTier) (n : ℤ) : ℤ :=
  match tier with
  | .unanimous => n
  | .constitution => (3*n+3)/4
  | .membership => (2*n+2)/3

lemma toInt_max (x y : Int32) : (max x y).toInt = max x.toInt y.toInt := by
  change (if x ≤ y then y else x).toInt = _
  split_ifs with h <;> rw [Int32.le_iff_toInt_le] at h <;> omega

lemma toInt_rounded {k' d' : ℤ} {k d N : Int32} (hk : k.toInt = k') (hd : d.toInt = d')
    (hk' : 0 ≤ k')
    (hd' : 0 < d') (hN : 0 ≤ N.toInt) (hfits : k'*N.toInt+k' < 2^31) :
    ((k*N+k)/d).toInt = (k'*N.toInt+k')/d' := by
  have hprod : 0 ≤ k'*N.toInt := Int.mul_nonneg hk' hN
  have hmul : (k*N).toInt = k'*N.toInt := by
    rw [Int32.toInt_mul,hk,Int.bmod_eq_of_le] <;> omega
  have hadd : (k*N+k).toInt = k'*N.toInt+k' := by
    rw [Int32.toInt_add,hmul,hk,Int.bmod_eq_of_le] <;> omega
  have hle : (k'*N.toInt+k')/d' ≤ k'*N.toInt+k' := Int.ediv_le_self _ (by omega)
  have hpos : 0 ≤ (k'*N.toInt+k')/d' := Int.ediv_nonneg (by omega) hd'.le
  rw [Int32.toInt_div,hadd,hd,Int.tdiv_eq_ediv_of_nonneg (by omega),Int.bmod_eq_of_le] <;> omega

lemma toInt_defaultQuorum {N : Int32} (a : GovernanceAction) (hN : 1 ≤ N.toInt)
    (hN' : N.toInt ≤ 715827881) :
    (defaultQuorum a N).toInt = tierQuorum (actionToTier a) N.toInt := by
  have hsome : ¬N < 1 := by
    rw [Int32.lt_iff_toInt_lt]
    exact not_lt.mpr hN
  rw [defaultQuorum,if_neg hsome]
  cases actionToTier a with
  | unanimous => rfl
  | constitution =>
    have hround : ((3*N+3)/4).toInt = (3*N.toInt+3)/4 :=
      toInt_rounded rfl rfl (by decide) (by decide) (by omega) (by omega)
    rw [toInt_max,hround]
    exact max_eq_right (show 1 ≤ (3*N.toInt+3)/4 by omega)
  | membership =>
    have hround : ((2*N+2)/3).toInt = (2*N.toInt+2)/3 :=
      toInt_rounded rfl rfl (by decide) (by decide) (by omega) (by omega)
    rw [toInt_max,hround]
    exact max_eq_right (show 1 ≤ (2*N.toInt+2)/3 by omega)

variable {n m : ℤ}

lemma tierQuorum_bounds (tier : GovernanceTier) (h : 1 ≤ n) :
    1 ≤ tierQuorum tier n ∧ tierQuorum tier n ≤ n := by
  cases tier <;> simp only [tierQuorum] <;> omega

lemma lt_two_mul_tierQuorum (tier : GovernanceTier) (h : 1 ≤ n) : n < 2*tierQuorum tier n := by
  cases tier <;> simp only [tierQuorum] <;> omega

lemma tierQuorum_mono (tier : GovernanceTier) (h : n ≤ m) : tierQuorum tier n ≤ tierQuorum tier m := by
  cases tier <;> simp only [tierQuorum] <;> omega

/-- For every action and every number of authorities: a quorum is between one and all of them, two sets
of so many authorities meet, a stricter tier asks for no less, and more authorities for no less. -/
theorem defaultQuorum_sound (N : Int32) (hN : 1 ≤ N.toInt) (hN' : N.toInt ≤ 715827881) :
    (∀ a, 1 ≤ (defaultQuorum a N).toInt ∧ (defaultQuorum a N).toInt ≤ N.toInt ∧
      ∀ (α : Type) (A X Y : Finset α), A.card = N.toInt → X ⊆ A → Y ⊆ A →
        (defaultQuorum a N).toInt ≤ X.card → (defaultQuorum a N).toInt ≤ Y.card → ∃ x ∈ X, x ∈ Y) ∧
    (∀ m c u, actionToTier m = .membership → actionToTier c = .constitution →
      actionToTier u = .unanimous → (defaultQuorum m N).toInt ≤ (defaultQuorum c N).toInt ∧
        (defaultQuorum c N).toInt ≤ (defaultQuorum u N).toInt) ∧
    ∀ (a : GovernanceAction) (M : Int32), N.toInt ≤ M.toInt → M.toInt ≤ 715827881 →
      (defaultQuorum a N).toInt ≤ (defaultQuorum a M).toInt := by
  refine ⟨fun a => ?_,fun m c u hm hc hu => ?_,fun a M hM hM' => ?_⟩
  · rw [toInt_defaultQuorum a hN hN']
    obtain ⟨hlow,hhigh⟩ := tierQuorum_bounds (actionToTier a) hN
    refine ⟨hlow,hhigh,fun α A X Y hA hX hY hqX hqY => ?_⟩
    have htwice := lt_two_mul_tierQuorum (actionToTier a) hN
    classical
    obtain ⟨x,hx⟩ := Finset.inter_nonempty_of_card_lt_card_add_card hX hY (by omega)
    exact ⟨x,Finset.mem_inter.mp hx⟩
  · rw [toInt_defaultQuorum m hN hN',toInt_defaultQuorum c hN hN',toInt_defaultQuorum u hN hN',hm,hc,hu]
    simp only [tierQuorum]
    omega
  · rw [toInt_defaultQuorum a hN hN',toInt_defaultQuorum a (hN.trans hM) hM']
    exact tierQuorum_mono _ hM

theorem defaultQuorum_sound_five : (defaultQuorum .addAuthority 5).toInt = 4 ∧
      (defaultQuorum .addAuthority 5).toInt ≤ (defaultQuorum .addAuthority 9).toInt := by
  obtain ⟨-,-,hmono⟩ := defaultQuorum_sound 5 (by decide) (by decide)
  exact ⟨by decide,hmono .addAuthority 9 (by decide) (by decide)⟩

end SmoFramework.Governance
