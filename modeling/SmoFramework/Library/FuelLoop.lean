import Mathlib.Order.Basic

/-! Loops whose termination is a theorem and not a side condition. A loop runs under a fuel
bound and answers `none` when the bound is used up, so a loop that never ends is the one that
answers `none` for every bound. -/
namespace SmoFramework.Library.FuelLoop

variable {σ : Type*}

/-- `while (cond) body`, with at most `fuel` evaluations of the condition. -/
def while_ (cond : σ → Bool) (body : σ → σ) : ℕ → σ → Option σ
  | 0, _ => none
  | fuel+1, s => if cond s then while_ cond body fuel (body s) else some s

variable {cond : σ → Bool} {body : σ → σ} {fuel : ℕ} {s t : σ}

lemma while_mono {fuel' : ℕ} (h : while_ cond body fuel s = some t)
    (hle : fuel ≤ fuel') : while_ cond body fuel' s = some t := by
  induction fuel generalizing fuel' s with
  | zero => cases h
  | succ fuel ih =>
    obtain ⟨k,rfl⟩ : ∃ k, fuel' = k+1 := ⟨fuel'-1,by omega⟩
    unfold while_ at h ⊢
    split_ifs at h ⊢ with hc
    · exact ih h (by omega)
    · exact h

lemma while_diverges (I : σ → Prop) (step : ∀ s, I s → I (body s))
    (guard : ∀ s, I s → cond s = true) (hs : I s) (fuel : ℕ) :
    while_ cond body fuel s = none := by
  induction fuel generalizing s with
  | zero => rfl
  | succ fuel ih =>
    unfold while_
    rw [if_pos (guard s hs)]
    exact ih (step s hs)

lemma while_measure (I : σ → Prop) (μ : σ → ℕ)
    (step : ∀ s, I s → cond s = true → I (body s) ∧ μ (body s) < μ s) (hs : I s)
    (hfuel : μ s < fuel) : ∃ t, while_ cond body fuel s = some t ∧ I t ∧ cond t = false := by
  induction fuel generalizing s with
  | zero => omega
  | succ fuel ih =>
    unfold while_
    split_ifs with hc
    · obtain ⟨hbody,hlt⟩ := step s hs hc
      exact ih hbody (by omega)
    · exact ⟨s,rfl,hs,Bool.eq_false_iff.mpr hc⟩

lemma while_trajectory (f : ℕ → σ) (n : ℕ) (guard : ∀ k < n, cond (f k) = true)
    (step : ∀ k < n, body (f k) = f (k+1)) (exit : cond (f n) = false)
    (hfuel : n < fuel) : while_ cond body fuel (f 0) = some (f n) := by
  have hk : ∀ m k, k+m = n → while_ cond body (m+1) (f k) = some (f n) := by
    intro m
    induction m with
    | zero =>
      intro k hkn
      obtain rfl : k = n := by omega
      unfold while_
      rw [if_neg (by simp [exit])]
    | succ m ih =>
      intro k hkn
      unfold while_
      rw [if_pos (guard k (by omega)),step k (by omega)]
      exact ih (k+1) (by omega)
  exact while_mono (hk n 0 (by omega)) hfuel

lemma foldlM_mono {α : Type*} {f g : σ → α → Option σ}
    (hfg : ∀ s a t, f s a = some t → g s a = some t) (as : List α)
    (h : as.foldlM f s = some t) : as.foldlM g s = some t := by
  induction as generalizing s with
  | nil => exact h
  | cons a as ih =>
    rw [List.foldlM_cons] at h ⊢
    obtain ⟨u,hu,ht⟩ := Option.bind_eq_some_iff.mp h
    exact Option.bind_eq_some_iff.mpr ⟨u,hfg s a u hu,ih ht⟩

lemma foldlM_range_trajectory {f : σ → ℕ → Option σ} (g : ℕ → σ) (n : ℕ)
    (step : ∀ k < n, f (g k) k = some (g (k+1))) : (List.range n).foldlM f (g 0) = some (g n) := by
  induction n with
  | zero => rfl
  | succ n ih =>
    rw [List.range_succ,List.foldlM_append,ih (fun k hk => step k (by omega))]
    exact (Option.bind_some (g n) _).trans (by simp [step n (by omega)])

end SmoFramework.Library.FuelLoop
