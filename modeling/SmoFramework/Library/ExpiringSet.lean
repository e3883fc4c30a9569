import SmoFramework.Library.AssocMap

/-! Sets whose members expire. Every member has a value that says until when it counts, and a
request brings the test for it: members that fail are dropped before the request is looked at. A
request is admitted if its key is not a member, which it then becomes. -/
namespace SmoFramework.Library.ExpiringSet
open AssocMap
variable {κ ν : Type*} [DecidableEq κ]

def enter (live : ν → Bool) (key : κ) (value : ν) (m : AssocMap κ ν) : Bool × AssocMap κ ν :=
  let m := m.filterValues live
  if m.contains key then (false,m) else (true,m.insert key value)

variable {live : ν → Bool} {key key' : κ} {value value' : ν} {m : AssocMap κ ν}

lemma find_filterValues_of_live (h : m.find key = some value) (hlive : live value = true) :
    (m.filterValues live).find key = some value := by
  rw [find_filterValues,h]
  simp [hlive]

lemma find_enter (h : (enter live key value m).1 = true) :
    (enter live key value m).2.find key = some value := by
  unfold enter at h ⊢
  dsimp only at h ⊢
  split_ifs at h ⊢
  rw [find_insert,if_pos rfl]

lemma enter_of_find (h : m.find key = some value') (hlive : live value' = true) :
    (enter live key value m).1 = false := by
  have hfind := find_filterValues_of_live h hlive
  unfold enter
  rw [if_pos]
  rw [contains,hfind]
  rfl

lemma find_enter_of_find (h : m.find key = some value) (hlive : live value = true) :
    (enter live key' value' m).2.find key = some value := by
  have hfind := find_filterValues_of_live h hlive
  unfold enter
  dsimp only
  by_cases hin : (m.filterValues live).contains key' = true
  · rw [if_pos hin]
    exact hfind
  · have hne : key' ≠ key := by
      rintro rfl
      rw [contains,hfind] at hin
      exact hin rfl
    rw [if_neg hin,find_insert,if_neg hne.symm]
    exact hfind

lemma enter_of_dead (h : m.find key = some value') (hdead : live value' = false) :
    (enter live key value m).1 = true := by
  have hfind : (m.filterValues live).find key = none := by
    rw [find_filterValues,h]
    simp [hdead]
  unfold enter
  rw [if_neg]
  rw [contains,hfind]
  exact Bool.false_ne_true

/-! Sets that differ in members that no longer count. -/

/-- The members that still count are the same. -/
def Agree (live : ν → Bool) (m m' : AssocMap κ ν) : Prop :=
  ∀ key value, live value = true → (m.find key = some value ↔ m'.find key = some value)

variable {m' : AssocMap κ ν}

lemma Agree.refl (live : ν → Bool) (m : AssocMap κ ν) : Agree live m m := fun _ _ _ => Iff.rfl

lemma Agree.mono {live' : ν → Bool} (h : Agree live m m')
    (hlater : ∀ value, live' value = true → live value = true) : Agree live' m m' :=
  fun key value hlive => h key value (hlater value hlive)

lemma Agree.find_filterValues (h : Agree live m m') (key : κ) :
    (m.filterValues live).find key = (m'.filterValues live).find key := by
  ext value
  rw [AssocMap.find_filterValues,AssocMap.find_filterValues,Option.filter_eq_some_iff,
    Option.filter_eq_some_iff]
  exact and_congr_left fun hlive => h key value hlive

lemma find_enter_eq (live : ν → Bool) (key key' : κ) (value : ν) (m : AssocMap κ ν) :
    (enter live key value m).2.find key' =
      if (enter live key value m).1 = true ∧ key' = key then some value
      else (m.filterValues live).find key' := by
  unfold enter
  dsimp only
  by_cases hin : (m.filterValues live).contains key = true
  · rw [if_pos hin]
    simp
  · rw [if_neg hin,find_insert]
    simp

/-- A request does not tell two sets that agree apart, and leaves them so. -/
lemma Agree.enter (h : Agree live m m') (key : κ) (value : ν) :
    (enter live key value m).1 = (enter live key value m').1 ∧
      Agree live (enter live key value m).2 (enter live key value m').2 := by
  have hpassed : (ExpiringSet.enter live key value m).1 = (ExpiringSet.enter live key value m').1 := by
    have hfind := h.find_filterValues key
    unfold ExpiringSet.enter contains
    dsimp only
    rw [hfind]
    split_ifs <;> rfl
  refine ⟨hpassed,fun key' value' _ => ?_⟩
  rw [find_enter_eq,find_enter_eq,hpassed,h.find_filterValues]

lemma agree_enter (h : (enter live key value m).1 = true → live value = false) :
    Agree live m (enter live key value m).2 := by
  intro key' value' hlive
  have hkept : (m.filterValues live).find key' = some value' ↔ m.find key' = some value' := by
    rw [find_filterValues,Option.filter_eq_some_iff]
    exact and_iff_left hlive
  rw [find_enter_eq]
  by_cases hentered : (enter live key value m).1 = true ∧ key' = key
  · -- the key was not there with a value that counts, and its new value does not count
    obtain ⟨hpassed,rfl⟩ := hentered
    rw [if_pos ⟨hpassed,rfl⟩,← hkept]
    have hdead := h hpassed
    have habsent : (m.filterValues live).find key' = none := by
      unfold enter at hpassed
      dsimp only at hpassed
      by_contra hin
      rw [if_pos (by rw [contains,Option.isSome_iff_ne_none]; exact hin)] at hpassed
      cases hpassed
    rw [habsent]
    refine iff_of_false (by simp) ?_
    rintro ⟨⟩
    rw [hlive] at hdead
    cases hdead
  · rw [if_neg hentered]
    exact hkept.symm

end SmoFramework.Library.ExpiringSet
