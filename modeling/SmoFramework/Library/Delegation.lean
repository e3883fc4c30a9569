import Mathlib.Data.List.Basic

/-! Chains of delegation. A credential is valid by itself or not, it may stand directly under an
anchor, and it may be issued by the holder of another credential. A path leads from one credential
over the credentials of its issuers to an anchor. -/
namespace SmoFramework.Library.Delegation

structure Rules (α : Type*) where
  Valid : α → Prop
  Anchor : α → Prop
  /-- The second credential belongs to the issuer of the first one. -/
  Issued : α → α → Prop

namespace Rules
variable {α : Type*} {R : Rules α}

inductive Path (R : Rules α) : List α → Prop
  | last {a : α} (valid : R.Valid a) (anchor : R.Anchor a) : Path R [a]
  | step {a b : α} {rest : List α} (valid : R.Valid a) (issued : R.Issued a b)
      (path : Path R (b::rest)) : Path R (a::b::rest)

def Anchored (R : Rules α) (a : α) : Prop := ∃ rest, R.Path (a::rest)

lemma path_cons_cons :
    R.Path (a::b::rest) ↔ R.Valid a ∧ R.Issued a b ∧ R.Path (b::rest) := by
  constructor
  · intro h
    cases h with
    | step valid issued path => exact ⟨valid,issued,path⟩
  · rintro ⟨valid,issued,path⟩
    exact .step valid issued path

lemma path_singleton : R.Path [a] ↔ R.Valid a ∧ R.Anchor a := by
  constructor
  · intro h
    cases h with
    | last valid anchor => exact ⟨valid,anchor⟩
  · rintro ⟨valid,anchor⟩
    exact .last valid anchor

/-! A list of credentials that lose their validity one by one. -/

/-- Each valid entry stands under an anchor or was issued by the holder of another valid entry. -/
def Supported (R : Rules α) (l : List α) : Prop :=
  ∀ (i : ℕ) (a : α), l[i]? = some a → R.Valid a →
    R.Anchor a ∨ ∃ (j : ℕ) (b : α), j ≠ i ∧ l[j]? = some b ∧ R.Valid b ∧ R.Issued a b

/-- What entry `k` has issued is supported without it. -/
def Dispensable (R : Rules α) (l : List α) (k : ℕ) : Prop :=
  ∀ i a c, i ≠ k → l[i]? = some a → R.Valid a → l[k]? = some c → R.Issued a c →
    R.Anchor a ∨ ∃ j b, j ≠ i ∧ j ≠ k ∧ l[j]? = some b ∧ R.Valid b ∧ R.Issued a b

lemma supported_nil : R.Supported [] := by
  intro i a ha
  simp at ha

lemma Supported.concat (h : R.Supported l)
    (ha : R.Anchor a ∨ ∃ b ∈ l, R.Valid b ∧ R.Issued a b) : R.Supported (l ++ [a]) := by
  intro i b hb hvalid
  rcases Nat.lt_or_ge i l.length with hi | hi
  · rw [List.getElem?_append_left hi] at hb
    rcases h i b hb hvalid with hanchor | ⟨j,c,hj,hc,hissued⟩
    · exact .inl hanchor
    · have hlt : j < l.length := (List.getElem?_eq_some_iff.mp hc).1
      exact .inr ⟨j,c,hj,by rwa [List.getElem?_append_left hlt],hissued⟩
  · -- the new entry finds its issuer among the older ones
    rw [List.getElem?_append_right hi] at hb
    have hlast : i-l.length = 0 ∧ a = b := by
      cases hindex : i-l.length with
      | zero => rw [hindex] at hb; exact ⟨rfl,Option.some.inj hb⟩
      | succ n => rw [hindex] at hb; simp at hb
    obtain ⟨hi0,rfl⟩ := hlast
    rcases ha with hanchor | ⟨c,hc,hissued⟩
    · exact .inl hanchor
    · obtain ⟨j,hj,hjc⟩ := List.mem_iff_getElem.mp hc
      refine .inr ⟨j,c,by omega,?_,hissued⟩
      rw [List.getElem?_append_left hj,List.getElem?_eq_getElem hj,hjc]

lemma Supported.set_iff (h : R.Supported l) (hk : l[k]? = some c)
    (hinvalid : ¬R.Valid c') : R.Supported (l.set k c') ↔ R.Dispensable l k := by
  have hother : ∀ {j : ℕ} {b : α}, j ≠ k → ((l.set k c')[j]? = some b ↔ l[j]? = some b) :=
    fun hj => by rw [List.getElem?_set_ne (Ne.symm hj)]
  have hself : ∀ {j : ℕ} {b : α}, (l.set k c')[j]? = some b → R.Valid b → j ≠ k := by
    rintro j b hb hvalid rfl
    rw [List.getElem?_set_self (List.getElem?_eq_some_iff.mp hk).1] at hb
    exact hinvalid (Option.some.inj hb ▸ hvalid)
  constructor
  · intro hset i a d hi ha hvalid _ _
    rcases hset i a ((hother hi).mpr ha) hvalid with hanchor | ⟨j,b,hj,hb,hvalid',hissued⟩
    · exact .inl hanchor
    · have hjk := hself hb hvalid'
      exact .inr ⟨j,b,hj,hjk,(hother hjk).mp hb,hvalid',hissued⟩
  · intro hdisp i a ha hvalid
    have hi := hself ha hvalid
    rw [hother hi] at ha
    have hwithout : R.Anchor a ∨ ∃ j b, j ≠ i ∧ j ≠ k ∧ l[j]? = some b ∧ R.Valid b ∧
        R.Issued a b := by
      rcases h i a ha hvalid with hanchor | ⟨j,b,hj,hb,hvalid',hissued⟩
      · exact .inl hanchor
      · by_cases hjk : j = k
        · subst hjk
          exact hdisp i a b hi ha hvalid hb hissued
        · exact .inr ⟨j,b,hj,hjk,hb,hvalid',hissued⟩
    rcases hwithout with hanchor | ⟨j,b,hj,hjk,hb,hissued⟩
    · exact .inl hanchor
    · exact .inr ⟨j,b,hj,(hother hjk).mpr hb,hissued⟩

end Rules
end SmoFramework.Library.Delegation
