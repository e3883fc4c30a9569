import Mathlib.Data.List.Nodup

/-! Requests that are issued under keys and answered later. The books are balanced if no key was issued or
answered twice and the pending keys are those that were issued and not answered. -/
namespace SmoFramework.Library.OpenRequests
open List
variable {κ : Type*}

structure Balanced (issued answered : List κ) (pending : κ → Prop) : Prop where
  issued_nodup : issued.Nodup
  answered_nodup : answered.Nodup
  answered_issued : answered ⊆ issued
  pending_iff : ∀ k, pending k ↔ k ∈ issued ∧ k ∉ answered

namespace Balanced
variable {issued answered : List κ} {pending pending' : κ → Prop}

lemma nil (h : ∀ k, ¬pending k) : Balanced [] [] pending :=
  ⟨nodup_nil,nodup_nil,List.Subset.refl _,fun k => by simp [h k]⟩

lemma congr (h : Balanced issued answered pending) (hpending : ∀ k, pending' k ↔ pending k) :
    Balanced issued answered pending' :=
  { h with pending_iff := fun k => (hpending k).trans (h.pending_iff k) }

lemma not_answered {k : κ} (h : Balanced issued answered pending) (hk : pending k) : k ∉ answered :=
  ((h.pending_iff k).mp hk).2

lemma issue {key : κ} (h : Balanced issued answered pending) (hnew : key ∉ issued)
    (hpending : ∀ k, pending' k ↔ k = key ∨ pending k) :
    Balanced (issued ++ [key]) answered pending' where
  issued_nodup := by
    refine h.issued_nodup.append (nodup_singleton _) fun k hk hkey => ?_
    exact hnew (mem_singleton.mp hkey ▸ hk)
  answered_nodup := h.answered_nodup
  answered_issued := subset_append_of_subset_left _ h.answered_issued
  pending_iff k := by
    rw [hpending,h.pending_iff,mem_append,mem_singleton]
    constructor
    · rintro (rfl | ⟨hissued,hanswered⟩)
      · exact ⟨Or.inr rfl,fun hk => hnew (h.answered_issued hk)⟩
      · exact ⟨Or.inl hissued,hanswered⟩
    · rintro ⟨hissued | rfl,hanswered⟩
      · exact Or.inr ⟨hissued,hanswered⟩
      · exact Or.inl rfl

lemma answer (h : Balanced issued answered pending) {keys : List κ} (hnodup : keys.Nodup)
    (hkeys : ∀ k ∈ keys, pending k) (hpending : ∀ k, pending' k ↔ pending k ∧ k ∉ keys) :
    Balanced issued (answered ++ keys) pending' where
  issued_nodup := h.issued_nodup
  answered_nodup := h.answered_nodup.append hnodup fun k hk hk' => h.not_answered (hkeys k hk') hk
  answered_issued := append_subset.mpr ⟨h.answered_issued,
    fun k hk => ((h.pending_iff k).mp (hkeys k hk)).1⟩
  pending_iff k := by
    rw [hpending,h.pending_iff,mem_append,not_or,and_assoc]

end Balanced
end SmoFramework.Library.OpenRequests
