import Mathlib.Data.List.Sort

/-! `std::sort`. The result is a sorted permutation of the range, provided that the comparison is a strict
weak order of the elements; otherwise nothing is promised. -/
namespace SmoFramework.Library
variable {α : Type*}

/-- What the comparison has to be on the elements of the range. -/
structure StrictWeakOn (less : α → α → Bool) (l : List α) : Prop where
  irrefl : ∀ a ∈ l, less a a = false
  trans : ∀ a ∈ l, ∀ b ∈ l, ∀ c ∈ l, less a b = true → less b c = true → less a c = true
  negTrans : ∀ a ∈ l, ∀ b ∈ l, ∀ c ∈ l, less a b = false → less b c = false → less a c = false

structure StdSort (α : Type*) where
  run : (α → α → Bool) → List α → List α
  perm : ∀ {less l}, StrictWeakOn less l → (run less l).Perm l
  sorted : ∀ {less l}, StrictWeakOn less l → (run less l).Pairwise (fun a b => less b a = false)

variable {less : α → α → Bool} {l : List α}

lemma StrictWeakOn.of_rank {β : Type*} [LinearOrder β]
    (rank : α → β) (h : ∀ a ∈ l, ∀ b ∈ l, (less a b = true ↔ rank a < rank b)) :
    StrictWeakOn less l := by
  have hfalse : ∀ a ∈ l, ∀ b ∈ l, (less a b = false ↔ rank b ≤ rank a) := fun a ha b hb => by
    rw [← Bool.not_eq_true,h a ha b hb,not_lt]
  refine ⟨fun a ha => (hfalse a ha a ha).mpr le_rfl,fun a ha b hb c hc hab hbc => ?_,
    fun a ha b hb c hc hab hbc => ?_⟩
  · exact (h a ha c hc).mpr (((h a ha b hb).mp hab).trans ((h b hb c hc).mp hbc))
  · exact (hfalse a ha c hc).mpr (((hfalse b hb c hc).mp hbc).trans ((hfalse a ha b hb).mp hab))

namespace StdSort

lemma head_least {a : α} {rest : List α} (sort : StdSort α)
    (h : StrictWeakOn less l) (hrun : sort.run less l = a::rest) :
    a ∈ l ∧ ∀ b ∈ l, less b a = false := by
  have hperm := sort.perm h
  have hsorted := sort.sorted h
  rw [hrun] at hperm hsorted
  have ha : a ∈ l := hperm.subset List.mem_cons_self
  refine ⟨ha,fun b hb => ?_⟩
  rcases List.mem_cons.mp (hperm.symm.subset hb) with rfl | hb
  · exact h.irrefl b ha
  · exact (List.pairwise_cons.mp hsorted).1 b hb

/-- A merge sort keeps the promise. -/
instance : Inhabited (StdSort α) where
  default := {
    run := fun less l => (l.attach.mergeSort (fun a b => !less b.1 a.1)).map Subtype.val
    perm := fun {less l} _ => by
      have hperm := (l.attach.mergeSort_perm (fun a b => !less b.1 a.1)).map Subtype.val
      rwa [List.attach_map_subtype_val] at hperm
    sorted := fun {less l} h => by
      refine List.pairwise_map.mpr (List.Pairwise.imp ?_ (List.pairwise_mergeSort ?_ ?_ l.attach))
      · intro a b hab
        simpa using hab
      · intro a b c hab hbc
        rw [Bool.not_eq_true'] at hab hbc ⊢
        exact h.negTrans c.1 c.2 b.1 b.2 a.1 a.2 hbc hab
      · intro a b
        by_contra hboth
        simp only [Bool.or_eq_true,Bool.not_eq_true',not_or,Bool.not_eq_false] at hboth
        have hself := h.trans a.1 a.2 b.1 b.2 a.1 a.2 hboth.2 hboth.1
        rw [h.irrefl a.1 a.2] at hself
        cases hself }

end StdSort
end SmoFramework.Library
