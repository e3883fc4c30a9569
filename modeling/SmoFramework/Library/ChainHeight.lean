import Mathlib.Data.List.Chain
import Mathlib.Data.List.Nodup
import Mathlib.Data.List.Perm.Subperm

/-! The longest chain that starts at a point of a graph, in edges. -/
namespace SmoFramework.Library.ChainHeight
open List
variable {ι : Type*} {succ : ι → List ι}

def IsPath (succ : ι → List ι) (points : List ι) : Prop :=
  points.IsChain (fun u v => v ∈ succ u)

/-- No path from `u` has more than `h` edges, and one has as many. -/
structure HasHeight (succ : ι → List ι) (u : ι) (h : ℕ) : Prop where
  le : ∀ l, IsPath succ (u::l) → l.length ≤ h
  attained : ∃ l, IsPath succ (u::l) ∧ l.length = h

/-- The longest path whose first edge leads to one of some children. -/
structure HeightVia (succ : ι → List ι) (children : List ι) (h : ℕ) : Prop where
  le : ∀ c ∈ children, ∀ l, IsPath succ (c::l) → l.length+1 ≤ h
  attained : h = 0 ∨ ∃ c ∈ children, ∃ l, IsPath succ (c::l) ∧ l.length+1 = h

lemma HeightVia.nil : HeightVia succ [] 0 :=
  ⟨fun _ h => (by cases h),.inl rfl⟩

lemma HeightVia.snoc (hvia : HeightVia succ children h)
    (hc : HasHeight succ c k) : HeightVia succ (children ++ [c]) (max h (1+k)) := by
  constructor
  · intro d hd l hl
    rcases mem_append.mp hd with hd | hd
    · exact (hvia.le d hd l hl).trans (le_max_left _ _)
    · obtain rfl := mem_singleton.mp hd
      have := hc.le l hl
      omega
  · by_cases hlt : h < 1+k
    · obtain ⟨l,hl,hlen⟩ := hc.attained
      exact .inr ⟨c,by simp,l,hl,by omega⟩
    · rw [Nat.max_eq_left (Nat.le_of_not_lt hlt)]
      obtain hzero | ⟨d,hd,l,hl,hlen⟩ := hvia.attained
      · exact .inl hzero
      · exact .inr ⟨d,mem_append_left _ hd,l,hl,hlen⟩

lemma HeightVia.hasHeight (hvia : HeightVia succ (succ u) h) :
    HasHeight succ u h := by
  constructor
  · intro l hl
    cases l with
    | nil => exact Nat.zero_le _
    | cons c l =>
      obtain ⟨hedge,hrest⟩ := isChain_cons_cons.mp hl
      exact hvia.le c hedge l hrest
  · obtain rfl | ⟨c,hc,l,hl,hlen⟩ := hvia.attained
    · exact ⟨[],isChain_singleton _,rfl⟩
    · exact ⟨c::l,isChain_cons_cons.mpr ⟨hc,hl⟩,hlen⟩

/-- Without a cycle a path visits no point twice, so it is no longer than the graph is large. -/
lemma IsPath.length_le {points keys : List ι}
    (hacyclic : ∀ v, ¬Relation.TransGen (fun u v => v ∈ succ u) v v) (hpath : IsPath succ points)
    (hkeys : ∀ v ∈ points, v ∈ keys) : points.length ≤ keys.length := by
  have htrans : points.IsChain (Relation.TransGen (fun u v => v ∈ succ u)) :=
    hpath.imp fun _ _ => Relation.TransGen.single
  have hnodup : points.Nodup := by
    refine List.Pairwise.imp ?_ (isChain_iff_pairwise.mp htrans)
    rintro u v h rfl
    exact hacyclic u h
  exact (hnodup.subperm hkeys).length_le

end SmoFramework.Library.ChainHeight
