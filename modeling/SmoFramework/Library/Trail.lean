import Mathlib.Logic.Relation

/-! Trails of a labelled transition system. A record has a state in which it starts and one in which it
ends, and a list of records is a trail if each starts where the one before has ended. -/
namespace SmoFramework.Library.Trail
variable {σ ρ : Type*} (src dst : ρ → σ)

/-- The records lead from one state to the other. -/
def Leads : σ → List ρ → σ → Prop
  | s,[],t => s = t
  | s,r::rs,t => src r = s ∧ Leads (dst r) rs t

variable {src dst} {s t u : σ} {r : ρ} {rs rs' : List ρ}

lemma leads_append : Leads src dst s (rs ++ rs') t ↔ ∃ u, Leads src dst s rs u ∧ Leads src dst u rs' t := by
  induction rs generalizing s with
  | nil => exact ⟨fun h => ⟨s,rfl,h⟩,fun ⟨_,hs,h⟩ => hs ▸ h⟩
  | cons r rs ih =>
    constructor
    · rintro ⟨hsrc,h⟩
      obtain ⟨u,hu,hrest⟩ := ih.mp h
      exact ⟨u,⟨hsrc,hu⟩,hrest⟩
    · rintro ⟨u,⟨hsrc,hu⟩,hrest⟩
      exact ⟨hsrc,ih.mpr ⟨u,hu,hrest⟩⟩

lemma Leads.concat (h : Leads src dst s rs (src r)) : Leads src dst s (rs ++ [r]) (dst r) :=
  leads_append.mpr ⟨src r,h,rfl,rfl⟩

/-- A trail along a relation reaches its end. -/
lemma Leads.reaches {R : σ → σ → Prop} (h : Leads src dst s rs t) (hR : ∀ r ∈ rs, R (src r) (dst r)) :
    Relation.ReflTransGen R s t := by
  induction rs generalizing s with
  | nil =>
    cases h
    exact .refl
  | cons r rs ih =>
    obtain ⟨rfl,hrest⟩ := h
    obtain ⟨hr,hrs⟩ := List.forall_mem_cons.mp hR
    exact (ih hrest hrs).head hr

end SmoFramework.Library.Trail
