import Mathlib.Data.List.Basic

/-! Chains of digests. Each body is hashed together with the digest before it, so the last digest
stands for the whole list as far as hashing tells its inputs apart. -/
namespace SmoFramework.Library.HashChain
variable {β δ : Type*} (link : β → δ → δ)

def tip (start : δ) (bodies : List β) : δ := bodies.foldl (fun d b => link b d) start

def inputs : δ → List β → List (β × δ)
  | _,[] => []
  | start,b::bodies => (b,start)::inputs (link b start) bodies

variable {link} {s t : δ} {xs ys : List β}

lemma eq_of_tip_eq (hlen : xs.length = ys.length)
    (hinj : ∀ p ∈ (inputs link s xs).zip (inputs link t ys),
      link p.1.1 p.1.2 = link p.2.1 p.2.2 → p.1 = p.2)
    (h : tip link s xs = tip link t ys) : xs = ys ∧ s = t := by
  induction xs generalizing s t ys with
  | nil =>
    obtain rfl := List.length_eq_zero_iff.mp hlen.symm
    exact ⟨rfl,h⟩
  | cons x xs ih =>
    cases ys with
    | nil => cases hlen
    | cons y ys =>
      obtain ⟨hhead,htail⟩ := List.forall_mem_cons.mp hinj
      obtain ⟨hrest,hlink⟩ := ih (Nat.succ.inj hlen) htail h
      obtain ⟨hx,hs⟩ := Prod.mk.inj (hhead hlink)
      exact ⟨by rw [hx,hrest],hs⟩

lemma related_inputs {R : δ → δ → Prop} (hstart : R s t)
    (hlink : ∀ b d b' d', R (link b d) (link b' d')) :
    ∀ p ∈ (inputs link s xs).zip (inputs link t ys), R p.1.2 p.2.2 := by
  induction xs generalizing s t ys with
  | nil =>
    intro p hp
    cases hp
  | cons x xs ih =>
    cases ys with
    | nil =>
      intro p hp
      cases hp
    | cons y ys => exact List.forall_mem_cons.mpr ⟨hstart,ih (hlink x s y t)⟩

end SmoFramework.Library.HashChain
