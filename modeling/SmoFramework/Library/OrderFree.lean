import Mathlib.Data.List.Perm.Basic

/-! Folds whose result does not depend on the order. Where every two elements either commute or give
different results in their two orders from every state, the order is free exactly if all commute. -/
namespace SmoFramework.Library.OrderFree
open List
variable {α β : Type*} (f : β → α → β)

def Commutes (x y : α) : Prop := ∀ z, f (f z x) y = f (f z y) x

def Clashes (x y : α) : Prop := ∀ z, f (f z x) y ≠ f (f z y) x

variable {f} {l : List α}

lemma foldl_eq (h : ∀ x ∈ l, ∀ y ∈ l, Commutes f x y) {l₁ l₂ : List α} (h₁ : l₁.Perm l)
    (h₂ : l₂.Perm l) (z : β) : l₁.foldl f z = l₂.foldl f z :=
  (h₁.trans h₂.symm).foldl_eq' (fun x hx y hy => h x (h₁.subset hx) y (h₁.subset hy)) z

lemma exists_foldl_ne {x y : α} (hx : x ∈ l) (hy : y ∈ l) (h : Clashes f x y) (z : β) :
    ∃ l₁ l₂ : List α, l₁.Perm l ∧ l₂.Perm l ∧ l₁.foldl f z ≠ l₂.foldl f z := by
  classical
  have hne : y ≠ x := by
    rintro rfl
    exact h z rfl
  have hperm : (x::y::(l.erase x).erase y).Perm l :=
    ((perm_cons_erase ((mem_erase_of_ne hne).mpr hy)).symm.cons x).trans
      (perm_cons_erase hx).symm
  refine ⟨(l.erase x).erase y ++ [x,y],(l.erase x).erase y ++ [y,x],perm_append_comm.trans hperm,
    perm_append_comm.trans ((List.Perm.swap x y _).trans hperm),?_⟩
  rw [foldl_append,foldl_append]
  exact h _

end SmoFramework.Library.OrderFree
