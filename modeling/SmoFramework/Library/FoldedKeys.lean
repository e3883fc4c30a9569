import Mathlib.Data.Set.Function
import SmoFramework.Library.AssocMap

/-! A store whose keys are computed from the names that its users know. A change is made for one name, and
it sees what is stored under the key of that name. -/
namespace SmoFramework.Library.FoldedKeys
variable {ι κ ν : Type*} [DecidableEq ι] [DecidableEq κ]

structure Change (ι ν : Type*) where
  name : ι
  value : Option ν → ν

def change (key : ι → κ) (m : AssocMap κ ν) (c : Change ι ν) : AssocMap κ ν :=
  m.insert (key c.name) (c.value (m.find (key c.name)))

def own (name : ι) (found : Option ν) (c : Change ι ν) : Option ν :=
  if c.name = name then some (c.value found) else found

variable {cs : List (Change ι ν)} {name : ι}

lemma foldl_own_eq (h : ∀ c ∈ cs, c.name ≠ name)
    (found : Option ν) : cs.foldl (own name) found = found := by
  induction cs generalizing found with
  | nil => rfl
  | cons c cs ih =>
    obtain ⟨hc,hcs⟩ := List.forall_mem_cons.mp h
    rw [List.foldl_cons,own,if_neg hc,ih hcs]

lemma find_foldl_change {names : Set ι} {key : ι → κ} (hinj : Set.InjOn key names)
    (hcs : ∀ c ∈ cs, c.name ∈ names) (hname : name ∈ names)
    (m : AssocMap κ ν) :
    (cs.foldl (change key) m).find (key name) = cs.foldl (own name) (m.find (key name)) := by
  induction cs generalizing m with
  | nil => rfl
  | cons c cs ih =>
    obtain ⟨hc,hcs⟩ := List.forall_mem_cons.mp hcs
    rw [List.foldl_cons,List.foldl_cons,ih hcs,change,AssocMap.find_insert,own]
    by_cases heq : c.name = name
    · rw [heq,if_pos rfl,if_pos rfl]
    · have hkey : key name ≠ key c.name := fun h => heq (hinj hname hc h).symm
      rw [if_neg hkey,if_neg heq]

end SmoFramework.Library.FoldedKeys
