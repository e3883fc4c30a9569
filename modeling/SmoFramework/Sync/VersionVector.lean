import Mathlib.Order.Lattice.Nat
import SmoFramework.Errors
import SmoFramework.Library.AssocMap

/-! Version vectors of the anti-entropy protocol (`core/network/sync/version_vector`). A node that
is unknown is not the same as one at epoch zero. As a function into the epochs with a bottom added,
dominance is the pointwise order and merging is the join. -/
namespace SmoFramework.Sync
open Library AssocMap

inductive VVCompaction
  | full | awo
  deriving DecidableEq, Repr

structure VersionVector where
  dots : AssocMap Bytes UInt64 := AssocMap.empty
  compaction : VVCompaction := .full

namespace VersionVector

/-- `operator==`: the compaction mode is not compared. -/
def eq (v w : VersionVector) : Bool := v.dots.equal w.dots

variable (v : VersionVector)

def set (nodeId : Bytes) (epoch : UInt64) : VersionVector :=
  { v with dots := v.dots.insert nodeId epoch }

variable (dot : Bytes × UInt64)

def mergeDot : VersionVector :=
  match v.dots.find dot.1 with
  | none => v.set dot.1 dot.2
  | some e => if dot.2 > e then v.set dot.1 dot.2 else v

def merge (v other : VersionVector) : VersionVector := other.dots.entries.foldl mergeDot v

/-- Whether `other` has a dot that this vector lacks or holds at a smaller epoch. -/
def lessAt : Bool :=
  match v.dots.find dot.1 with
  | none => true
  | some e => e < dot.2

def dominates (v other : VersionVector) : Bool := !other.dots.entries.any v.lessAt

def compact (baseline : UInt64) : VersionVector :=
  match v.compaction with
  | .full => v
  | .awo => { v with dots := v.dots.filterValues (fun e => ¬e ≤ baseline) }

/-! The lattice of epochs. -/

/-- What the vector knows of each node. -/
def epochs : Bytes → WithBot ℕ :=
  fun node => (v.dots.find node).elim ⊥ (fun e => WithBot.some e.toNat)

lemma epochs_apply (node : Bytes) :
    v.epochs node = (v.dots.find node).elim ⊥ (fun e => WithBot.some e.toNat) := rfl

lemma elim_toNat_injective :
    Function.Injective (fun o : Option UInt64 => o.elim ⊥ (fun e => WithBot.some e.toNat)) := by
  intro o p h
  cases o with
  | none =>
    cases p with
    | none => rfl
    | some f => exact absurd h (WithBot.bot_ne_coe)
  | some e =>
    cases p with
    | none => exact absurd h (WithBot.coe_ne_bot)
    | some f => exact congrArg some (UInt64.toNat_inj.mp (WithBot.coe_inj.mp h))

lemma eq_iff_epochs (v w : VersionVector) : v.eq w = true ↔ v.epochs = w.epochs := by
  rw [eq,equal_iff]
  constructor
  · intro h
    funext node
    rw [epochs_apply,epochs_apply,h]
  · intro h node
    exact elim_toNat_injective (congrFun h node)

lemma epochs_set (node : Bytes) (e : UInt64) :
    (v.set node e).epochs = Function.update v.epochs node (WithBot.some e.toNat) := by
  funext k
  rw [epochs_apply,set,find_insert]
  by_cases hk : k = node
  · simp [hk]
  · rw [if_neg hk,Function.update_of_ne hk,epochs_apply]

variable (dot : Bytes × UInt64)

def single : Bytes → WithBot ℕ :=
  Function.update ⊥ dot.1 (WithBot.some dot.2.toNat)

variable (f : Bytes → WithBot ℕ)

lemma sup_single (dot : Bytes × UInt64) :
    f ⊔ single dot = Function.update f dot.1 (f dot.1 ⊔ WithBot.some dot.2.toNat) := by
  funext k
  by_cases hk : k = dot.1
  · subst hk
    simp [single]
  · simp [single,Function.update_of_ne hk]

lemma epochs_mergeDot :
    (v.mergeDot dot).epochs = v.epochs ⊔ single dot := by
  rw [sup_single,mergeDot]
  cases hfind : v.dots.find dot.1 with
  | none =>
    have hbot : v.epochs dot.1 = ⊥ := by rw [epochs_apply,hfind]; rfl
    dsimp only
    rw [epochs_set,hbot,bot_sup_eq]
  | some e =>
    have hat : v.epochs dot.1 = WithBot.some e.toNat := by rw [epochs_apply,hfind]; rfl
    dsimp only
    rw [hat]
    by_cases hlt : dot.2 > e
    · have hle : e.toNat ≤ dot.2.toNat := (UInt64.lt_iff_toNat_lt.mp hlt).le
      rw [if_pos hlt,epochs_set,sup_eq_right.mpr (WithBot.coe_le_coe.mpr hle)]
    · have hle : dot.2.toNat ≤ e.toNat :=
        Nat.le_of_not_lt (fun h => hlt (UInt64.lt_iff_toNat_lt.mpr h))
      rw [if_neg hlt,sup_eq_left.mpr (WithBot.coe_le_coe.mpr hle),← hat,Function.update_eq_self]

variable (dots : List (Bytes × UInt64))

lemma epochs_foldl_mergeDot (v : VersionVector) :
    (dots.foldl mergeDot v).epochs = dots.foldl (fun f dot => f ⊔ single dot) v.epochs := by
  induction dots generalizing v with
  | nil => rfl
  | cons dot dots ih => rw [List.foldl_cons,List.foldl_cons,ih,epochs_mergeDot]

lemma foldl_sup_single_le_iff (f g : Bytes → WithBot ℕ) :
    dots.foldl (fun f dot => f ⊔ single dot) f ≤ g ↔ f ≤ g ∧ ∀ dot ∈ dots, single dot ≤ g := by
  induction dots generalizing f with
  | nil => simp
  | cons dot dots ih =>
    rw [List.foldl_cons,ih,sup_le_iff,List.forall_mem_cons]
    exact and_assoc

lemma single_le_iff :
    single dot ≤ f ↔ WithBot.some dot.2.toNat ≤ f dot.1 := by
  rw [single,update_le_iff]
  exact ⟨And.left,fun h => ⟨h,fun _ _ => bot_le⟩⟩

lemma epochs_le_iff :
    v.epochs ≤ f ↔ ∀ dot ∈ v.dots.entries, single dot ≤ f := by
  constructor
  · intro h dot hdot
    rw [single_le_iff]
    have hat : v.epochs dot.1 = WithBot.some dot.2.toNat := by
      rw [epochs_apply,mem_entries_iff.mp hdot]
      rfl
    exact hat ▸ h dot.1
  · intro h node
    rw [epochs_apply]
    cases hfind : v.dots.find node with
    | none => exact bot_le
    | some e => exact (single_le_iff (node,e) f).mp (h _ (mem_entries_iff.mpr hfind))

lemma epochs_merge (v w : VersionVector) : (v.merge w).epochs = v.epochs ⊔ w.epochs := by
  apply eq_of_forall_ge_iff
  intro f
  rw [merge,epochs_foldl_mergeDot,foldl_sup_single_le_iff,sup_le_iff,epochs_le_iff w f]

lemma lessAt_eq_false_iff :
    v.lessAt dot = false ↔ single dot ≤ v.epochs := by
  rw [single_le_iff,epochs_apply,lessAt]
  cases v.dots.find dot.1 with
  | none => simp
  | some e => simp [UInt64.le_iff_toNat_le]

lemma dominates_iff (v w : VersionVector) : v.dominates w = true ↔ w.epochs ≤ v.epochs := by
  rw [dominates,Bool.not_eq_true',List.any_eq_false,epochs_le_iff]
  simp only [Bool.not_eq_true,lessAt_eq_false_iff]

/-! Compaction cuts every epoch at or below the baseline. -/

def cut {α : Type*} [LinearOrder α] [OrderBot α] (b x : α) : α := if x ≤ b then ⊥ else x

lemma cut_sup {α : Type*} [LinearOrder α] [OrderBot α] (b x y : α) :
    cut b (x ⊔ y) = cut b x ⊔ cut b y := by
  unfold cut
  by_cases hx : x ≤ b
  · by_cases hy : y ≤ b
    · simp [hx,hy]
    · -- The larger value survives and the smaller one is below the threshold.
      have hxy : x ≤ y := hx.trans (le_of_not_ge hy)
      simp [hx,hy,hxy]
  · by_cases hy : y ≤ b
    · have hyx : y ≤ x := hy.trans (le_of_not_ge hx)
      simp [hx,hy,hyx]
    · simp [hx,hy]

lemma epochs_compact {v : VersionVector} (h : v.compaction = .awo) (baseline : UInt64) :
    (v.compact baseline).epochs = fun node => cut (WithBot.some baseline.toNat) (v.epochs node) := by
  funext node
  rw [compact,h]
  dsimp only
  rw [epochs_apply,epochs_apply,find_filterValues,cut]
  cases v.dots.find node with
  | none => simp
  | some e =>
    by_cases he : e ≤ baseline
    · simp [Option.filter,he,UInt64.le_iff_toNat_le.mp he]
    · have hlt : ¬e.toNat ≤ baseline.toNat := fun h => he (UInt64.le_iff_toNat_le.mpr h)
      simp [Option.filter,he,hlt]

lemma mergeDot_compaction :
    (v.mergeDot dot).compaction = v.compaction := by
  unfold mergeDot
  cases v.dots.find dot.1 with
  | none => rfl
  | some e =>
    dsimp only
    split_ifs <;> rfl

lemma merge_compaction (v w : VersionVector) : (v.merge w).compaction = v.compaction := by
  unfold merge
  induction w.dots.entries generalizing v with
  | nil => rfl
  | cons dot dots ih => rw [List.foldl_cons,ih,mergeDot_compaction]

/-- Dominance is a partial order on the dots, merging is its least upper bound, and compaction
to the active writers is a homomorphism of both. -/
theorem merge_is_join_and_compact_hom (a b c : VersionVector) :
    (a.dominates b = true → b.dominates a = true → a.eq b = true) ∧
    a.dominates a = true ∧ (a.dominates b = true → b.dominates c = true → a.dominates c = true) ∧
    (a.merge b).dominates a = true ∧ (a.merge b).dominates b = true ∧
    (c.dominates a = true → c.dominates b = true → c.dominates (a.merge b) = true) ∧
    (a.merge b).eq (b.merge a) = true ∧ ((a.merge b).merge c).eq (a.merge (b.merge c)) = true ∧
    (a.merge a).eq a = true ∧ (a.compaction = .awo → b.compaction = .awo → ∀ baseline,
      ((a.merge b).compact baseline).eq ((a.compact baseline).merge (b.compact baseline)) = true ∧
      (a.dominates b = true → (a.compact baseline).dominates (b.compact baseline) = true)) := by
  simp only [dominates_iff,eq_iff_epochs,epochs_merge]
  refine ⟨fun hba hab => le_antisymm hab hba,le_rfl,fun hba hcb => hcb.trans hba,le_sup_left,
    le_sup_right,sup_le,sup_comm _ _,sup_assoc _ _ _,sup_idem _,?_⟩
  intro ha hb baseline
  have hm : (a.merge b).compaction = .awo := (merge_compaction a b).trans ha
  rw [epochs_compact hm,epochs_compact ha,epochs_compact hb,epochs_merge]
  have hsup : (fun node => cut (WithBot.some baseline.toNat) ((a.epochs ⊔ b.epochs) node)) =
      (fun node => cut (WithBot.some baseline.toNat) (a.epochs node)) ⊔
        (fun node => cut (WithBot.some baseline.toNat) (b.epochs node)) := by
    funext node
    exact cut_sup _ _ _
  refine ⟨hsup,fun hle => ?_⟩
  -- A join that equals its larger side stays one under the homomorphism.
  rw [sup_eq_left.mpr hle] at hsup
  exact hsup ▸ le_sup_right

end VersionVector
end SmoFramework.Sync
