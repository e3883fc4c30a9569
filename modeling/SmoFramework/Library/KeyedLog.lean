import Mathlib.Data.List.Nodup
import Mathlib.Data.Set.Insert

/-! Logs with one record for every key. A record is added only if its key is new, so the first
record of a key is the one that stays. On the sets of keys this is the join of a grow-only set:
merging is union, whatever the order of the records and however often they come. -/
namespace SmoFramework.Library.KeyedLog
open List
variable {α κ : Type*} (key : α → κ)

def keys (log : List α) : Set κ := {k | k ∈ log.map key}

def Distinct (log : List α) : Prop := (log.map key).Nodup

def insertNew [DecidableEq κ] (log : List α) (a : α) : List α :=
  if key a ∈ log.map key then log else log ++ [a]

def merge [DecidableEq κ] (log records : List α) : List α := records.foldl (insertNew key) log

variable {key}

variable {log : List α}

@[simp] lemma mem_keys {k : κ} : k ∈ keys key log ↔ k ∈ log.map key := Iff.rfl

variable {a : α}

lemma Distinct.concat (h : Distinct key log) (hnew : key a ∉ log.map key) :
    Distinct key (log ++ [a]) := by
  unfold Distinct
  rw [map_append]
  refine List.Nodup.append h (nodup_singleton _) ?_
  intro k hk hk'
  obtain rfl : k = key a := mem_singleton.mp hk'
  exact hnew hk

lemma Distinct.filter (h : Distinct key log) (p : α → Bool) :
    Distinct key (log.filter p) := List.Nodup.sublist (filter_sublist.map key) h

lemma Distinct.eq_of_key_eq {b : α} (h : Distinct key log) (ha : a ∈ log) (hb : b ∈ log)
    (heq : key a = key b) : a = b := inj_on_of_nodup_map h ha hb heq

lemma Distinct.copy_complete_iff {n : ℕ} {sent : List α} {γ : Type*} {image : α → γ}
    {known : List γ}
    (h : Distinct key log) (himage : ∀ a b, image a = image b → key a = key b)
    (hknown : ∀ c, c ∈ known ↔ c ∈ (log.take n).map image) (hsent : sent ⊆ log) :
    (∀ a ∈ log, image a ∈ known ++ sent.map image) ↔ ∀ a ∈ log.drop n, a ∈ sent := by
  have hinj : ∀ {a b : α}, a ∈ log → b ∈ log → image a = image b → a = b :=
    fun ha hb heq => h.eq_of_key_eq ha hb (himage _ _ heq)
  constructor
  · intro hall a ha
    have hlog := mem_of_mem_drop ha
    rcases mem_append.mp (hall a hlog) with hold | hnew
    · -- It would stand in both halves of the log.
      obtain ⟨b,hb,heq⟩ := mem_map.mp ((hknown _).mp hold)
      obtain rfl := hinj (mem_of_mem_take hb) hlog heq
      have hnodup : (log.take n ++ log.drop n).Nodup := by
        rw [take_append_drop]
        exact List.Nodup.of_map key h
      exact absurd rfl ((nodup_append.mp hnodup).2.2 b hb b ha)
    · obtain ⟨b,hb,heq⟩ := mem_map.mp hnew
      exact hinj (hsent hb) hlog heq ▸ hb
  · intro hnew a ha
    rw [← take_append_drop n log] at ha
    rcases mem_append.mp ha with hold | ha
    · exact mem_append_left _ ((hknown _).mpr (mem_map_of_mem hold))
    · exact mem_append_right _ (mem_map_of_mem (hnew a ha))

variable [DecidableEq κ]

instance (log : List α) : Decidable (Distinct key log) :=
  inferInstanceAs (Decidable (log.map key).Nodup)

lemma keys_insertNew (log : List α) (a : α) :
    keys key (insertNew key log a) = insert (key a) (keys key log) := by
  ext k
  by_cases h : key a ∈ log.map key
  · rw [insertNew,if_pos h,Set.mem_insert_iff]
    exact ⟨Or.inr,fun hk => hk.elim (fun heq => heq ▸ h) id⟩
  · rw [insertNew,if_neg h,Set.mem_insert_iff]
    simp only [mem_keys,map_append,mem_append,map_cons,map_nil,mem_singleton]
    exact or_comm

lemma keys_merge (log records : List α) :
    keys key (merge key log records) = keys key log ∪ keys key records := by
  induction records generalizing log with
  | nil => simp [merge,keys]
  | cons a records ih =>
    have hstep := ih (insertNew key log a)
    rw [keys_insertNew] at hstep
    unfold merge at hstep ⊢
    rw [foldl_cons,hstep]
    ext k
    simp only [Set.mem_union,Set.mem_insert_iff,mem_keys,map_cons,mem_cons]
    tauto

lemma insertNew_extends (log : List α) (a : α) : log <+: insertNew key log a := by
  by_cases h : key a ∈ log.map key
  · simp [insertNew,h]
  · simp only [insertNew,if_neg h]
    exact prefix_append log [a]

lemma merge_extends (log records : List α) : log <+: merge key log records := by
  induction records generalizing log with
  | nil => exact prefix_rfl
  | cons a records ih => exact (insertNew_extends log a).trans (ih (insertNew key log a))

lemma Distinct.insertNew (h : Distinct key log) (a : α) : Distinct key (insertNew key log a) := by
  by_cases hmem : key a ∈ log.map key
  · rw [KeyedLog.insertNew,if_pos hmem]
    exact h
  · rw [KeyedLog.insertNew,if_neg hmem]
    exact h.concat hmem

lemma Distinct.merge (h : Distinct key log) (records : List α) :
    Distinct key (merge key log records) := by
  induction records generalizing log with
  | nil => exact h
  | cons a records ih => exact ih (h.insertNew a)

end SmoFramework.Library.KeyedLog
