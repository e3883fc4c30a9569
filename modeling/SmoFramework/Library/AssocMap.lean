import Mathlib.Data.List.Nodup
import Mathlib.Data.List.Perm.Subperm

/-! Finite maps as association lists without repeated keys. The list order stands for one
possible iteration order of a hash map; lookups do not depend on it. -/
namespace SmoFramework.Library
open List

structure AssocMap (κ ν : Type*) where
  entries : List (κ × ν)
  nodup : (entries.map Prod.fst).Nodup

namespace AssocMap
variable {κ ν : Type*} [DecidableEq κ]

def findIn (k : κ) : List (κ × ν) → Option ν
  | [] => none
  | e::es => if e.1 = k then some e.2 else findIn k es

def insertIn (k : κ) (v : ν) : List (κ × ν) → List (κ × ν)
  | [] => [(k,v)]
  | e::es => if e.1 = k then (k,v)::es else e::insertIn k v es

lemma insertIn_keys (k : κ) (v : ν) (es : List (κ × ν)) : (insertIn k v es).map Prod.fst =
      if k ∈ es.map Prod.fst then es.map Prod.fst else es.map Prod.fst ++ [k] := by
  induction es with
  | nil => simp [insertIn]
  | cons e es ih =>
    unfold insertIn
    by_cases he : e.1 = k
    · simp [he]
    · rw [if_neg he,map_cons,ih]
      by_cases hk : k ∈ es.map Prod.fst
      · simp [hk]
      · have hk' : k ∉ (e::es).map Prod.fst := by
          rw [map_cons,mem_cons,not_or]
          exact ⟨Ne.symm he,hk⟩
        rw [if_neg hk,if_neg hk']
        rfl

def empty : AssocMap κ ν := ⟨[],List.nodup_nil⟩

variable (m : AssocMap κ ν)

def find (k : κ) : Option ν := findIn k m.entries

def contains (k : κ) : Bool := (m.find k).isSome

def insert (k : κ) (v : ν) : AssocMap κ ν where
  entries := insertIn k v m.entries
  nodup := by
    rw [insertIn_keys]
    split_ifs with h
    · exact m.nodup
    · exact List.nodup_append.mpr ⟨m.nodup,List.nodup_singleton _,by
        intro a ha b hb hab
        rw [List.mem_singleton.mp hb] at hab
        exact h (hab ▸ ha)⟩

def mapValues (f : ν → ν) (m : AssocMap κ ν) : AssocMap κ ν where
  entries := m.entries.map (fun e => (e.1,f e.2))
  nodup := by
    rw [List.map_map]
    exact m.nodup

def filterValues (p : ν → Bool) (m : AssocMap κ ν) : AssocMap κ ν where
  entries := m.entries.filter (fun e => p e.2)
  nodup := m.nodup.sublist ((List.filter_sublist).map Prod.fst)

def erase (k : κ) : AssocMap κ ν where
  entries := m.entries.filter (fun e => e.1 ≠ k)
  nodup := m.nodup.sublist ((List.filter_sublist).map Prod.fst)

variable {k : κ} {v : ν} {es : List (κ × ν)}

lemma mem_of_findIn (h : findIn k es = some v) : (k,v) ∈ es := by
  induction es with
  | nil => cases h
  | cons e es ih =>
    unfold findIn at h
    split_ifs at h with he
    · cases h
      exact mem_cons.mpr (Or.inl (he ▸ rfl))
    · exact mem_cons_of_mem _ (ih h)

variable {m : AssocMap κ ν} {m}

lemma mem_entries_of_find (h : m.find k = some v) : (k,v) ∈ m.entries := mem_of_findIn h

lemma findIn_of_mem (hnodup : (es.map Prod.fst).Nodup) (h : (k,v) ∈ es) :
    findIn k es = some v := by
  induction es with
  | nil => cases h
  | cons e es ih =>
    rw [map_cons,nodup_cons] at hnodup
    rcases mem_cons.mp h with rfl | h
    · simp [findIn]
    · have hne : e.1 ≠ k := fun he => hnodup.1 (he ▸ mem_map_of_mem h)
      rw [findIn,if_neg hne,ih hnodup.2 h]

lemma mem_entries_iff : (k,v) ∈ m.entries ↔ m.find k = some v :=
  ⟨findIn_of_mem m.nodup,mem_entries_of_find⟩

def keys (m : AssocMap κ ν) : List κ := m.entries.map Prod.fst

omit [DecidableEq κ] in
lemma nodup_keys (m : AssocMap κ ν) : m.keys.Nodup := m.nodup

omit [DecidableEq κ] in
lemma length_keys (m : AssocMap κ ν) : m.keys.length = m.entries.length := length_map _

lemma mem_keys_iff : k ∈ m.keys ↔ (m.find k).isSome = true := by
  rw [keys,Option.isSome_iff_exists,mem_map]
  constructor
  · rintro ⟨⟨k',v⟩,he,rfl⟩
    exact ⟨v,mem_entries_iff.mp he⟩
  · rintro ⟨v,hv⟩
    exact ⟨(k,v),mem_entries_iff.mpr hv,rfl⟩

lemma perm_of_find_eq {m' : AssocMap κ ν} (h : ∀ k, m.find k = m'.find k) :
    m.entries.Perm m'.entries := by
  refine (perm_ext_iff_of_nodup m.nodup.of_map m'.nodup.of_map).mpr ?_
  rintro ⟨k,v⟩
  rw [mem_entries_iff,mem_entries_iff,h]

/-- Equality of hash maps: as many entries, and every entry of the first is one of the second. -/
def equal [DecidableEq ν] (m m' : AssocMap κ ν) : Bool :=
  m.entries.length == m'.entries.length && m.entries.all (fun e => m'.find e.1 = some e.2)

lemma equal_iff [DecidableEq ν] (m m' : AssocMap κ ν) :
    m.equal m' = true ↔ ∀ k, m.find k = m'.find k := by
  have hsub : (∀ e ∈ m.entries, m'.find e.1 = some e.2) ↔ m.entries ⊆ m'.entries :=
    ⟨fun h e he => mem_entries_iff.mpr (h e he),fun h e he => mem_entries_iff.mp (h he)⟩
  simp only [equal,Bool.and_eq_true,beq_iff_eq,all_eq_true,decide_eq_true_eq,hsub]
  constructor
  · rintro ⟨hlen,hsub⟩ k
    have hperm := (m.nodup.of_map.subperm hsub).perm_of_length_le (Nat.le_of_eq hlen.symm)
    ext v
    rw [← mem_entries_iff,← mem_entries_iff,hperm.mem_iff]
  · intro h
    exact ⟨(perm_of_find_eq h).length_eq,(perm_of_find_eq h).subset⟩

lemma find_insert (m : AssocMap κ ν) (k k' : κ) (v : ν) :
    (m.insert k v).find k' = if k' = k then some v else m.find k' := by
  unfold find insert
  dsimp only
  induction m.entries with
  | nil => simp [insertIn,findIn,eq_comm]
  | cons e es ih =>
    unfold insertIn
    by_cases he : e.1 = k
    · rw [if_pos he]
      by_cases hk : k' = k
      · simp [findIn,hk]
      · simp [findIn,he,hk,Ne.symm hk]
    · rw [if_neg he,findIn,ih,findIn]
      by_cases hk : k' = k
      · simp [hk,he]
      · simp [hk]

lemma insertIn_eq_append (h : findIn k es = none) :
    insertIn k v es = es ++ [(k,v)] := by
  induction es with
  | nil => rfl
  | cons e es ih =>
    rw [findIn] at h
    split_ifs at h with he
    rw [insertIn,if_neg he,ih h]
    rfl

lemma insert_of_find (h : m.find k = some v) : m.insert k v = m := by
  obtain ⟨es,hes⟩ := m
  unfold insert
  congr 1
  change findIn k es = some v at h
  change insertIn k v es = es
  clear hes
  induction es with
  | nil => cases h
  | cons e es ih =>
    unfold findIn at h
    unfold insertIn
    split_ifs at h with he
    · rw [if_pos he,← he,← Option.some.inj h]
    · rw [if_neg he,ih h]

lemma findIn_eq_none (h : k ∉ es.map Prod.fst) : findIn k es = none := by
  induction es with
  | nil => rfl
  | cons e es ih =>
    rw [map_cons,mem_cons,not_or] at h
    rw [findIn,if_neg (Ne.symm h.1),ih h.2]

lemma findIn_perm {es' : List (κ × ν)} (hperm : es'.Perm es) (hnodup : (es.map Prod.fst).Nodup)
    (k : κ) : findIn k es' = findIn k es := by
  have hnodup' : (es'.map Prod.fst).Nodup := (hperm.map Prod.fst).nodup_iff.mpr hnodup
  ext v
  constructor
  · exact fun h => findIn_of_mem hnodup (hperm.mem_iff.mp (mem_of_findIn h))
  · exact fun h => findIn_of_mem hnodup' (hperm.mem_iff.mpr (mem_of_findIn h))

lemma find_foldl_insert {ν' : Type*} (f : ν → ν') (hnodup : (es.map Prod.fst).Nodup)
    (m : AssocMap κ ν') (k : κ) : (es.foldl (fun m e => m.insert e.1 (f e.2)) m).find k =
      ((findIn k es).map f).or (m.find k) := by
  induction es generalizing m with
  | nil => rfl
  | cons e es ih =>
    obtain ⟨hkey,hnodup⟩ := nodup_cons.mp hnodup
    rw [foldl_cons,ih hnodup,find_insert,findIn]
    by_cases hk : e.1 = k
    · subst hk
      rw [findIn_eq_none hkey,if_pos rfl,if_pos rfl]
      rfl
    · rw [if_neg hk,if_neg (Ne.symm hk)]

lemma mem_keys_insert {k' : κ} : k' ∈ (m.insert k v).keys ↔ k' = k ∨ k' ∈ m.keys := by
  rw [mem_keys_iff,find_insert,mem_keys_iff]
  split_ifs with hk
  · simp [hk]
  · simp [hk]

lemma mem_keys_foldl_insert {α : Type*} (key : α → κ) (value : AssocMap κ ν → α → ν)
    (xs : List α) (m : AssocMap κ ν) (k : κ) :
    k ∈ (xs.foldl (fun m x => m.insert (key x) (value m x)) m).keys ↔
      k ∈ m.keys ∨ ∃ x ∈ xs, key x = k := by
  induction xs generalizing m with
  | nil => simp
  | cons x xs ih =>
    rw [foldl_cons,ih,mem_keys_insert,exists_mem_cons_iff,or_comm (a := k = key x),or_assoc,eq_comm]

@[simp] lemma find_mapValues (f : ν → ν) (m : AssocMap κ ν) (k : κ) :
    (m.mapValues f).find k = (m.find k).map f := by
  unfold find mapValues
  dsimp only
  induction m.entries with
  | nil => rfl
  | cons e es ih =>
    simp only [map_cons,findIn]
    split_ifs
    · rfl
    · exact ih

lemma find_filterValues (p : ν → Bool) (m : AssocMap κ ν) (k : κ) :
    (m.filterValues p).find k = (m.find k).filter p := by
  obtain ⟨es,hes⟩ := m
  unfold find filterValues
  dsimp only
  induction es with
  | nil => rfl
  | cons e es ih =>
    rw [map_cons,nodup_cons] at hes
    by_cases hk : e.1 = k
    · -- The key occurs only once, so nothing behind it can be found.
      have hrest : findIn k (es.filter fun e => p e.2) = none := by
        apply findIn_eq_none
        intro hm
        obtain ⟨f,hf,hfk⟩ := mem_map.mp hm
        exact hes.1 (hk ▸ hfk ▸ mem_map_of_mem (mem_of_mem_filter hf))
      by_cases hp : p e.2 = true
      · simp [findIn,hk,hp,Option.filter]
      · simp [findIn,hk,hp,hrest,Option.filter]
    · by_cases hp : p e.2 = true
      · simpa [findIn,hk,hp] using ih hes.2
      · simpa [findIn,hk,hp] using ih hes.2

lemma length_insert_le (m : AssocMap κ ν) (k : κ) (v : ν) :
    (m.insert k v).entries.length ≤ m.entries.length+1 := by
  rw [← length_keys,keys,insert,insertIn_keys]
  split_ifs
  · rw [length_map]
    exact Nat.le_succ _
  · rw [length_append,length_map]
    exact Nat.le_refl _

lemma length_erase_le (m : AssocMap κ ν) (k : κ) :
    (m.erase k).entries.length ≤ m.entries.length := length_filter_le _ _

lemma find_erase (m : AssocMap κ ν) (k k' : κ) :
    (m.erase k).find k' = if k' = k then none else m.find k' := by
  have hmem : ∀ v, (k',v) ∈ (m.erase k).entries ↔ (k',v) ∈ m.entries ∧ k' ≠ k := by
    intro v
    simp [erase]
  ext v
  rw [← mem_entries_iff,hmem,mem_entries_iff]
  by_cases hk : k' = k
  · simp [hk]
  · simp [hk]

end AssocMap

/-- The order in which a hash map with keys in `κ` is iterated: any order of its entries. -/
structure Iteration (κ : Type) where
  list : {ν : Type} → List (κ × ν) → List (κ × ν)
  perm : ∀ {ν : Type} (es : List (κ × ν)), (list es).Perm es

/-- The order of the entries themselves. -/
instance (κ : Type) : Inhabited (Iteration κ) := ⟨⟨id,fun _ => List.Perm.refl _⟩⟩

end SmoFramework.Library
