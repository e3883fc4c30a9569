import Mathlib.Data.List.Induction
import SmoFramework.Discovery.PeerRecord
import SmoFramework.Library.AssocMap

/-! The table of known peers (`MembershipTable`). Its keys are eight bytes of the node ids. -/
namespace SmoFramework.Discovery
open Library List

structure MembershipTable where
  records : AssocMap UInt64 PeerRecord := AssocMap.empty
  /-- `capacity_`. -/
  capacity : ℕ := 1000

namespace MembershipTable

/-- `memcpy` of the first eight bytes into an integer, on a little-endian machine. -/
def toKey (id : NodeID) : UInt64 :=
  (id.toList.take 8).foldr (fun b key => (key <<< 8) ||| b.toUInt64) 0

variable (t : MembershipTable)

def count : ℕ := t.records.entries.length

def upsert (record : PeerRecord) : Result Unit × MembershipTable :=
  if t.records.contains (toKey record.nodeId) = false ∧ t.count ≥ t.capacity then
    (.error (smoErrDiscovery 405 .warn .noRetry .none "membership table at capacity"),t)
  else (.ok (),{ t with records := t.records.insert (toKey record.nodeId) record })

def notFound : Error :=
  smoErrDiscovery 400 .info .retrySafe .none "peer not found in membership table"

def lookup (id : NodeID) : Result PeerRecord :=
  match t.records.find (toKey id) with
  | none => .error notFound
  | some record => .ok record

def remove (id : NodeID) : Result Unit × MembershipTable :=
  match t.records.find (toKey id) with
  | none => (.error (smoErrDiscovery 400 .info .retrySafe .none "peer not found for removal"),t)
  | some _ => (.ok (),{ t with records := t.records.erase (toKey id) })

variable (order : Iteration UInt64)

def peers (t : MembershipTable) : List PeerRecord :=
  (order.list t.records.entries).map Prod.snd

def peersWithState (t : MembershipTable) (state : PeerState) :
    List PeerRecord := (t.peers order).filter (fun record => record.state = state)

inductive Op
  | upsert (record : PeerRecord)
  | remove (id : NodeID)
  | lookup (id : NodeID)

def Op.id : Op → NodeID
  | .upsert record => record.nodeId
  | .remove id => id
  | .lookup id => id

def apply : Op → MembershipTable
  | .upsert record => (t.upsert record).2
  | .remove id => (t.remove id).2
  | .lookup _ => t

variable (ops : List Op)

def run : MembershipTable := ops.foldl apply t

/-! The map that the table stands for. -/

/-- The record of the latest upsert with exactly this id, if it was not removed since. -/
def latest (id : NodeID) : Option PeerRecord :=
  ops.foldl (fun found op => match op with
    | .upsert record => if record.nodeId = id then some record else found
    | .remove id' => if id' = id then none else found
    | .lookup _ => found) none

def expected (id : NodeID) : Result PeerRecord :=
  match latest ops id with
  | none => .error notFound
  | some record => .ok record

def StaysBelow : Prop :=
  ∀ pre, pre <+: ops → (t.run pre).count < (t.run pre).capacity

lemma latest_append (op : Op) (id : NodeID) :
    latest (ops ++ [op]) id = match op with
      | .upsert record => if record.nodeId = id then some record else latest ops id
      | .remove id' => if id' = id then none else latest ops id
      | .lookup _ => latest ops id := by
  rw [latest,foldl_append]
  rfl

variable {t : MembershipTable} {t}

theorem find_upsert
    (h : t.records.contains (toKey record.nodeId) = true ∨ t.count < t.capacity) (key : UInt64) :
    (t.upsert record).2.records.find key =
      if key = toKey record.nodeId then some record else t.records.find key := by
  have hroom : ¬(t.records.contains (toKey record.nodeId) = false ∧ t.count ≥ t.capacity) := by
    rintro ⟨hnew,hfull⟩
    rcases h with h | h
    · rw [hnew] at h
      cases h
    · exact absurd h (Nat.not_lt.mpr hfull)
  rw [upsert,if_neg hroom]
  exact AssocMap.find_insert _ _ _ _

lemma find_remove (t : MembershipTable) (id : NodeID) (key : UInt64) :
    (t.remove id).2.records.find key = if key = toKey id then none else t.records.find key := by
  unfold remove
  cases hfind : t.records.find (toKey id) with
  | none =>
    split_ifs with hkey
    · rw [hkey,hfind]
    · rfl
  | some record => exact AssocMap.find_erase _ _ _

def Keyed (t : MembershipTable) : Prop :=
  ∀ key record, t.records.find key = some record → toKey record.nodeId = key

lemma Keyed.upsert (h : t.Keyed) (record : PeerRecord) : (t.upsert record).2.Keyed := by
  unfold MembershipTable.upsert
  split_ifs
  · exact h
  · intro key found hfind
    rw [AssocMap.find_insert] at hfind
    split_ifs at hfind with hkey
    · exact Option.some.inj hfind ▸ hkey.symm
    · exact h key found hfind

lemma Keyed.remove (h : t.Keyed) (id : NodeID) : (t.remove id).2.Keyed := by
  intro key record hfind
  rw [find_remove] at hfind
  split_ifs at hfind
  exact h key record hfind

lemma keyed_run (capacity : ℕ) (ops : List Op) : (run { capacity } ops).Keyed := by
  induction ops using reverseRecOn with
  | nil =>
    intro key record hfind
    cases hfind
  | append_singleton ops op ih =>
    rw [run,foldl_append]
    cases op with
    | upsert record => exact ih.upsert record
    | remove id => exact ih.remove id
    | lookup id => exact ih

/-- With room in the table, an operation acts on the entry of its key and on no other. -/
theorem find_apply (hroom : t.count < t.capacity) (op : Op) (key : UInt64) :
    (t.apply op).records.find key = match op with
      | .upsert record => if key = toKey record.nodeId then some record else t.records.find key
      | .remove id => if key = toKey id then none else t.records.find key
      | .lookup _ => t.records.find key := by
  cases op with
  | upsert record => exact find_upsert (Or.inr hroom) key
  | remove id => exact find_remove t id key
  | lookup id => rfl

lemma lookup_of_find {t' : MembershipTable} {id : NodeID}
    (h : t.records.find (toKey id) = t'.records.find (toKey id)) : t.lookup id = t'.lookup id := by
  rw [lookup,h,lookup]

variable {ops}

lemma StaysBelow.of_append (h : t.StaysBelow (ops ++ ops')) : t.StaysBelow ops :=
  fun pre hpre => h pre (hpre.trans (prefix_append _ _))

section
variable {ids : Set NodeID} {capacity : ℕ} {ops : List Op}

/-- As long as no two ids share a key, the table follows the map. -/
theorem find_run (hinj : Set.InjOn toKey ids) (hops : ∀ op ∈ ops, op.id ∈ ids)
    (hbelow : StaysBelow { capacity } ops) {id : NodeID} (hid : id ∈ ids) :
    (run { capacity } ops).records.find (toKey id) = latest ops id := by
  induction ops using reverseRecOn with
  | nil => rfl
  | append_singleton ops op ih =>
    obtain ⟨hops,hop⟩ := forall_mem_append.mp hops
    have hopid := hop op mem_cons_self
    have hkey : toKey id = toKey op.id ↔ op.id = id :=
      ⟨fun h => (hinj hid hopid h).symm,fun h => h ▸ rfl⟩
    have hroom := hbelow ops (prefix_append _ _)
    rw [run,foldl_append]
    change (apply (run { capacity } ops) op).records.find _ = _
    rw [find_apply hroom,latest_append,← ih hops hbelow.of_append]
    cases op with
    | upsert record => exact if_congr hkey rfl rfl
    | remove id' => exact if_congr hkey rfl rfl
    | lookup id' => rfl

end

lemma staysBelow_upsert {capacity : ℕ} (h : 1 < capacity) (record : PeerRecord) :
    StaysBelow { capacity } [.upsert record] := by
  intro pre hpre
  have hempty : count { capacity } < capacity := Nat.zero_lt_of_lt h
  rcases prefix_cons_iff.mp hpre with rfl | ⟨rest,rfl,hrest⟩
  · exact hempty
  · rw [prefix_nil.mp hrest]
    change ((upsert { capacity } record).2).count < ((upsert { capacity } record).2).capacity
    rw [upsert,if_neg (fun h => absurd hempty (Nat.not_lt.mpr h.2))]
    exact h

/-- The table is a map over a set of ids exactly if no two of them share their first eight bytes. -/
theorem follows_map_iff (ids : Set NodeID) :
    (∀ capacity ops, (∀ op ∈ ops, op.id ∈ ids) → StaysBelow { capacity } ops → ∀ id ∈ ids,
      (run { capacity } ops).lookup id = expected ops id ∧
      ∀ op, op.id ∈ ids → op.id ≠ id →
        ((run { capacity } ops).apply op).lookup id = (run { capacity } ops).lookup id) ↔
      Set.InjOn toKey ids := by
  constructor
  · intro h x hx y hy hkey
    by_contra hne
    -- The record of the one id is found for the other.
    have hmap := (h 2 [.upsert { nodeId := x }] (by simpa [Op.id] using hx)
      (staysBelow_upsert (by decide) _) y hy).1
    have hfind : (run { capacity := 2 } [.upsert { nodeId := x }]).records.find (toKey y) =
        some { nodeId := x } :=
      (find_apply (t := { capacity := 2 }) (by decide) (.upsert { nodeId := x }) _).trans
        (if_pos hkey.symm)
    have hnone : latest [.upsert { nodeId := x }] y = none :=
      (latest_append [] (.upsert { nodeId := x }) y).trans (if_neg hne)
    rw [lookup,hfind,expected,hnone] at hmap
    cases hmap
  · intro hinj capacity ops hops hbelow id hid
    have hroom := hbelow ops prefix_rfl
    constructor
    · rw [lookup,find_run hinj hops hbelow hid]
      rfl
    · intro op hop hne
      have hkey : toKey id ≠ toKey op.id := fun h => hne (hinj hid hop h).symm
      refine lookup_of_find ((find_apply hroom op _).trans ?_)
      cases op with
      | upsert record => exact if_neg hkey
      | remove id' => exact if_neg hkey
      | lookup id' => rfl

def firstId : NodeID := List.Vector.replicate 32 0
def secondId : NodeID := ⟨List.replicate 31 0 ++ [1],rfl⟩

/-- The second node is taken for the first one: it is found without having been inserted, and its
record replaces the other. -/
theorem ids_share_record : let t := run {} [.upsert { nodeId := firstId }]
    secondId ≠ firstId ∧ StaysBelow {} [.upsert { nodeId := firstId }] ∧
      t.lookup secondId = .ok { nodeId := firstId } ∧
      expected [.upsert { nodeId := firstId }] secondId = .error notFound ∧
      (t.apply (.upsert { nodeId := secondId })).lookup firstId = .ok { nodeId := secondId } ∧
      (t.apply (.remove secondId)).lookup firstId = .error notFound :=
  ⟨by decide,staysBelow_upsert (by decide) _,rfl,rfl,rfl,rfl⟩

end MembershipTable
end SmoFramework.Discovery
