import Mathlib.Algebra.Group.Nat.Defs
import SmoFramework.Genesis.SlotRing

/-! How many slots of a ring are available, and the life of a slot over any sequence of calls. -/
namespace SmoFramework.Genesis
open List
namespace SlotRing

def availableCount (r : SlotRing) (now : UInt64) : UInt32 :=
  r.slots.foldl (fun cnt s => if s.isFree now then cnt+1 else cnt) 0

/-! Counting. -/

lemma foldl_count (slots : List BootstrapSlot) (now : UInt64) (cnt : UInt32) :
    slots.foldl (fun cnt s => if s.isFree now then cnt+1 else cnt) cnt =
      cnt+UInt32.ofNat (slots.countP (·.isFree now)) := by
  induction slots generalizing cnt with
  | nil => simp
  | cons s slots ih =>
    rw [foldl_cons,ih,countP_cons]
    by_cases hfree : s.isFree now = true
    · rw [if_pos hfree,if_pos hfree,UInt32.ofNat_add,UInt32.add_assoc,UInt32.add_comm 1]
      rfl
    · rw [if_neg hfree,if_neg hfree,Nat.add_zero]

lemma toNat_availableCount {r : SlotRing} (hsize : r.slots.length < 2^32) (now : UInt64) :
    (r.availableCount now).toNat = r.slots.countP (·.isFree now) := by
  have hle : r.slots.countP (·.isFree now) ≤ r.slots.length := countP_le_length
  rw [availableCount,foldl_count,UInt32.zero_add,UInt32.toNat_ofNat_of_lt' (Nat.lt_of_le_of_lt hle hsize)]

variable {s : BootstrapSlot}

lemma not_isFree_claimed {now ttlNs : UInt64} (hstatus : s.status = .claimed)
    (hexpires : s.expiresAt = now+ttlNs) (hfits : now.toNat+ttlNs.toNat < 2^64) :
    s.isFree now = false := by
  have hlate : ¬now > now+ttlNs := by
    rw [gt_iff_lt,UInt64.lt_iff_toNat_lt,UInt64.toNat_add]
    omega
  simp [BootstrapSlot.isFree,BootstrapSlot.isExpired,expiredAt,hstatus,hexpires,hlate]

section
variable {r : SlotRing} {role key token : Bytes} {now : UInt64}

lemma claimSlot_ok_iff : (∃ i, (r.claimSlot role key token now).1 = .ok i) ↔
    0 < r.slots.countP (·.isFree now) := by
  rw [countP_pos_iff]
  unfold claimSlot
  cases hfree : r.slots.findIdx? (·.isFree now) with
  | none =>
    have hnone := findIdx?_eq_none_iff.mp hfree
    refine iff_of_false (fun ⟨i,hi⟩ => by cases hi) ?_
    rintro ⟨s,hs,hfree⟩
    rw [hnone s hs] at hfree
    cases hfree
  | some i =>
    obtain ⟨hlt,hat,-⟩ := findIdx?_eq_some_iff_getElem.mp hfree
    exact iff_of_true ⟨_,rfl⟩ ⟨_,getElem_mem hlt,hat⟩

lemma claimSlot_ok {i : UInt32} (hsize : r.slots.length < 2^32)
    (h : (r.claimSlot role key token now).1 = .ok i) :
    ∃ s : BootstrapSlot, s.status = .claimed ∧ s.joinTokenId = token ∧ s.expiresAt = now+r.ttlNs ∧
      ∃ hlt : i.toNat < r.slots.length, r.slots[i.toNat].isFree now = true ∧
        (r.claimSlot role key token now).2.slots = r.slots.set i.toNat s := by
  unfold claimSlot at h ⊢
  cases hfree : r.slots.findIdx? (·.isFree now) with
  | none =>
    rw [hfree] at h
    cases h
  | some j =>
    rw [hfree] at h
    cases h
    obtain ⟨hlt,hat,-⟩ := findIdx?_eq_some_iff_getElem.mp hfree
    have hj : (UInt32.ofNat j).toNat = j := UInt32.toNat_ofNat_of_lt' (Nat.lt_trans hlt hsize)
    rw [hj]
    exact ⟨_,rfl,rfl,rfl,hlt,hat,rfl⟩

lemma availableCount_claimSlot (hsize : r.slots.length < 2^32)
    (hfits : now.toNat+r.ttlNs.toNat < 2^64) {i : UInt32}
    (h : (r.claimSlot role key token now).1 = .ok i) :
    ((r.claimSlot role key token now).2.availableCount now).toNat+1 = (r.availableCount now).toNat := by
  obtain ⟨s,hstatus,-,hexpires,hlt,hfree,hslots⟩ := claimSlot_ok hsize h
  have hsize' : (r.claimSlot role key token now).2.slots.length < 2^32 := by
    rwa [hslots,length_set]
  have hpos : 0 < r.slots.countP (·.isFree now) :=
    countP_pos_iff.mpr ⟨_,getElem_mem hlt,hfree⟩
  rw [toNat_availableCount hsize',toNat_availableCount hsize,hslots,countP_set hlt,if_pos hfree,
    not_isFree_claimed hstatus hexpires hfits]
  simp only [Bool.false_eq_true,if_false]
  omega

end

/-! The life of a slot. -/

inductive Moves (s : BootstrapSlot) : BootstrapSlot → Prop
  | stays : Moves s s
  | taken {s'} : s.status = .vacant ∨ s.status = .claimed → Moves s s'
  | revoked : s.status = .fulfilled → Moves s { s with status := .revoked }

variable {i : ℕ}

lemma apply_moves {r : SlotRing} {op : Op} {s' : BootstrapSlot}
    (hs : r.slots[i]? = some s) (hs' : (r.apply op).slots[i]? = some s') : Moves s s' := by
  cases op with
  | claim role key token now =>
    rcases claimSlot_slot hs' with ⟨hsame,-⟩ | ⟨s₀,hs₀,hfree,-⟩
    · cases hs.symm.trans hsame
      exact .stays
    · cases hs.symm.trans hs₀
      exact .taken ((of_decide_eq_true hfree).imp_right And.left)
  | fulfill claimant index csr now =>
    rcases updateSlot_slot hs' with hsame | ⟨s₀,hs₀,rfl,hready⟩
    · cases hs.symm.trans hsame
      exact .stays
    · cases hs.symm.trans hs₀
      exact .taken (Or.inr (of_decide_eq_true hready))
  | expire index =>
    rcases updateSlot_slot hs' with hsame | ⟨s₀,hs₀,rfl,hready⟩
    · cases hs.symm.trans hsame
      exact .stays
    · cases hs.symm.trans hs₀
      exact .taken (Or.inr (of_decide_eq_true hready))
  | revoke index =>
    rcases updateSlot_slot hs' with hsame | ⟨s₀,hs₀,rfl,hready⟩
    · cases hs.symm.trans hsame
      exact .stays
    · cases hs.symm.trans hs₀
      rcases of_decide_eq_true hready with hclaimed | hfulfilled
      · exact .taken (Or.inr hclaimed)
      · exact .revoked hfulfilled

lemma exists_slot_apply {r : SlotRing} (hs : r.slots[i]? = some s)
    (op : Op) : ∃ s', (r.apply op).slots[i]? = some s' ∧ Moves s s' := by
  have hlt : i < (r.apply op).slots.length := by
    rw [(r.apply_keeps op).1]
    exact (List.getElem?_eq_some_iff.mp hs).1
  have hs' := List.getElem?_eq_getElem hlt
  exact ⟨_,hs',apply_moves hs hs'⟩

lemma run_retired {r : SlotRing} (hs : r.slots[i]? = some s)
    (hstatus : s.status = .revoked ∨ s.status = .expired) (ops : List Op) :
    (r.run ops).slots[i]? = some s := by
  induction ops generalizing r with
  | nil => exact hs
  | cons op ops ih =>
    obtain ⟨s',hs',hmoves⟩ := exists_slot_apply hs op
    refine ih (r := r.apply op) ?_
    cases hmoves with
    | stays => exact hs'
    | taken htaken => rcases hstatus with h | h <;> rw [h] at htaken <;> simp at htaken
    | revoked hfulfilled => rcases hstatus with h | h <;> rw [h] at hfulfilled <;> cases hfulfilled

lemma run_fulfilled {r : SlotRing} (hs : r.slots[i]? = some s)
    (hstatus : s.status = .fulfilled) (ops : List Op) :
    (r.run ops).slots[i]? = some s ∨ (r.run ops).slots[i]? = some { s with status := .revoked } := by
  induction ops generalizing r with
  | nil => exact Or.inl hs
  | cons op ops ih =>
    obtain ⟨s',hs',hmoves⟩ := exists_slot_apply hs op
    cases hmoves with
    | stays => exact ih (r := r.apply op) hs'
    | taken htaken =>
      rw [hstatus] at htaken
      simp at htaken
    | revoked _ => exact Or.inr (run_retired hs' (Or.inl rfl) ops)

/-- In every state that a ring of `count` slots reaches, a claim succeeds exactly if a slot is available,
takes one of them and changes no other. A slot that has expired or was revoked is not assigned again, and
a fulfilled one can only be revoked. -/
theorem run_slots_conserved (r : SlotRing) (count : UInt32) (hcount : r.slots.length = count.toNat)
    (ops : List Op) : (∀ role key token now, now.toNat+r.ttlNs.toNat < 2^64 →
      let ring := r.run ops
      let claimed := ring.claimSlot role key token now
      ((∃ i, claimed.1 = .ok i) ↔ 0 < ring.availableCount now) ∧
      ∀ i, claimed.1 = .ok i →
        (claimed.2.availableCount now).toNat+1 = (ring.availableCount now).toNat ∧
        ∀ j ≠ i.toNat, claimed.2.slots[j]? = ring.slots[j]?) ∧
    ∀ pre post, ops = pre ++ post → ∀ (i : ℕ) (s : BootstrapSlot), (r.run pre).slots[i]? = some s →
      (s.status = .revoked ∨ s.status = .expired → (r.run ops).slots[i]? = some s) ∧
      (s.status = .fulfilled → (r.run ops).slots[i]? = some s ∨
        (r.run ops).slots[i]? = some { s with status := .revoked }) := by
  have hsize : (r.run ops).slots.length < 2^32 := by
    rw [(r.run_keeps ops).1,hcount]
    exact count.toNat_lt
  constructor
  · intro role key token now hfits ring claimed
    have httl : ring.ttlNs = r.ttlNs := (r.run_keeps ops).2
    constructor
    · rw [claimSlot_ok_iff,UInt32.lt_iff_toNat_lt,toNat_availableCount hsize]
      rfl
    · intro i hok
      refine ⟨availableCount_claimSlot hsize (httl ▸ hfits) hok,fun j hj => ?_⟩
      obtain ⟨s,-,-,-,-,-,hslots⟩ := claimSlot_ok hsize hok
      rw [hslots]
      exact getElem?_set_ne (Ne.symm hj)
  · rintro pre post rfl i s hs
    have hrun : r.run (pre ++ post) = (r.run pre).run post := foldl_append
    rw [hrun]
    exact ⟨fun hretired => run_retired hs hretired post,fun hfulfilled => run_fulfilled hs hfulfilled post⟩

theorem run_slots_conserved_three :
    let ring := run ⟨[{},{},{}],10⟩
      [claimAt [1] 0,claimAt [2] 0,.expire 1,.fulfill [1] 0 [] 5]
    let claimed := ring.claimSlot [] [] [3] 6
    claimed.1 = .ok 2 ∧ (claimed.2.availableCount 6).toNat+1 = (ring.availableCount 6).toNat ∧
      ∀ j ≠ 2, claimed.2.slots[j]? = ring.slots[j]? :=
  ⟨rfl,((run_slots_conserved ⟨[{},{},{}],10⟩ 3 rfl
    [claimAt [1] 0,claimAt [2] 0,.expire 1,.fulfill [1] 0 [] 5]).1 [] [] [3] 6 (by decide)).2 2 rfl⟩

end SlotRing
end SmoFramework.Genesis
