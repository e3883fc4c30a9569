import Mathlib.Data.List.Basic
import Mathlib.Data.List.Induction
import SmoFramework.Errors

/-! The ring of bootstrap slots (`core/genesis/bootstrap_slot`): claimants take slots for a limited time
and hand in a signed request for the slot that they were given. -/
namespace SmoFramework.Genesis
open List

inductive SlotStatus
  | vacant | claimed | fulfilled | expired | revoked
  deriving DecidableEq, Repr

structure BootstrapSlot where
  index : UInt32 := 0
  status : SlotStatus := .vacant
  role : Bytes := []
  nodePublicKey : Bytes := []
  joinTokenId : Bytes := []
  claimedAt : UInt64 := 0
  expiresAt : UInt64 := 0
  signedCsr : Bytes := []
  fulfilledAt : UInt64 := 0
  deriving DecidableEq

/-- An expiry time of zero never comes. -/
def expiredAt (expiresAt now : UInt64) : Bool := expiresAt > 0 ∧ now > expiresAt

namespace BootstrapSlot

variable (s : BootstrapSlot) (now : UInt64)

def isExpired : Bool := expiredAt s.expiresAt now

def isFree : Bool :=
  s.status = .vacant ∨ s.status = .claimed ∧ s.isExpired now

end BootstrapSlot

structure SlotRing where
  slots : List BootstrapSlot
  /-- `config.ttl_ns`. The default is the count of 72 hours, which is 72, times 10^9. -/
  ttlNs : UInt64 := 72*1000000000

namespace SlotRing

def claimSlot (r : SlotRing) (role nodePublicKey joinTokenId : Bytes) (now : UInt64) :
    Result UInt32 × SlotRing :=
  match r.slots.findIdx? (·.isFree now) with
  | none => (.error (smoErrGenesis 1402 .error .noRetry .manualIntervention
      "all bootstrap slots exhausted"),r)
  | some i => (.ok (UInt32.ofNat i),{ r with slots := r.slots.set i {
      index := UInt32.ofNat i
      status := .claimed
      role
      nodePublicKey
      joinTokenId
      claimedAt := now
      expiresAt := now+r.ttlNs
      signedCsr := []
      fulfilledAt := 0 } })

/-- The common body of `fulfill_slot`, `expire_slot` and `revoke_slot`: a range check, a check of the
status and an update. -/
def updateSlot (ready : SlotStatus → Bool) (message : String) (f : BootstrapSlot → BootstrapSlot)
    (r : SlotRing) (index : UInt32) : Result Unit × SlotRing :=
  match r.slots[index.toNat]? with
  | none => (.error (smoErrGenesis 1401 .error .noRetry .manualIntervention
      "slot index out of range"),r)
  | some s =>
    if ready s.status = false then
      (.error (smoErrGenesis 1401 .error .noRetry .manualIntervention message),r)
    else (.ok (),{ r with slots := r.slots.set index.toNat (f s) })

def fulfillSlot (r : SlotRing) (index : UInt32) (csr : Bytes) (now : UInt64) : Result Unit × SlotRing :=
  updateSlot (· = .claimed) "slot not in claimed state"
    (fun s => { s with status := .fulfilled, signedCsr := csr, fulfilledAt := now }) r index

def expireSlot : SlotRing → UInt32 → Result Unit × SlotRing :=
  updateSlot (· = .claimed) "slot not in claimed state" fun s => { s with status := .expired }

def revokeSlot : SlotRing → UInt32 → Result Unit × SlotRing :=
  updateSlot (fun status => status = .claimed ∨ status = .fulfilled) "slot not in claimable state"
    fun s => { s with status := .revoked }

/-- A claimant is known by its join token. -/
inductive Op
  | claim (role nodePublicKey joinTokenId : Bytes) (now : UInt64)
  | fulfill (claimant : Bytes) (index : UInt32) (csr : Bytes) (now : UInt64)
  | expire (index : UInt32)
  | revoke (index : UInt32)

def apply (r : SlotRing) : Op → SlotRing
  | .claim role key token now => (r.claimSlot role key token now).2
  | .fulfill _ index csr now => (r.fulfillSlot index csr now).2
  | .expire index => (r.expireSlot index).2
  | .revoke index => (r.revokeSlot index).2

def run (r : SlotRing) (ops : List Op) : SlotRing := ops.foldl apply r

/-! The claims of a run. -/

structure Claim where
  slot : ℕ
  joinTokenId : Bytes
  expiresAt : UInt64
  deriving DecidableEq

def claimOf (r : SlotRing) : Op → Option Claim
  | .claim _ _ token now =>
    (r.slots.findIdx? (·.isFree now)).map fun i => ⟨i,token,now+r.ttlNs⟩
  | _ => none

def claims : SlotRing → List Op → List Claim
  | _, [] => []
  | r, op::ops => (r.claimOf op).toList ++ claims (r.apply op) ops

/-- Every claimant hands in requests only for indices that one of its claims has returned. -/
def OwnIndices (r : SlotRing) (ops : List Op) : Prop :=
  ∀ pre claimant index csr now post, ops = pre ++ .fulfill claimant index csr now::post →
    ∃ claim ∈ r.claims pre, claim.joinTokenId = claimant ∧ UInt32.ofNat claim.slot = index

/-! What a call does to one slot. -/

section
variable {r : SlotRing} {i : ℕ} {s : BootstrapSlot}

lemma updateSlot_slot {ready : SlotStatus → Bool} {f : BootstrapSlot → BootstrapSlot}
    (h : (updateSlot ready message f r index).2.slots[i]? = some s) :
    r.slots[i]? = some s ∨ ∃ s₀, r.slots[i]? = some s₀ ∧ s = f s₀ ∧ ready s₀.status = true := by
  unfold updateSlot at h
  cases hat : r.slots[index.toNat]? with
  | none =>
    rw [hat] at h
    exact Or.inl h
  | some s₀ =>
    rw [hat] at h
    dsimp only at h
    split_ifs at h with hready
    · exact Or.inl h
    · rw [getElem?_set] at h
      split_ifs at h with hi hlt
      · cases h
        exact Or.inr ⟨s₀,hi ▸ hat,rfl,eq_true_of_ne_false hready⟩
      · exact Or.inl h

lemma claimSlot_slot (h : (r.claimSlot role key token now).2.slots[i]? = some s) :
    (r.slots[i]? = some s ∧ r.slots.findIdx? (·.isFree now) ≠ some i) ∨
    ∃ s₀, r.slots[i]? = some s₀ ∧ s₀.isFree now = true ∧
      r.slots.findIdx? (·.isFree now) = some i ∧ s.status = .claimed ∧ s.joinTokenId = token ∧
      s.expiresAt = now+r.ttlNs := by
  unfold claimSlot at h
  cases hfree : r.slots.findIdx? (·.isFree now) with
  | none =>
    rw [hfree] at h
    exact Or.inl ⟨h,by simp⟩
  | some j =>
    rw [hfree] at h
    rw [getElem?_set] at h
    split_ifs at h with hj hlt
    · cases h
      obtain ⟨hlt',hfree',-⟩ := findIdx?_eq_some_iff_getElem.mp hfree
      subst hj
      exact Or.inr ⟨_,getElem?_eq_getElem hlt',hfree',rfl,rfl,rfl,rfl⟩
    · exact Or.inl ⟨h,fun hji => hj (Option.some.inj hji)⟩

lemma apply_slot (h : (r.apply op).slots[i]? = some s) :
    (r.slots[i]? = some s ∧ ∀ claim, r.claimOf op = some claim → claim.slot ≠ i) ∨
    (s.status ≠ .claimed ∧ s.status ≠ .vacant ∧ r.claimOf op = none) ∨
    ∃ s₀ role key token now, op = .claim role key token now ∧ r.slots[i]? = some s₀ ∧
      s₀.isFree now = true ∧ r.claimOf op = some ⟨i,token,now+r.ttlNs⟩ ∧ s.status = .claimed ∧
      s.joinTokenId = token ∧ s.expiresAt = now+r.ttlNs := by
  cases op with
  | claim role key token now =>
    rcases claimSlot_slot h with ⟨h,hother⟩ | ⟨s₀,hat,hfree,hfirst,hstatus,htoken,hexpires⟩
    · refine Or.inl ⟨h,fun claim hclaim hslot => hother ?_⟩
      obtain ⟨j,hj,rfl⟩ := Option.map_eq_some_iff.mp hclaim
      exact hslot ▸ hj
    · refine Or.inr (Or.inr ⟨s₀,role,key,token,now,rfl,hat,hfree,?_,hstatus,htoken,hexpires⟩)
      rw [claimOf,hfirst]
      rfl
  | fulfill claimant index csr now =>
    rcases updateSlot_slot h with h | ⟨s₀,-,rfl,-⟩
    · exact Or.inl ⟨h,by simp [claimOf]⟩
    · exact Or.inr (Or.inl ⟨by simp,by simp,rfl⟩)
  | expire index =>
    rcases updateSlot_slot h with h | ⟨s₀,-,rfl,-⟩
    · exact Or.inl ⟨h,by simp [claimOf]⟩
    · exact Or.inr (Or.inl ⟨by simp,by simp,rfl⟩)
  | revoke index =>
    rcases updateSlot_slot h with h | ⟨s₀,-,rfl,-⟩
    · exact Or.inl ⟨h,by simp [claimOf]⟩
    · exact Or.inr (Or.inl ⟨by simp,by simp,rfl⟩)

/-! A slot whose claim has not expired is not given away. -/

/-- The slot carries the claim, or is out of use. -/
def Keeps (r : SlotRing) (claim : Claim) : Prop :=
  ∃ s, r.slots[claim.slot]? = some s ∧ s.status ≠ .vacant ∧ (s.status = .claimed →
    s.joinTokenId = claim.joinTokenId ∧ s.expiresAt = claim.expiresAt)

lemma expiredAt_mono {expiresAt t now : UInt64} (ht : t ≤ now) (h : expiredAt expiresAt t = true) :
    expiredAt expiresAt now = true := by
  simp only [expiredAt,decide_eq_true_eq] at h ⊢
  exact ⟨h.1,UInt64.lt_of_lt_of_le h.2 ht⟩

lemma apply_keeps (r : SlotRing) (op : Op) :
    (r.apply op).slots.length = r.slots.length ∧ (r.apply op).ttlNs = r.ttlNs := by
  have hupdate : ∀ ready message f index, (updateSlot ready message f r index).2.slots.length =
      r.slots.length ∧ (updateSlot ready message f r index).2.ttlNs = r.ttlNs := by
    intro ready message f index
    unfold updateSlot
    cases r.slots[index.toNat]? with
    | none => exact ⟨rfl,rfl⟩
    | some s =>
      dsimp only
      split_ifs
      · exact ⟨rfl,rfl⟩
      · exact ⟨length_set,rfl⟩
  cases op with
  | claim role key token now =>
    unfold apply claimSlot
    dsimp only
    cases r.slots.findIdx? (·.isFree now) with
    | none => exact ⟨rfl,rfl⟩
    | some i => exact ⟨length_set,rfl⟩
  | fulfill claimant index csr now => exact hupdate _ _ _ _
  | expire index => exact hupdate _ _ _ _
  | revoke index => exact hupdate _ _ _ _

lemma run_keeps (r : SlotRing) (ops : List Op) :
    (r.run ops).slots.length = r.slots.length ∧ (r.run ops).ttlNs = r.ttlNs := by
  induction ops generalizing r with
  | nil => exact ⟨rfl,rfl⟩
  | cons op ops ih =>
    obtain ⟨hlen,httl⟩ := ih (r.apply op)
    exact ⟨hlen.trans (r.apply_keeps op).1,httl.trans (r.apply_keeps op).2⟩

variable {claim : Claim} {now : UInt64} {op : Op}

lemma Keeps.apply (h : r.Keeps claim) (hnow : expiredAt claim.expiresAt now = false)
    (hop : ∀ role key token t, op = .claim role key token t → t ≤ now) : (r.apply op).Keeps claim := by
  obtain ⟨s,hs,hvacant,hclaimed⟩ := h
  have hlt : claim.slot < (r.apply op).slots.length := by
    rw [(apply_keeps r op).1]
    exact (List.getElem?_eq_some_iff.mp hs).1
  have hs' := getElem?_eq_getElem hlt
  refine ⟨_,hs',?_⟩
  rcases apply_slot hs' with ⟨hsame,-⟩ | ⟨hne,hne',-⟩ | ⟨s₀,role,key,token,t,rfl,hs₀,hfree,-⟩
  · cases hs.symm.trans hsame
    exact ⟨hvacant,hclaimed⟩
  · exact ⟨hne',fun h => absurd h hne⟩
  · -- The slot was free, so that its claim had expired already at the time of the new one.
    cases hs.symm.trans hs₀
    rcases of_decide_eq_true hfree with hfree | ⟨hstatus,hexpired⟩
    · exact absurd hfree hvacant
    · rw [BootstrapSlot.isExpired,(hclaimed hstatus).2] at hexpired
      rw [expiredAt_mono (hop role key token t rfl) hexpired] at hnow
      cases hnow

lemma Keeps.run {ops : List Op} (h : r.Keeps claim) (hnow : expiredAt claim.expiresAt now = false)
    (hops : ∀ role key token t, .claim role key token t ∈ ops → t ≤ now) :
    (r.run ops).Keeps claim := by
  induction ops generalizing r with
  | nil => exact h
  | cons op ops ih =>
    refine ih (h.apply hnow ?_) fun role key token t ht => hops role key token t (mem_cons_of_mem _ ht)
    rintro role key token t rfl
    exact hops role key token t mem_cons_self

lemma keeps_claimOf (h : r.claimOf op = some claim) : (r.apply op).Keeps claim := by
  cases op with
  | claim role key token t =>
    obtain ⟨i,hfree,rfl⟩ := Option.map_eq_some_iff.mp h
    obtain ⟨hlt,-,-⟩ := findIdx?_eq_some_iff_getElem.mp hfree
    change (r.claimSlot role key token t).2.Keeps _
    unfold claimSlot
    rw [hfree]
    exact ⟨_,getElem?_set_self hlt,by simp,fun _ => ⟨rfl,rfl⟩⟩
  | fulfill | expire | revoke => cases h

lemma keeps_of_mem_claims {ops : List Op} (h : claim ∈ r.claims ops)
    (hnow : expiredAt claim.expiresAt now = false)
    (hops : ∀ role key token t, .claim role key token t ∈ ops → t ≤ now) :
    (r.run ops).Keeps claim := by
  induction ops generalizing r with
  | nil => cases h
  | cons op ops ih =>
    have hrest := fun role key token t ht => hops role key token t (mem_cons_of_mem _ ht)
    rcases mem_append.mp h with h | h
    · exact (keeps_claimOf (Option.mem_toList.mp h)).run hnow hrest
    · exact ih h hrest

lemma fulfillSlot_ok (h : (r.fulfillSlot index csr now).1 = .ok ()) :
    ∃ s, r.slots[index.toNat]? = some s ∧ s.status = .claimed := by
  unfold fulfillSlot updateSlot at h
  cases hat : r.slots[index.toNat]? with
  | none => simp [hat] at h
  | some s =>
    refine ⟨s,rfl,?_⟩
    by_contra hstatus
    simp [hat,hstatus] at h

end

/-- A call of `fulfill_slot` that succeeds acts on the caller's own slot within the caller's time. -/
def ActsOnOwn (r : SlotRing) (ops : List Op) : Prop :=
  ∀ pre claimant index csr now post, ops = pre ++ .fulfill claimant index csr now::post →
    ((r.run pre).fulfillSlot index csr now).1 = .ok () →
    ∃ s, (r.run pre).slots[index.toNat]? = some s ∧ s.joinTokenId = claimant ∧ s.isExpired now = false

/-- No claim before a request is dated after it, and a claim of the caller has returned the index of
the request and has not expired. -/
def Timely (r : SlotRing) (ops : List Op) : Prop :=
  ∀ pre claimant index csr now post, ops = pre ++ .fulfill claimant index csr now::post →
    (∀ role key token t, .claim role key token t ∈ pre → t ≤ now) ∧
    ∃ claim ∈ r.claims pre, claim.joinTokenId = claimant ∧ UInt32.ofNat claim.slot = index ∧
      expiredAt claim.expiresAt now = false

/-- In a run whose requests come in time, each acts on the caller's own slot if it succeeds. -/
theorem actsOnOwn_of_timely (r : SlotRing) (hsize : r.slots.length ≤ UInt32.size) (ops : List Op)
    (h : r.Timely ops) : r.ActsOnOwn ops := by
  intro pre claimant index csr now post hops hok
  obtain ⟨hclock,claim,hmem,rfl,rfl,hnow⟩ := h pre claimant index csr now post hops
  obtain ⟨s,hs,-,hkept⟩ := keeps_of_mem_claims hmem hnow hclock
  have hlt := (List.getElem?_eq_some_iff.mp hs).1
  rw [(run_keeps r pre).1] at hlt
  have hindex : (UInt32.ofNat claim.slot).toNat = claim.slot :=
    UInt32.toNat_ofNat_of_lt' (Nat.lt_of_lt_of_le hlt hsize)
  obtain ⟨s',hs',hclaimed⟩ := fulfillSlot_ok hok
  rw [hindex] at hs' ⊢
  cases hs.symm.trans hs'
  obtain ⟨htoken,hexpires⟩ := hkept hclaimed
  refine ⟨s,hs,htoken,?_⟩
  rw [BootstrapSlot.isExpired,hexpires]
  exact hnow

lemma eq_of_only_request {calls pre post : List Op}
    (hcalls : ∀ op ∈ calls, ∀ c i s n, op ≠ .fulfill c i s n)
    (h : calls ++ [.fulfill claimant index csr now] =
      pre ++ .fulfill claimant' index' csr' now'::post) :
    pre = calls ∧ claimant' = claimant ∧ index' = index ∧ csr' = csr ∧ now' = now := by
  induction calls generalizing pre with
  | nil =>
    cases pre with
    | nil =>
      cases h
      exact ⟨rfl,rfl,rfl,rfl,rfl⟩
    | cons op pre => simp at h
  | cons op calls ih =>
    obtain ⟨hop,hcalls⟩ := forall_mem_cons.mp hcalls
    cases pre with
    | nil =>
      cases h
      exact absurd rfl (hop _ _ _ _)
    | cons op' pre =>
      obtain ⟨rfl,hrest⟩ := cons.inj h
      obtain ⟨rfl,heqs⟩ := ih hcalls hrest
      exact ⟨rfl,heqs⟩

def ringOfOne : SlotRing := ⟨[{}],10⟩

def claimAt (token : Bytes) (now : UInt64) : Op := .claim [] [] token now

theorem actsOnOwn_in_time :
    ringOfOne.ActsOnOwn ([claimAt [1] 0,claimAt [2] 11,claimAt [3] 12] ++ [.fulfill [2] 0 [] 20]) := by
  refine actsOnOwn_of_timely ringOfOne (by decide) _ fun pre claimant index csr now post h => ?_
  obtain ⟨rfl,rfl,rfl,rfl,rfl⟩ := eq_of_only_request (by simp [claimAt]) h
  refine ⟨?_,⟨0,[2],21⟩,by decide,rfl,rfl,by decide⟩
  simp only [claimAt,mem_cons,Op.claim.injEq,not_mem_nil,or_false]
  rintro role key token t (⟨-,-,-,rfl⟩ | ⟨-,-,-,rfl⟩ | ⟨-,-,-,rfl⟩) <;> decide

/-- A request that comes too late is accepted, for the caller's expired claim and for another
claimant's. -/
theorem late_fulfill_accepted : (ringOfOne.OwnIndices ([claimAt [1] 0] ++ [.fulfill [1] 0 [] 11]) ∧
      ¬ringOfOne.ActsOnOwn ([claimAt [1] 0] ++ [.fulfill [1] 0 [] 11])) ∧
    ringOfOne.OwnIndices ([claimAt [1] 0,claimAt [2] 11] ++ [.fulfill [1] 0 [] 12]) ∧
      ¬ringOfOne.ActsOnOwn ([claimAt [1] 0,claimAt [2] 11] ++ [.fulfill [1] 0 [] 12]) := by
  refine ⟨⟨?_,?_⟩,?_,?_⟩
  · intro pre claimant index csr now post h
    obtain ⟨rfl,rfl,rfl,rfl,rfl⟩ := eq_of_only_request (by simp [claimAt]) h
    exact ⟨⟨0,[1],10⟩,by decide,rfl,rfl⟩
  · intro h
    obtain ⟨s,hs,-,hexpired⟩ := h [claimAt [1] 0] [1] 0 [] 11 [] rfl rfl
    cases hs
    exact absurd hexpired (by decide)
  · intro pre claimant index csr now post h
    obtain ⟨rfl,rfl,rfl,rfl,rfl⟩ := eq_of_only_request (by simp [claimAt]) h
    exact ⟨⟨0,[1],10⟩,by decide,rfl,rfl⟩
  · intro h
    obtain ⟨s,hs,htoken,-⟩ := h [claimAt [1] 0,claimAt [2] 11] [1] 0 [] 12 [] rfl rfl
    cases hs
    exact absurd htoken (by decide)

end SlotRing
end SmoFramework.Genesis
