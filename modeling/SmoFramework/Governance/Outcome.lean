import SmoFramework.Governance.Quorum

/-! Which operations can still change a proposal once its outcome is decided. -/
namespace SmoFramework.Governance
open SmoFramework.Library GovernanceEngine GovernanceEngine List

def ProposalState.Final (s : ProposalState) : Prop :=
  s = .committed ∨ s = .rejected ∨ s = .expired

lemma ProposalState.Final.ne_signing {s : ProposalState} (h : s.Final) : s ≠ .signing := by
  rcases h with rfl | rfl | rfl <;> simp

def Issues (e : GovernanceEngine) (id : UInt64) (q : GovernanceProposal) : Prop :=
  e.nextId = id ∧ q.level.val ≤ GovernanceLevel.genesis.val ∧ q.payload ≠ []

def Reissued (env : Environment) (id : UInt64) : GovernanceEngine → List Op → Prop
  | _, [] => False
  | e, op::ops => (∃ q, op = .submit q ∧ Issues e id q) ∨ Reissued env id (e.apply env op) ops

variable {env : Environment} {e : GovernanceEngine} {id : UInt64} {p : GovernanceProposal}

lemma submit_cases (e : GovernanceEngine) (q : GovernanceProposal) :
    (e.submit q).2 = e ∧ (∀ id, ¬Issues e id q) ∨
      Issues e e.nextId q ∧
        (e.submit q).2 = ⟨e.proposals.insert e.nextId (stored e.nextId q),e.nextId+1⟩ := by
  unfold submit
  split_ifs with hlevel hpayload
  · exact Or.inl ⟨rfl,fun id h => absurd hlevel (UInt8.not_lt.mpr h.2.1)⟩
  · exact Or.inl ⟨rfl,fun id h => h.2.2 (by simpa using hpayload)⟩
  · exact Or.inr ⟨⟨rfl,UInt8.not_lt.mp hlevel,by simpa using hpayload⟩,rfl⟩

/-- The operation left everything alone or wrote one proposal that was collecting signatures. -/
def WritesSigning (e : GovernanceEngine) (id : UInt64) (e' : GovernanceEngine) : Prop :=
  e' = e ∨ ∃ p q, e.proposals.find id = some p ∧ p.state = .signing ∧ e' = e.put id q

lemma sign_writes (authority : NodeID) (signature : Bytes) (now : Int64) :
    WritesSigning e id (e.sign env id authority signature now).2 := by
  rcases sign_cases e id authority signature now with h | ⟨p,q,hp,hs,-,h⟩
  · exact Or.inl h
  · exact Or.inr ⟨p,q,hp,hs,h⟩

lemma commit_writes (now : Int64) : WritesSigning e id (e.commit id now).2 := by
  rcases @commit_cases ⟨none,none⟩ e id now with h | ⟨p,q,hp,hs,-,h⟩
  · exact Or.inl h
  · exact Or.inr ⟨p,q,hp,hs,h⟩

lemma WritesSigning.find (h : WritesSigning e id' e')
    (hfind : e.proposals.find id = some p) (hp : p.state ≠ .signing) :
    e'.proposals.find id = some p := by
  rcases h with rfl | ⟨r,q,hr,hstate,rfl⟩
  · exact hfind
  · rw [find_put_eq,if_neg]
    · exact hfind
    · rintro rfl
      rw [hfind] at hr
      cases hr
      exact hp hstate

def HasOutcome (e : GovernanceEngine) (id : UInt64) (p : GovernanceProposal) : Prop :=
  ∃ q, e.proposals.find id = some q ∧ q.state = p.state ∧ q.signatures = p.signatures

def Disturbs (e : GovernanceEngine) (id : UInt64) (p : GovernanceProposal) (op : Op) : Prop :=
  (op = .reject id ∧ p.state ≠ .rejected) ∨ ∃ q, op = .submit q ∧ Issues e id q

variable (env) in
lemma apply_final (hfind : e.proposals.find id = some p) (hp : p.state.Final) {op : Op}
    (hop : ¬Disturbs e id p op) : (e.apply env op).proposals.find id = some p := by
  cases op with
  | submit q =>
    change (e.submit q).2.proposals.find id = some p
    rcases submit_cases e q with ⟨h,-⟩ | ⟨hi,h⟩
    · rwa [h]
    · have hid : id ≠ e.nextId := by
        rintro rfl
        exact hop (Or.inr ⟨q,rfl,hi⟩)
      rw [h,AssocMap.find_insert,if_neg hid,hfind]
  | sign id' authority signature now => exact (sign_writes authority signature now).find hfind hp.ne_signing
  | commit id' now => exact (commit_writes now).find hfind hp.ne_signing
  | reject id' =>
    change (e.reject id').2.proposals.find id = some p
    unfold reject
    by_cases hid : id = id'
    · subst hid
      have hr : p.state = .rejected := by
        by_contra hr
        exact hop (Or.inl ⟨rfl,hr⟩)
      rw [hfind]
      simp only [find_put_eq,if_true,← hr]
    · split
      · exact hfind
      · rw [find_put_eq,if_neg hid]
        exact hfind
  | tick now =>
    change (e.tick now).proposals.find id = some p
    unfold tick
    simp [hfind,hp.ne_signing]

lemma Disturbs.not_hasOutcome {op : Op} (hop : Disturbs e id p op)
    (hfind : e.proposals.find id = some p) (hp : p.state.Final) :
    ¬HasOutcome (e.apply env op) id p := by
  rintro ⟨r,hr,hs,-⟩
  rcases hop with ⟨rfl,hrej⟩ | ⟨q,rfl,hi⟩
  · change (e.reject id).2.proposals.find id = some r at hr
    simp only [reject,hfind,find_put_eq,if_true] at hr
    cases hr
    exact hrej hs.symm
  · change (e.submit q).2.proposals.find id = some r at hr
    rcases submit_cases e q with ⟨-,hno⟩ | ⟨-,heq⟩
    · exact hno id hi
    · rw [heq,hi.1,AssocMap.find_insert,if_pos rfl] at hr
      cases hr
      exact hp.ne_signing hs.symm

lemma forall_prefix_cons {α : Type*} {P : List α → Prop} {a : α} {l : List α} :
    (∀ mid, mid <+: a::l → P mid) ↔ P [] ∧ ∀ mid, mid <+: l → P (a::mid) := by
  constructor
  · exact fun h => ⟨h [] ( nil_prefix),fun mid hmid =>
      h (a::mid) (cons_prefix_cons.mpr ⟨rfl,hmid⟩)⟩
  · rintro ⟨hnil,hcons⟩ mid hmid
    rcases prefix_cons_iff.mp hmid with rfl | ⟨t,rfl,ht⟩
    · exact hnil
    · exact hcons t ht

lemma outcome_kept_iff (hfind : e.proposals.find id = some p) (hp : p.state.Final)
    (later : List Op) : (∀ mid, mid <+: later → HasOutcome (mid.foldl (apply env) e) id p) ↔
      (p.state = .rejected ∨ .reject id ∉ later) ∧ ¬Reissued env id e later := by
  have hnow : HasOutcome e id p := ⟨p,hfind,rfl,rfl⟩
  induction later generalizing e with
  | nil => simp [Reissued,hnow]
  | cons op later ih =>
    rw [forall_prefix_cons]
    simp only [foldl_cons,foldl_nil,hnow,true_and]
    by_cases hop : Disturbs e id p op
    · -- The next state already breaks the left side, and the operation itself the right one.
      have hbroken : ¬∀ mid, mid <+: later → HasOutcome (mid.foldl (apply env) (e.apply env op)) id p :=
        fun h => hop.not_hasOutcome hfind hp (h [] ( nil_prefix))
      rw [iff_false_left hbroken]
      rcases hop with ⟨rfl,hrej⟩ | hissue
      · simp [hrej]
      · exact fun h => h.2 (Or.inl hissue)
    · have hnext := apply_final env hfind hp hop
      obtain ⟨hreject,hissue⟩ := not_or.mp hop
      refine (ih hnext ⟨p,hnext,rfl,rfl⟩).trans ?_
      simp only [Reissued,hissue,false_or,mem_cons,not_or]
      by_cases hr : p.state = .rejected
      · simp [hr]
      · have hne : Op.reject id ≠ op := fun h => hreject ⟨h.symm,hr⟩
        simp [hr,hne]

/-- In every run, the state and the signatures of a decided proposal stay as they are through
all later operations exactly when the proposal was rejected already or no later call rejects it,
and no later submission is given its id. -/
theorem outcome_final_iff (env : Environment) (ops later : List Op) (id : UInt64)
    (p : GovernanceProposal) (hfind : (run env ops).proposals.find id = some p)
    (hp : p.state = .committed ∨ p.state = .rejected ∨ p.state = .expired) :
    (∀ mid, mid <+: later → HasOutcome (run env (ops ++ mid)) id p) ↔
      (p.state = .rejected ∨ .reject id ∉ later) ∧ ¬Reissued env id (run env ops) later := by
  simp only [run,foldl_append]
  exact outcome_kept_iff hfind hp later

theorem outcome_final_two_votes :
    (run ⟨some twoAuthorities,some repeatsKey⟩ twoVotes).proposals.find 1 = some enacted ∧
      enacted.state = .committed ∧
      HasOutcome (run ⟨some twoAuthorities,some repeatsKey⟩ (twoVotes ++ [.commit 1 8,.tick 200])) 1
        enacted := by
  have hfind : (run ⟨some twoAuthorities,some repeatsKey⟩ twoVotes).proposals.find 1 =
      some enacted := by decide +kernel
  have hfinal := (outcome_final_iff ⟨some twoAuthorities,some repeatsKey⟩ twoVotes
    [.commit 1 8,.tick 200] 1 enacted hfind (Or.inl rfl)).mpr ⟨Or.inr (by simp),by simp [Reissued]⟩
  exact ⟨hfind,rfl,hfinal _ prefix_rfl⟩

/-- An enacted proposal is rejected afterwards. -/
theorem committed_then_rejected :
    ∃ p q, (run ⟨some twoAuthorities,some repeatsKey⟩ twoVotes).proposals.find 1 = some p ∧
      p.state = .committed ∧
      (run ⟨some twoAuthorities,some repeatsKey⟩ (twoVotes ++ [.reject 1])).proposals.find 1 = some q ∧
      q.state = .rejected :=
  ⟨enacted,{ enacted with state := .rejected },by decide +kernel,rfl,by decide +kernel,rfl⟩

/-! Ids repeat only when the 64-bit counter comes round. -/

def GovernanceEngine.Op.isSubmit : Op → Bool
  | .submit _ => true
  | _ => false

/-- After `k` accepted submissions the ids given out are `1, ..., k`. -/
structure Numbered (e : GovernanceEngine) (k : ℕ) : Prop where
  next : e.nextId = UInt64.ofNat (k+1)
  issued : ∀ id p, e.proposals.find id = some p → ∃ j < k, id = UInt64.ofNat (j+1)

lemma WritesSigning.nextId (h : WritesSigning e id e') :
    e'.nextId = e.nextId := by
  rcases h with rfl | ⟨_,_,_,_,rfl⟩ <;> rfl

lemma apply_nextId (hop : op.isSubmit = false) :
    (e.apply env op).nextId = e.nextId := by
  cases op with
  | submit q => cases hop
  | sign id authority signature now => exact (sign_writes authority signature now).nextId
  | commit id now => exact (commit_writes now).nextId
  | reject id =>
    change (e.reject id).2.nextId = e.nextId
    unfold reject
    split <;> rfl
  | tick now => rfl

variable (env) in
theorem Numbered.apply (h : Numbered e k) (op : Op) :
    ∃ k', k ≤ k' ∧ k' ≤ k+(if op.isSubmit then 1 else 0) ∧ Numbered (e.apply env op) k' := by
  cases hop : op.isSubmit with
  | false =>
    refine ⟨k,le_rfl,by simp,(apply_nextId hop).trans h.next,fun id r hr => ?_⟩
    rcases apply_find hr with ⟨q,pid,rfl,-⟩ | ⟨p,hp,-⟩
    · cases hop
    · exact h.issued id p hp
  | true =>
    cases op with
    | submit q =>
      rcases submit_cases e q with ⟨heq,-⟩ | ⟨-,heq⟩
      · exact ⟨k,le_rfl,by simp,by rw [GovernanceEngine.apply,heq]; exact h⟩
      · refine ⟨k+1,Nat.le_succ k,by simp,?_,fun id r hr => ?_⟩
        · simp [GovernanceEngine.apply,heq,h.next,UInt64.ofNat_add]
        · rw [GovernanceEngine.apply,heq,AssocMap.find_insert] at hr
          split_ifs at hr with hid
          · exact ⟨k,Nat.lt_succ_self k,hid.trans h.next⟩
          · obtain ⟨j,hj,rfl⟩ := h.issued id r hr
            exact ⟨j,hj.trans (Nat.lt_succ_self k),rfl⟩
    | sign | commit | reject | tick => cases hop

lemma Numbered.not_reissued (h : Numbered e k) (hj : j < k)
    (hfew : k+later.countP Op.isSubmit ≤ 2^64) : ¬Reissued env (UInt64.ofNat (j+1)) e later := by
  induction later generalizing e k with
  | nil => exact id
  | cons op later ih =>
    rw [countP_cons] at hfew
    rintro (⟨q,rfl,hi⟩ | hrest)
    · have hnat := congrArg UInt64.toNat (h.next.symm.trans hi.1)
      rw [UInt64.toNat_ofNat',UInt64.toNat_ofNat'] at hnat
      simp only [Op.isSubmit,if_true] at hfew
      omega
    · obtain ⟨k',hk,hk',h'⟩ := h.apply env op
      exact ih h' (hj.trans_le hk) (by omega) hrest

lemma run_numbered (env : Environment) (ops : List Op) :
    ∃ k ≤ ops.countP Op.isSubmit, Numbered (run env ops) k := by
  induction ops using reverseRecOn with
  | nil => exact ⟨0,le_rfl,rfl,fun _ _ h => by cases h⟩
  | append_singleton ops op ih =>
    obtain ⟨k,hk,h⟩ := ih
    obtain ⟨k',-,hk',h'⟩ := h.apply env op
    refine ⟨k',?_,?_⟩
    · rw [countP_append,countP_singleton]
      exact hk'.trans (Nat.add_le_add_right hk _)
    · simpa [run] using h'

/-- No id is given out twice in a run with at most `2^64` submissions. -/
theorem run_not_reissued (hfind : (run env ops).proposals.find id = some p)
    (hfew : (ops ++ later).countP Op.isSubmit ≤ 2^64) : ¬Reissued env id (run env ops) later := by
  obtain ⟨k,hk,h⟩ := run_numbered env ops
  obtain ⟨j,hj,rfl⟩ := h.issued id p hfind
  rw [countP_append] at hfew
  exact h.not_reissued hj (by omega)

theorem run_not_reissued_two_votes : ¬Reissued ⟨some twoAuthorities,some repeatsKey⟩ 1
    (run ⟨some twoAuthorities,some repeatsKey⟩ twoVotes) twoVotes :=
  run_not_reissued (p := enacted) (by decide +kernel) (by decide +kernel)

end SmoFramework.Governance
