import Mathlib.Data.Finset.Card
import SmoFramework.Governance.Quorum

/-! Do the signers of two committed proposals overlap? `submit` computes every threshold for
three authorities, however many the resolver knows. -/
namespace SmoFramework.Governance
open SmoFramework.Library GovernanceEngine List GovernanceEngine

def signers (p : GovernanceProposal) : Finset NodeID :=
  (p.signatures.map GovernanceSignature.authorityId).toFinset

def CommittedIn (env : Environment) (ops : List Op) (p : GovernanceProposal) : Prop :=
  ∃ before id, before <+: ops ∧ (run env before).proposals.find id = some p ∧ p.state = .committed

def Knows (resolver : NodeID → Result Bytes) (A : Finset NodeID) : Prop :=
  ∀ a, a ∈ A ↔ ∃ key, resolver a = .ok key

variable {env : Environment}

lemma Change.threshold_eq (h : Change env p q) :
    q.threshold = p.threshold := by cases h <;> rfl

lemma two_le_defaultQuorum_three (a : GovernanceAction) : 2 ≤ (defaultQuorum a 3).toInt := by
  unfold defaultQuorum
  rw [if_neg (by decide)]
  cases actionToTier a <;> decide

lemma run_threshold {id : UInt64}
    (h : (run env ops).proposals.find id = some p) : 2 ≤ p.threshold.toInt := by
  induction ops using reverseRecOn generalizing id p with
  | nil => cases h
  | append_singleton ops op ih =>
    unfold run at h
    rw [foldl_append] at h
    rcases apply_find h with ⟨q,pid,-,rfl⟩ | ⟨p',hp',hc⟩
    · exact two_le_defaultQuorum_three q.action
    · rw [hc.threshold_eq]
      exact ih hp'

section
variable {A : Finset NodeID} {resolver : NodeID → Result Bytes}
  {verify : Bytes → Bytes → Bytes → Result Bool} {ops : List Op} {p q : GovernanceProposal}

lemma CommittedIn.signers_spec (hA : Knows resolver A) (hops : SubmitsUnsigned ops)
    (h : CommittedIn ⟨some resolver,some verify⟩ ops p) : signers p ⊆ A ∧ 2 ≤ (signers p).card := by
  obtain ⟨before,id,hbefore,hfind,hstate⟩ := h
  have hb := run_backed (fun q hq => hops q (hbefore.subset hq)) hfind
  constructor
  · intro a ha
    obtain ⟨s,hs,rfl⟩ := mem_map.mp (mem_toFinset.mp ha)
    obtain ⟨_,_,key,hr,-,hkey,-⟩ := hb.verified s hs
    cases hr
    exact (hA s.authorityId).mpr ⟨key,hkey⟩
  · have htwo := (run_threshold hfind).trans (hb.quorum hstate)
    rw [signers,toFinset_card_of_nodup hb.distinct,length_map]
    exact_mod_cast htwo

lemma signers_meet (hA : Knows resolver A) (hcard : A.card ≤ 3) (hops : SubmitsUnsigned ops)
    (hp : CommittedIn ⟨some resolver,some verify⟩ ops p)
    (hq : CommittedIn ⟨some resolver,some verify⟩ ops q) : ∃ a, a ∈ signers p ∧ a ∈ signers q := by
  obtain ⟨hpA,hp2⟩ := hp.signers_spec hA hops
  obtain ⟨hqA,hq2⟩ := hq.signers_spec hA hops
  obtain ⟨a,ha⟩ := Finset.inter_nonempty_of_card_lt_card_add_card hpA hqA (by omega)
  exact ⟨a,Finset.mem_inter.mp ha⟩

end

/-! With four authorities two proposals pass with disjoint votes. -/

section
variable {e : GovernanceEngine} {id : UInt64} {p : GovernanceProposal}
  {resolver : NodeID → Result Bytes}

def acceptsAll (_ _ _ : Bytes) : Result Bool := .ok true

lemma sign_accepted (hfind : e.proposals.find id = some p) (hstate : p.state = .signing)
    (hexp : p.isExpired now = false)
    (hfresh : ∀ s ∈ p.signatures, s.authorityId ≠ a) (hkey : resolver a = .ok key) :
    e.apply ⟨some resolver,some acceptsAll⟩ (.sign id a [] now) =
      e.put id { p with signatures := p.signatures ++ [⟨a,[],now⟩] } := by
  have hdup : p.signatures.any (fun s => s.authorityId = a) = false := by simpa using hfresh
  simp [apply,sign,hfind,hstate,hexp,hdup,hkey,acceptsAll]

lemma commit_accepted (hfind : e.proposals.find id = some p) (hstate : p.state = .signing)
    (hexp : p.isExpired now = false) (hmet : p.thresholdMet = true) :
    e.apply env (.commit id now) = e.put id { p with state := .committed } := by
  simp [apply,commit,hfind,hstate,hexp,hmet]

def voteTwice (id : UInt64) (a b : NodeID) : List Op := [.sign id a [] 5,.sign id b [] 6,.commit id 7]

def carried (id : UInt64) (a b : NodeID) : GovernanceProposal :=
  { stored id addAuthorityProposal with
    state := .committed
    signatures := [⟨a,[],5⟩,⟨b,[],6⟩] }

lemma voteTwice_commits (hab : a ≠ b)
    (hfind : e.proposals.find id = some (stored id addAuthorityProposal))
    (ha : resolver a = .ok ka) (hb : resolver b = .ok kb) :
    ∃ e', (voteTwice id a b).foldl (apply ⟨some resolver,some acceptsAll⟩) e = e' ∧
      e'.proposals.find id = some (carried id a b) ∧
      ∀ id', id' ≠ id → e'.proposals.find id' = e.proposals.find id' := by
  have hput : ∀ (e : GovernanceEngine) p, (e.put id p).proposals.find id = some p :=
    fun e p => (find_put_eq e id id p).trans (if_pos rfl)
  refine ⟨_,rfl,?_⟩
  simp only [voteTwice,foldl_cons,foldl_nil]
  rw [sign_accepted hfind rfl rfl (by intro s hs; cases hs) ha,
    sign_accepted (hput _ _) rfl rfl ?_ hb,commit_accepted (hput _ _) rfl rfl rfl]
  · refine ⟨hput _ _,fun id' hid => ?_⟩
    simp only [find_put_eq,if_neg hid]
  · intro s hs
    obtain rfl : s = ⟨a,[],5⟩ := mem_singleton.mp hs
    exact hab

end

def splitVotes (a b c d : NodeID) : List Op :=
  [.submit addAuthorityProposal,.submit addAuthorityProposal] ++ voteTwice 1 a b ++ voteTwice 2 c d

lemma splitVotes_unsigned (a b c d : NodeID) : SubmitsUnsigned (splitVotes a b c d) := by
  intro q hq
  simp only [splitVotes,voteTwice,mem_append,mem_cons,Op.submit.injEq,reduceCtorEq,
    not_mem_nil,or_false,or_self] at hq
  rw [hq]
  rfl

lemma splitVotes_commits {resolver : NodeID → Result Bytes} (hab : a ≠ b)
    (hcd : c ≠ d) (ha : resolver a = .ok ka) (hb : resolver b = .ok kb)
    (hc : resolver c = .ok kc) (hd : resolver d = .ok kd) :
    CommittedIn ⟨some resolver,some acceptsAll⟩ (splitVotes a b c d) (carried 1 a b) ∧
      CommittedIn ⟨some resolver,some acceptsAll⟩ (splitVotes a b c d) (carried 2 c d) := by
  let env : Environment := ⟨some resolver,some acceptsAll⟩
  let e := run env [.submit addAuthorityProposal,.submit addAuthorityProposal]
  have h1 : e.proposals.find 1 = some (stored 1 addAuthorityProposal) := rfl
  have h2 : e.proposals.find 2 = some (stored 2 addAuthorityProposal) := rfl
  obtain ⟨e₁,he₁,hf₁,hk₁⟩ := voteTwice_commits hab h1 ha hb
  obtain ⟨e₂,he₂,hf₂,hk₂⟩ := voteTwice_commits hcd ((hk₁ 2 (by decide)).trans h2) hc hd
  have hrun : run env (splitVotes a b c d) = e₂ := by
    rw [← he₂,← he₁]
    simp [run,splitVotes,e,env]
  have hlast : (run env (splitVotes a b c d)).proposals.find 1 = some (carried 1 a b) := by
    rw [hrun,hk₂ 1 (by decide),hf₁]
  exact ⟨⟨_,1,prefix_rfl,hlast,rfl⟩,⟨_,2,prefix_rfl,hrun ▸ hf₂,rfl⟩⟩

def resolverOf (A : Finset NodeID) (a : NodeID) : Result Bytes :=
  if a ∈ A then .ok a.toList
  else .error (smoErrGovernance 800 .error .noRetry .governanceVote "unknown")

lemma resolverOf_knows (A : Finset NodeID) : Knows (resolverOf A) A := by
  intro a
  unfold resolverOf
  split_ifs with h <;> simp [h]

/-- The votes behind any two committed proposals of any run share an authority exactly when at
most three authorities are known. -/
theorem committed_signers_meet_iff (A : Finset NodeID) :
    (∀ resolver verify ops p q, Knows resolver A → SubmitsUnsigned ops →
      CommittedIn ⟨some resolver,some verify⟩ ops p → CommittedIn ⟨some resolver,some verify⟩ ops q →
      ∃ a, a ∈ signers p ∧ a ∈ signers q) ↔ A.card ≤ 3 := by
  constructor
  · intro hall
    by_contra hcard
    -- Four different authorities, taken from a list of the set.
    obtain ⟨l,hl,rfl⟩ : ∃ l : List NodeID, l.Nodup ∧ l.toFinset = A :=
      ⟨A.toList,A.nodup_toList,A.toList_toFinset⟩
    rw [toFinset_card_of_nodup hl] at hcard
    obtain ⟨a,b,c,d,rest,rfl⟩ : ∃ a b c d rest, l = a::b::c::d::rest := by
      match l with
      | a::b::c::d::rest => exact ⟨a,b,c,d,rest,rfl⟩
      | [] | [_] | [_,_] | [_,_,_] => simp at hcard
    have hkey : ∀ x ∈ (a::b::c::d::rest).toFinset,
        resolverOf (a::b::c::d::rest).toFinset x = .ok x.toList := fun x hx => if_pos hx
    simp only [nodup_cons,mem_cons,not_or] at hl
    obtain ⟨hp,hq⟩ := splitVotes_commits hl.1.1 hl.2.2.1.1 (hkey a (by simp)) (hkey b (by simp))
      (hkey c (by simp)) (hkey d (by simp))
    obtain ⟨x,hx,hx'⟩ := hall _ _ _ _ _ (resolverOf_knows _) (splitVotes_unsigned a b c d) hp hq
    simp only [signers,carried,map_cons,map_nil,mem_toFinset,mem_cons,
      not_mem_nil,or_false] at hx hx'
    rcases hx with rfl | rfl <;> rcases hx' with h | h <;> simp_all
  · intro hcard resolver verify ops p q hA hops hp hq
    exact signers_meet hA hcard hops hp hq

def authorityC : NodeID := List.Vector.replicate 32 3
def authorityD : NodeID := List.Vector.replicate 32 4

/-- Four known authorities, two committed proposals and no common signer. -/
theorem committed_signers_disjoint :
    ∃ (A : Finset NodeID) (ops : List Op) (p q : GovernanceProposal),
      A.card = 4 ∧ Knows (resolverOf A) A ∧ SubmitsUnsigned ops ∧
      CommittedIn ⟨some (resolverOf A),some acceptsAll⟩ ops p ∧
      CommittedIn ⟨some (resolverOf A),some acceptsAll⟩ ops q ∧
      ∀ a, ¬(a ∈ signers p ∧ a ∈ signers q) := by
  have hkey : ∀ x ∈ ({authorityA,authorityB,authorityC,authorityD} : Finset NodeID),
      resolverOf {authorityA,authorityB,authorityC,authorityD} x = .ok x.toList :=
    fun x hx => if_pos hx
  obtain ⟨hp,hq⟩ := splitVotes_commits (by decide) (by decide) (hkey authorityA (by simp))
    (hkey authorityB (by simp)) (hkey authorityC (by simp)) (hkey authorityD (by simp))
  refine ⟨_,_,_,_,by decide,resolverOf_knows _,splitVotes_unsigned _ _ _ _,hp,hq,?_⟩
  rintro a ⟨ha,ha'⟩
  have hfirst : a = authorityA ∨ a = authorityB := by simpa [signers,carried] using ha
  have hsecond : a = authorityC ∨ a = authorityD := by simpa [signers,carried] using ha'
  rcases hfirst with rfl | rfl
  · exact absurd hsecond (by decide)
  · exact absurd hsecond (by decide)

end SmoFramework.Governance
