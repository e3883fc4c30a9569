import Mathlib.Data.List.Induction
import SmoFramework.Governance.Engine

/-! Committed proposals and the votes behind them. -/
namespace SmoFramework.Governance
open SmoFramework.Library GovernanceEngine List GovernanceEngine

def signedContent (p : GovernanceProposal) : Bytes := votePayload { p with state := .signing }

def Verified (env : Environment) (content : Bytes) (s : GovernanceSignature) : Prop :=
  ∃ resolver verify key, env.resolver = some resolver ∧ env.verify = some verify ∧
    resolver s.authorityId = .ok key ∧ verify content s.signature key = .ok true

/-- What one operation can do to a stored proposal. -/
inductive Change (env : Environment) (p : GovernanceProposal) : GovernanceProposal → Prop
  | same : Change env p p
  | expire : Change env p { p with state := .expired }
  | reject : Change env p { p with state := .rejected }
  | commit (met : p.thresholdMet = true) : Change env p { p with state := .committed }
  | vote (s : GovernanceSignature) (signing : p.state = .signing)
      (fresh : s.authorityId ∉ p.signatures.map GovernanceSignature.authorityId)
      (verified : Verified env (signedContent p) s) :
      Change env p { p with signatures := p.signatures ++ [s] }

variable {env : Environment}

lemma find_put_eq (e : GovernanceEngine) (id id' : UInt64) (p : GovernanceProposal) :
    (e.put id p).proposals.find id' = if id' = id then some p else e.proposals.find id' :=
  AssocMap.find_insert _ _ _ _

variable {e : GovernanceEngine} {id : UInt64} {p q r : GovernanceProposal}

lemma find_put (hp : e.proposals.find id = some p) (hc : Change env p q)
    (h : (e.put id q).proposals.find id' = some r) :
    ∃ p, e.proposals.find id' = some p ∧ Change env p r := by
  rw [find_put_eq] at h
  split_ifs at h with hid
  · subst hid
    cases h
    exact ⟨p,hp,hc⟩
  · exact ⟨r,h,.same⟩

theorem sign_cases (e : GovernanceEngine) (id : UInt64) (authority : NodeID) (signature : Bytes)
    (now : Int64) : (e.sign env id authority signature now).2 = e ∨
      ∃ p q, e.proposals.find id = some p ∧ p.state = .signing ∧ Change env p q ∧
        (e.sign env id authority signature now).2 = e.put id q := by
  unfold sign
  split
  · exact Or.inl rfl
  rename_i prop hprop
  split_ifs with hstate hexp hdup
  · exact Or.inl rfl
  · exact Or.inr ⟨prop,_,hprop,not_not.mp hstate,.expire,rfl⟩
  · exact Or.inl rfl
  have hsigning := not_not.mp hstate
  -- Resolver, key, suite and the check itself: only the last accepting branch writes.
  split
  · exact Or.inl rfl
  rename_i resolver hresolver
  split
  · exact Or.inl rfl
  rename_i key hkey
  split
  · exact Or.inl rfl
  rename_i verify hverify
  split
  · exact Or.inl rfl
  · exact Or.inl rfl
  rename_i hok
  refine Or.inr ⟨prop,_,hprop,hsigning,.vote ⟨authority,signature,now⟩ hsigning ?_ ?_,rfl⟩
  · intro hmem
    obtain ⟨s,hs,heq⟩ := mem_map.mp hmem
    exact hdup (any_eq_true.mpr ⟨s,hs,by simpa using heq⟩)
  · refine ⟨resolver,verify,key,hresolver,hverify,hkey,?_⟩
    unfold signedContent
    rwa [← hsigning]

lemma commit_cases (e : GovernanceEngine) (id : UInt64) (now : Int64) : (e.commit id now).2 = e ∨
      ∃ p q, e.proposals.find id = some p ∧ p.state = .signing ∧ Change env p q ∧
        (e.commit id now).2 = e.put id q := by
  unfold commit
  split
  · exact Or.inl rfl
  rename_i prop hprop
  split_ifs with hstate hexp hmet
  · exact Or.inl rfl
  · exact Or.inr ⟨prop,_,hprop,not_not.mp hstate,.expire,rfl⟩
  · exact Or.inl rfl
  · exact Or.inr ⟨prop,_,hprop,not_not.mp hstate,.commit (by simpa using hmet),rfl⟩

lemma find_changed
    (hcases : e' = e ∨ ∃ p q, e.proposals.find id = some p ∧ p.state = .signing ∧ Change env p q ∧
      e' = e.put id q) (h : e'.proposals.find id' = some r) :
    ∃ p, e.proposals.find id' = some p ∧ Change env p r := by
  rcases hcases with rfl | ⟨p,q,hp,-,hc,rfl⟩
  · exact ⟨r,h,.same⟩
  · exact find_put hp hc h

lemma submit_find (h : (e.submit q).2.proposals.find id = some r) :
    r = stored id q ∨ e.proposals.find id = some r := by
  unfold submit at h
  split_ifs at h with hlevel hpayload
  · exact Or.inr h
  · exact Or.inr h
  · dsimp only at h
    rw [AssocMap.find_insert] at h
    split_ifs at h with hid
    · exact Or.inl (hid ▸ (Option.some.inj h).symm)
    · exact Or.inr h

/-- Every stored proposal was just submitted or comes from one stored before. -/
theorem apply_find (h : (e.apply env op).proposals.find id = some r) :
    (∃ q pid, op = .submit q ∧ r = stored pid q) ∨
      ∃ p, e.proposals.find id = some p ∧ Change env p r := by
  cases op with
  | submit q =>
    rcases submit_find h with hr | h
    · exact Or.inl ⟨q,_,rfl,hr⟩
    · exact Or.inr ⟨r,h,.same⟩
  | sign pid authority signature now => exact Or.inr (find_changed (sign_cases _ _ _ _ _) h)
  | commit pid now => exact Or.inr (find_changed (commit_cases _ _ _) h)
  | reject pid =>
    change (e.reject pid).2.proposals.find id = some r at h
    unfold reject at h
    split at h
    · exact Or.inr ⟨r,h,.same⟩
    · rename_i prop hprop
      exact Or.inr (find_put hprop .reject h)
  | tick now =>
    change (e.tick now).proposals.find id = some r at h
    unfold tick at h
    dsimp only at h
    rw [AssocMap.find_mapValues] at h
    obtain ⟨p,hp,rfl⟩ := Option.map_eq_some_iff.mp h
    refine Or.inr ⟨p,hp,?_⟩
    split_ifs
    · exact .expire
    · exact .same

/-- The votes on a proposal are verified and by different authorities, and a committed
proposal has as many as it needs. -/
structure Backed (env : Environment) (p : GovernanceProposal) : Prop where
  verified : ∀ s ∈ p.signatures, Verified env (signedContent p) s
  distinct : (p.signatures.map GovernanceSignature.authorityId).Nodup
  positive : 0 < p.threshold.toInt
  quorum : p.state = .committed → p.threshold.toInt ≤ p.signatures.length

lemma toInt_ofNat_le (n : ℕ) : (Int32.ofNat n).toInt ≤ n := by
  rw [Int32.toInt_ofNat',Int.bmod_def,show Int32.size = 4294967296 from rfl]
  split_ifs <;> omega

lemma threshold_le_of_met (h : p.thresholdMet = true) :
    p.threshold.toInt ≤ p.signatures.length := by
  have hle : p.threshold ≤ Int32.ofNat p.signatures.length := by
    simpa [GovernanceProposal.thresholdMet] using h
  exact (Int32.le_iff_toInt_le.mp hle).trans (toInt_ofNat_le _)

lemma defaultQuorum_three_pos (a : GovernanceAction) : 0 < (defaultQuorum a 3).toInt := by
  unfold defaultQuorum
  rw [if_neg (by decide)]
  cases actionToTier a <;> decide

lemma Backed.change (h : Backed env p) (hc : Change env p q) : Backed env q := by
  cases hc with
  | same => exact h
  | expire => exact ⟨h.verified,h.distinct,h.positive,fun hs => by cases hs⟩
  | reject => exact ⟨h.verified,h.distinct,h.positive,fun hs => by cases hs⟩
  | commit met => exact ⟨h.verified,h.distinct,h.positive,fun _ => threshold_le_of_met met⟩
  | vote s signing fresh verified =>
    refine ⟨fun t ht => ?_,?_,h.positive,fun hs => ?_⟩
    · rcases mem_append.mp ht with ht | ht
      · exact h.verified t ht
      · rw [mem_singleton.mp ht]
        exact verified
    · rw [map_append]
      refine nodup_append.mpr ⟨h.distinct,nodup_singleton _,?_⟩
      rintro a ha b hb rfl
      exact fresh (mem_singleton.mp hb ▸ ha)
    · have hs' : p.state = .committed := hs
      rw [signing] at hs'
      cases hs'

lemma stored_backed (h : q.signatures = []) : Backed env (stored pid q) := by
  have hsig : (stored pid q).signatures = [] := h
  refine ⟨?_,?_,defaultQuorum_three_pos q.action,fun hs => by cases hs⟩
  · rw [hsig]
    exact fun s hs => absurd hs not_mem_nil
  · rw [hsig]
    exact nodup_nil

def SubmitsUnsigned (ops : List Op) : Prop := ∀ q, .submit q ∈ ops → q.signatures = []

lemma run_backed (hops : SubmitsUnsigned ops)
    (h : (run env ops).proposals.find id = some p) : Backed env p := by
  induction ops using reverseRecOn generalizing id p with
  | nil => cases h
  | append_singleton ops op ih =>
    have hprev : SubmitsUnsigned ops := fun q hq => hops q (mem_append_left _ hq)
    unfold run at h
    rw [foldl_append] at h
    rcases apply_find h with ⟨q,pid,rfl,rfl⟩ | ⟨p',hp',hc⟩
    · exact stored_backed (hops q (mem_append_right _ (mem_singleton.mpr rfl)))
    · exact (ih hprev hp').change hc

/-- In every run without pre-signed submissions, a committed proposal has at least as many
signatures as its threshold, by pairwise distinct authorities known to the resolver, each
checked over the proposal's signed content. -/
theorem committed_has_quorum (resolver : NodeID → Result Bytes)
    (verify : Bytes → Bytes → Bytes → Result Bool) (ops : List Op) (hops : SubmitsUnsigned ops)
    (id : UInt64) (p : GovernanceProposal)
    (h : (run ⟨some resolver,some verify⟩ ops).proposals.find id = some p)
    (hstate : p.state = .committed) :
    0 < p.threshold.toInt ∧ p.threshold.toInt ≤ p.signatures.length ∧
      (p.signatures.map GovernanceSignature.authorityId).Nodup ∧
      ∀ s ∈ p.signatures, ∃ key, resolver s.authorityId = .ok key ∧
        verify (signedContent p) s.signature key = .ok true := by
  have hb := run_backed hops h
  refine ⟨hb.positive,hb.quorum hstate,hb.distinct,fun s hs => ?_⟩
  obtain ⟨_,_,key,hr,hv,hkey,hok⟩ := hb.verified s hs
  cases hr
  cases hv
  exact ⟨key,hkey,hok⟩

/-! Two runs on an engine with two known authorities. -/

def authorityA : NodeID := List.Vector.replicate 32 1
def authorityB : NodeID := List.Vector.replicate 32 2

def twoAuthorities (id : NodeID) : Result Bytes :=
  if id = authorityA ∨ id = authorityB then .ok id.toList
  else .error (smoErrGovernance 800 .error .noRetry .governanceVote "unknown")

def repeatsKey (_ signature key : Bytes) : Result Bool := .ok (signature = key)

def addAuthorityProposal : GovernanceProposal := { payload := [1], expiresAt := 100 }

def twoVotes : List Op := [.submit addAuthorityProposal,.sign 1 authorityA authorityA.toList 5,
  .sign 1 authorityB authorityB.toList 6,.commit 1 7]

def enacted : GovernanceProposal :=
  { stored 1 addAuthorityProposal with
    state := .committed
    signatures := [⟨authorityA,authorityA.toList,5⟩,⟨authorityB,authorityB.toList,6⟩] }

theorem committed_has_quorum_two_votes :
    (run ⟨some twoAuthorities,some repeatsKey⟩ twoVotes).proposals.find 1 = some enacted ∧
      enacted.threshold.toInt ≤ enacted.signatures.length ∧
      ∀ s ∈ enacted.signatures, ∃ key, twoAuthorities s.authorityId = .ok key ∧
        repeatsKey (signedContent enacted) s.signature key = .ok true := by
  have hunsigned : SubmitsUnsigned twoVotes := by
    intro q hq
    simp only [twoVotes,mem_cons,Op.submit.injEq,reduceCtorEq,not_mem_nil,or_false] at hq
    rw [hq]
    rfl
  have hfind : (run ⟨some twoAuthorities,some repeatsKey⟩ twoVotes).proposals.find 1 =
      some enacted := by decide +kernel
  obtain ⟨-,hquorum,-,hverified⟩ :=
    committed_has_quorum twoAuthorities repeatsKey twoVotes hunsigned 1 enacted hfind rfl
  exact ⟨hfind,hquorum,hverified⟩

def presigned : GovernanceProposal :=
  { addAuthorityProposal with signatures := [⟨authorityA,[],0⟩,⟨authorityA,[],0⟩] }

def knowsNobody (_ : NodeID) : Result Bytes :=
  .error (smoErrGovernance 800 .error .noRetry .governanceVote "unknown")

def acceptsNothing (_ _ _ : Bytes) : Result Bool := .ok false

/-- A proposal with forged signatures is committed, although the resolver knows no authority and
both name the same node. -/
theorem presigned_committed : ∃ p, (run ⟨some knowsNobody,some acceptsNothing⟩
        [.submit presigned,.commit 1 7]).proposals.find 1 = some p ∧
      p.state = .committed ∧ p.signatures.length = 2 ∧
      ¬(p.signatures.map GovernanceSignature.authorityId).Nodup ∧
      ∀ s ∈ p.signatures, ∀ key, knowsNobody s.authorityId ≠ .ok key := by
  refine ⟨{ stored 1 presigned with state := .committed },by decide +kernel,rfl,rfl,
    by decide +kernel,?_⟩
  intro s _ key h
  cases h

end SmoFramework.Governance
