import Mathlib.Data.Int.ConditionallyCompleteOrder
import SmoFramework.Trust.TrustManager

/-! Which digests change the scores. A digest without a signature is merged without any check of its
origin. -/
namespace SmoFramework.Trust
open Library

namespace TrustManager

variable (tm : TrustManager) (digest : TrustDigest)

/-- A digest signed by the anchor that it names as its origin, over its own contents. -/
def Authenticated (crypto : Option Verify) : Prop :=
  digest.signature ≠ [] ∧ ∃ verify, crypto = some verify ∧ ∃ anchor ∈ tm.anchors,
    anchor.nodeId = digest.origin ∧
      verify { digest with signature := [] }.serialize digest.signature anchor.publicKey = .ok true

def Stale : Prop :=
  ∀ score ∈ digest.scores, ∃ stored, tm.scores.find (nodeIdKey score.nodeId) = some stored ∧
    score.lastUpdated ≤ stored.lastUpdated

def Changes (crypto : Option Verify) : Prop :=
  ∃ key, (tm.applyDigest digest crypto).2.scores.find key ≠ tm.scores.find key

variable {tm : TrustManager} {digest : TrustDigest} {crypto : Option Verify} {tm} {digest}

lemma checkDigest_ok (h : checkDigest tm.anchors digest crypto = .ok ()) :
    digest.signature = [] ∨ Authenticated tm digest crypto := by
  by_cases hsignature : digest.signature = []
  · exact .inl hsignature
  refine .inr ⟨hsignature,?_⟩
  unfold checkDigest at h
  rw [ite_error_eq_ok] at h
  obtain ⟨-,h⟩ := h
  cases crypto with
  | none =>
    simp only [if_neg hsignature] at h
    cases h
  | some verify =>
    refine ⟨verify,rfl,?_⟩
    simp only [if_neg hsignature] at h
    cases hanchor : tm.anchors.find? (fun a => a.nodeId = digest.origin) with
    | none => simp [hanchor] at h
    | some anchor =>
      have horigin : anchor.nodeId = digest.origin := by simpa using List.find?_some hanchor
      refine ⟨anchor,List.mem_of_find?_eq_some hanchor,horigin,?_⟩
      simp only [hanchor] at h
      split at h
      · cases h
      · assumption
      · cases h

lemma checkDigest_unsigned (hscores : digest.scores ≠ []) (hsignature : digest.signature = []) :
    checkDigest tm.anchors digest crypto = .ok () := by
  unfold checkDigest
  rw [if_neg (by simpa using hscores)]
  cases crypto with
  | none => exact if_pos hsignature
  | some verify => exact if_pos hsignature

def age (found : Option TrustScore) : WithBot ℤ := (found.map (fun ts => ts.lastUpdated.toInt) : Option ℤ)

lemma age_merged (score : TrustScore) (found : Option TrustScore) :
    age found ≤ age (some (merged score found)) ∧
      WithBot.some score.lastUpdated.toInt ≤ age (some (merged score found)) := by
  cases found with
  | none => exact ⟨bot_le,le_rfl⟩
  | some stored =>
    dsimp only [merged]
    split_ifs with hnewer
    · exact ⟨WithBot.coe_le_coe.mpr (Int64.lt_iff_toInt_lt.mp hnewer).le,le_rfl⟩
    · exact ⟨le_rfl,WithBot.coe_le_coe.mpr (not_lt.mp fun h => hnewer (Int64.lt_iff_toInt_lt.mpr h))⟩

lemma find_mergeScore (scores : AssocMap UInt64 TrustScore) (score : TrustScore) (key : UInt64) :
    (mergeScore scores score).find key =
      if key = nodeIdKey score.nodeId then some (merged score (scores.find key)) else scores.find key := by
  rw [mergeScore_eq,FoldedKeys.change,AssocMap.find_insert]
  split_ifs with hkey
  · rw [hkey]
  · rfl

lemma age_foldl_mergeScore (entries : List TrustScore) (scores : AssocMap UInt64 TrustScore)
    (key : UInt64) : age (scores.find key) ≤ age ((entries.foldl mergeScore scores).find key) ∧
      ∀ score ∈ entries, nodeIdKey score.nodeId = key →
        WithBot.some score.lastUpdated.toInt ≤ age ((entries.foldl mergeScore scores).find key) := by
  induction entries generalizing scores with
  | nil => exact ⟨le_rfl,fun _ hmem => by cases hmem⟩
  | cons score entries ih =>
    obtain ⟨hstored,hentries⟩ := ih (mergeScore scores score)
    rw [List.foldl_cons]
    rw [find_mergeScore] at hstored
    have hmerged := age_merged score (scores.find key)
    refine ⟨?_,fun entry hentry hkey => ?_⟩
    · split_ifs at hstored with hkey
      · exact hmerged.1.trans hstored
      · exact hstored
    · rcases List.mem_cons.mp hentry with rfl | hentry
      · rw [if_pos hkey.symm] at hstored
        exact hmerged.2.trans hstored
      · exact hentries entry hentry hkey

lemma foldl_mergeScore_stale {entries : List TrustScore} (h : ∀ score ∈ entries, ∃ stored,
    tm.scores.find (nodeIdKey score.nodeId) = some stored ∧ score.lastUpdated ≤ stored.lastUpdated) :
    entries.foldl mergeScore tm.scores = tm.scores := by
  induction entries with
  | nil => rfl
  | cons score entries ih =>
    obtain ⟨⟨stored,hfind,hold⟩,hentries⟩ := List.forall_mem_cons.mp h
    have hscore : mergeScore tm.scores score = tm.scores := by
      rw [mergeScore,hfind]
      exact if_neg (Int64.not_lt.mpr hold)
    rw [List.foldl_cons,hscore,ih hentries]

lemma foldl_mergeScore_ne (h : ¬Stale tm digest) :
    ∃ key, (digest.scores.foldl mergeScore tm.scores).find key ≠ tm.scores.find key := by
  obtain ⟨score,hrest⟩ := not_forall.mp h
  obtain ⟨hscore,hnew⟩ := Classical.not_imp.mp hrest
  refine ⟨nodeIdKey score.nodeId,fun heq => ?_⟩
  have hage := (age_foldl_mergeScore digest.scores tm.scores (nodeIdKey score.nodeId)).2 score hscore rfl
  rw [heq] at hage
  cases hfind : tm.scores.find (nodeIdKey score.nodeId) with
  | none =>
    rw [hfind] at hage
    exact absurd hage (not_le.mpr (WithBot.bot_lt_coe _))
  | some stored =>
    rw [hfind] at hage
    exact hnew ⟨stored,hfind,Int64.le_iff_toInt_le.mpr (WithBot.coe_le_coe.mp hage)⟩

lemma applyDigest_of_ok (h : checkDigest tm.anchors digest crypto = .ok ()) :
    (tm.applyDigest digest crypto).2.scores = digest.scores.foldl mergeScore tm.scores := by
  rw [applyDigest,h]

lemma Changes.ok (h : Changes tm digest crypto) : checkDigest tm.anchors digest crypto = .ok () := by
  obtain ⟨key,hkey⟩ := h
  cases hcheck : checkDigest tm.anchors digest crypto with
  | ok => rfl
  | error e =>
    rw [applyDigest,hcheck] at hkey
    exact absurd rfl hkey

/-- A digest that changes a score is authenticated exactly if it has a signature or has nothing new to
say. -/
theorem changes_authenticated_iff (tm : TrustManager) (digest : TrustDigest)
    (crypto : Option Verify) : (Changes tm digest crypto → Authenticated tm digest crypto) ↔
      (digest.signature ≠ [] ∨ Stale tm digest) := by
  constructor
  · intro h
    by_contra hnot
    rw [not_or,not_ne_iff] at hnot
    obtain ⟨hsignature,hstale⟩ := hnot
    have hscores : digest.scores ≠ [] := fun hnil => hstale fun score hmem => by
      rw [hnil] at hmem
      cases hmem
    have hchanges : Changes tm digest crypto := by
      unfold Changes
      rw [applyDigest_of_ok (checkDigest_unsigned hscores hsignature)]
      exact foldl_mergeScore_ne hstale
    exact (h hchanges).1 hsignature
  · rintro (hsignature | hstale) hchanges
    · exact (checkDigest_ok hchanges.ok).resolve_left hsignature
    · obtain ⟨key,hkey⟩ := hchanges
      exact absurd (by rw [applyDigest_of_ok (Changes.ok ⟨key,hkey⟩),foldl_mergeScore_stale hstale]) hkey

/-- A stranger gives itself the highest score with a digest that nobody has signed, although no signature
would pass. -/
theorem unsigned_digest_accepted :
    let digest : TrustDigest := { origin := pairedId, scores := [anchorRecord pairedId] }
    let crypto : Option Verify := some fun _ _ _ => .ok false
    getScore {} pairedId = .error noTrustData ∧
      (applyDigest {} digest crypto).2.getScore pairedId = .ok 1.0 ∧
      Changes {} digest crypto ∧ ¬Authenticated {} digest crypto :=
  ⟨by decide +kernel,by decide +kernel,⟨0,by decide +kernel⟩,fun h => h.1 rfl⟩

end TrustManager
end SmoFramework.Trust
