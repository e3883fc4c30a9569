import SmoFramework.Governance.Quorum
import SmoFramework.Library.WordReader

/-! The stored form of the engine (`serialize_all`, `load_all`). The bytes for a proposal's tier and
state are cast to the enumerations without a check, so a loaded proposal keeps them as bytes. -/
namespace SmoFramework.Governance
open SmoFramework.Library SmoFramework.Library.BigEndian GovernanceEngine Reader.Reads List
open GovernanceSignature AssocMap

structure LoadedProposal where
  id : UInt64
  tier : UInt8
  level : GovernanceLevel
  action : GovernanceAction
  payload : Bytes
  createdAt : Int64
  expiresAt : Int64
  state : UInt8
  threshold : Int32
  signatures : List GovernanceSignature
  deriving DecidableEq

structure LoadedEngine where
  proposals : AssocMap UInt64 LoadedProposal := empty
  nextId : UInt64 := 1

variable (p : GovernanceProposal)

def GovernanceProposal.loaded : LoadedProposal :=
  { p with tier := p.tier.toByte, state := p.state.toByte }

/-- Each byte stands for one value, so nothing is lost. -/
theorem GovernanceProposal.loaded_injective : Function.Injective loaded := by
  have htier (a b : GovernanceTier) (h : a.toByte = b.toByte) : a = b := by
    cases a <;> cases b <;> first | rfl | cases h
  have hstate (a b : ProposalState) (h : a.toByte = b.toByte) : a = b := by
    cases a <;> cases b <;> first | rfl | cases h
  rintro ⟨⟩ ⟨⟩ h
  simp only [loaded,LoadedProposal.mk.injEq] at h
  grind

def truncated (what : String) : Error :=
  smoErrGovernance 810 .error .noRetry .none ("truncated " ++ what)

def GovernanceSignature.read : Reader UInt8 Error GovernanceSignature := do
  let authorityId ← Reader.vector 32 (truncated "authority_id in signature")
  let sigLen ← Reader.word32
  let signature ← Reader.vector sigLen.toNat (truncated "signature data")
  let signedAt ← Reader.word64
  pure { authorityId, signature := signature.toList, signedAt := signedAt.toInt64 }

def GovernanceSignature.deserialize (data : Bytes) : Result GovernanceSignature :=
  (read.run data).map Prod.fst

/-- One turn of the loop over the signatures. Its errors are not seen, they end the loop. -/
def readSignature : Reader UInt8 Error GovernanceSignature :=
  Reader.framed (truncated "signature") deserialize

/-- The threshold, which is one if the input has ended. -/
def readThreshold : Reader UInt8 Error Int32
  | [] => .ok (1,[])
  | b::rest => .ok (b.toUInt32.toInt32,rest)

def readProposal : Reader UInt8 Error LoadedProposal := do
  let id ← Reader.word64
  let header ← Reader.vector 4 (truncated "proposal header")
  let payloadLen ← Reader.word32
  let payload ← Reader.vector payloadLen.toNat (truncated "proposal payload")
  let createdAt ← Reader.word64
  let expiresAt ← Reader.word64
  let threshold ← readThreshold
  let sigCount ← Reader.word32
  let rest ← get
  pure { id, tier := header.get 0, level := ⟨header.get 1⟩, action := ⟨header.get 2⟩,
         state := header.get 3, payload := payload.toList, createdAt := createdAt.toInt64,
         expiresAt := expiresAt.toInt64, threshold,
         signatures := readSignature.untilError sigCount.toNat rest }

def GovernanceProposal.deserialize (data : Bytes) : Result LoadedProposal :=
  (readProposal.run data).map Prod.fst

namespace GovernanceEngine

def serializeAll (it : Iteration UInt64) (e : GovernanceEngine) : Bytes :=
  write64 e.nextId ++ (toBE 4 e.proposals.entries.length ++
    (it.list e.proposals.entries).flatMap fun entry => Reader.frame entry.2.serialize)

end GovernanceEngine

namespace LoadedEngine

def corrupt (message : String) : Error := smoErrGovernance 812 .error .noRetry .none message

/-- The loop of `load_all`. What was loaded before an error stays. -/
def loadProposals : ℕ → Bytes → AssocMap UInt64 LoadedProposal →
    Result Unit × AssocMap UInt64 LoadedProposal
  | 0, _, proposals => (.ok (),proposals)
  | n+1, data, proposals =>
    if data.length < 4 then (.error (corrupt "truncated governance state"),proposals)
    else match (Reader.framed (corrupt "truncated governance proposal")
        GovernanceProposal.deserialize).run data with
      | .error e => (.error e,proposals)
      | .ok (p,rest) => loadProposals n rest (proposals.insert p.id p)

def loadAll (e : LoadedEngine) (data : Bytes) : Result Unit × LoadedEngine :=
  if data.length < 12 then (.error (corrupt "corrupt governance state"),e)
  else
    let count := (data.drop 8 |>.take 4).foldl shiftIn32 0
    let loaded := loadProposals count.toNat (data.drop 12) empty
    (loaded.1,{ proposals := loaded.2, nextId := read64 (data.take 8) })

end LoadedEngine

/-! One proposal is read back. -/

lemma GovernanceSignature.length_serialize (s : GovernanceSignature) :
    s.serialize.length = 44+s.signature.length := by
  simp only [serialize,length_append,length_toBE,length_write64,s.authorityId.toList_length]
  omega

lemma GovernanceSignature.deserialize_serialize
    (h : s.serialize.length < 2^32) : deserialize s.serialize = .ok s := by
  have hlen := s.length_serialize
  obtain ⟨v,hv,hcount⟩ := count Error (show s.signature.length < 2^32 by omega)
  have hread : Reader.Reads read (s.authorityId.toList ++
      (toBE 4 s.signature.length ++ (s.signature ++ write64 s.signedAt.toUInt64))) s :=
    (vector _ _).bind (hcount.bind ((part _ hv.symm).bind
      (word64 _).bind_pure))
  rw [deserialize,serialize,append_assoc,append_assoc]
  exact hread.whole

namespace GovernanceProposal

lemma length_serialize : p.serialize.length =
    37+p.payload.length+(p.signatures.flatMap fun s => Reader.frame s.serialize).length := by
  simp only [serialize,Reader.frame,length_append,length_toBE,length_write64,length_cons,length_nil]
  omega

/-- The threshold is one that fits a byte. -/
def ThresholdFits : Prop :=
  p.threshold.toUInt32.toUInt8.toUInt32.toInt32 = p.threshold

variable {p : GovernanceProposal}

lemma reads_threshold (h : p.ThresholdFits) :
    Reader.Reads readThreshold [p.threshold.toUInt32.toUInt8] p.threshold := by
  intro rest
  change Except.ok (p.threshold.toUInt32.toUInt8.toUInt32.toInt32,rest) = _
  rw [h]

lemma deserialize_serialize (h : p.serialize.length < 2^32)
    (hthreshold : p.ThresholdFits) : deserialize p.serialize = .ok p.loaded := by
  have hlen := p.length_serialize
  have hmany := Reader.count_le_frames GovernanceSignature.serialize p.signatures
  obtain ⟨v,hv,hpayload⟩ := count Error (show p.payload.length < 2^32 by omega)
  obtain ⟨n,hn,hcount⟩ := count Error (show p.signatures.length < 2^32 by omega)
  have hsignatures : readSignature.untilError n.toNat
      (p.signatures.flatMap fun s => Reader.frame s.serialize) = p.signatures := by
    have hone : ∀ s ∈ p.signatures, readSignature.Reads (Reader.frame s.serialize) s := by
      intro s hs
      have hle := Reader.length_le_frames GovernanceSignature.serialize hs
      exact framed _ (by omega) (GovernanceSignature.deserialize_serialize (by omega))
    have hall := untilError hone []
    rwa [append_nil,map_id',← hn] at hall
  have hword : p.serialize = write64 p.id ++
      ([p.tier.toByte,p.level.val,p.action.val,p.state.toByte] ++ (toBE 4 p.payload.length ++
      (p.payload ++ (write64 p.createdAt.toUInt64 ++ (write64 p.expiresAt.toUInt64 ++
      ([p.threshold.toUInt32.toUInt8] ++ (toBE 4 p.signatures.length ++
      p.signatures.flatMap fun s => Reader.frame s.serialize))))))) := by
    simp only [serialize,Reader.frame,append_assoc]
  rw [deserialize,hword,readProposal,(word64 _).run_bind,
    (part (n := 4) _ rfl).run_bind,hpayload.run_bind,(part _ hv.symm).run_bind,
    (word64 _).run_bind,(word64 _).run_bind,
    (reads_threshold hthreshold).run_bind,hcount.run_bind]
  simp only [loaded]
  change Except.ok (LoadedProposal.mk _ _ _ _ _ _ _ _ _ _) = _
  rw [hsignatures]
  rfl

end GovernanceProposal

/-! The engine. -/

lemma LoadedEngine.loadProposals_frames {es : List (UInt64 × GovernanceProposal)}
    (hes : ∀ entry ∈ es, entry.2.id = entry.1 ∧ entry.2.ThresholdFits ∧
      entry.2.serialize.length < 2^32) (proposals : AssocMap UInt64 LoadedProposal) :
    loadProposals es.length (es.flatMap fun entry => Reader.frame entry.2.serialize) proposals =
      (.ok (),es.foldl (fun m entry => m.insert entry.1 entry.2.loaded) proposals) := by
  induction es generalizing proposals with
  | nil => rfl
  | cons entry es ih =>
    obtain ⟨⟨hid,hthreshold,hlen⟩,hes⟩ := forall_mem_cons.mp hes
    have hread := framed (corrupt "truncated governance proposal") hlen
      (GovernanceProposal.deserialize_serialize hlen hthreshold)
    rw [flatMap_cons,length_cons,loadProposals,if_neg,hread,foldl_cons,← ih hes,← hid]
    · rfl
    · rw [length_append,Reader.length_frame]
      omega

namespace GovernanceEngine

def Kept (e : GovernanceEngine) : Prop :=
  ∀ id p, e.proposals.find id = some p → p.id = id ∧ p.threshold = defaultQuorum p.action 3

lemma Kept.apply {e : GovernanceEngine} (h : e.Kept) (op : Op) :
    (e.apply env op).Kept := by
  intro id r hr
  have hold : ∀ p, e.proposals.find id = some p → Change env p r →
      r.id = id ∧ r.threshold = defaultQuorum r.action 3 := by
    intro p hp hchange
    have hkept := h id p hp
    cases hchange <;> exact hkept
  rcases apply_find hr with ⟨q,pid,rfl,-⟩ | ⟨p,hp,hchange⟩
  · rcases submit_find hr with rfl | hr
    · exact ⟨rfl,rfl⟩
    · exact hold r hr .same
  · exact hold p hp hchange

lemma kept_run (env : Environment) (ops : List Op) : (run env ops).Kept := by
  induction ops using reverseRecOn with
  | nil =>
    intro id p hp
    cases hp
  | append_singleton ops op ih =>
    rw [run,foldl_append]
    exact ih.apply op

lemma thresholdFits_default {p : GovernanceProposal} (h : p.threshold = defaultQuorum p.action 3) :
    p.ThresholdFits := by
  rw [GovernanceProposal.ThresholdFits,h,defaultQuorum,if_neg (by decide)]
  cases actionToTier p.action <;> decide

lemma loadAll_header (loaded : LoadedEngine) (nextId : UInt64) {count : ℕ} (hcount : count < 2^32)
    (rest : Bytes) : let loop := LoadedEngine.loadProposals count rest empty
    loaded.loadAll (write64 nextId ++ (toBE 4 count ++ rest)) =
      (loop.1,{ proposals := loop.2, nextId := nextId }) := by
  have hv : (UInt32.ofNat count).toNat = count := UInt32.toNat_ofNat_of_lt' hcount
  have hword : toBE 4 count = write32 (UInt32.ofNat count) := by rw [write32_eq,hv]
  have hlong : ¬(write64 nextId ++ (toBE 4 count ++ rest)).length < 12 := by
    simp only [length_append,length_write64,length_toBE]
    omega
  have hdrop : (write64 nextId ++ (toBE 4 count ++ rest)).drop 12 = rest := by
    rw [← append_assoc]
    exact drop_left' (by rw [length_append,length_write64,length_toBE])
  dsimp only
  rw [LoadedEngine.loadAll,if_neg hlong,hdrop,take_left' (length_write64 _),read64_write64,
    drop_left' (length_write64 _),take_left' (length_toBE _ _),hword,
    foldl_shiftIn32_write32]
  dsimp only
  rw [hv]

/-- What an engine stored is loaded again, if every proposal and their number fit their prefixes. -/
theorem loadAll_serializeAll (env : Environment) (ops : List Op) (it : Iteration UInt64)
    (hfits : ∀ id p, (run env ops).proposals.find id = some p → p.serialize.length < 2^32)
    (hcount : (run env ops).proposals.entries.length < 2^32) :
    ∃ loaded, LoadedEngine.loadAll {} ((run env ops).serializeAll it) = (.ok (),loaded) ∧
      loaded.nextId = (run env ops).nextId ∧
      ∀ id, loaded.proposals.find id =
        ((run env ops).proposals.find id).map GovernanceProposal.loaded := by
  have hkept := kept_run env ops
  generalize run env ops = e at hfits hcount hkept ⊢
  have hperm := it.perm e.proposals.entries
  have hes : ∀ entry ∈ it.list e.proposals.entries, entry.2.id = entry.1 ∧
      entry.2.ThresholdFits ∧ entry.2.serialize.length < 2^32 := by
    intro entry hentry
    have hfind := AssocMap.mem_entries_iff.mp (hperm.mem_iff.mp hentry)
    obtain ⟨hid,hthreshold⟩ := hkept _ _ hfind
    exact ⟨hid,thresholdFits_default hthreshold,hfits _ _ hfind⟩
  refine ⟨⟨(it.list e.proposals.entries).foldl (fun m entry => m.insert entry.1 entry.2.loaded)
    AssocMap.empty,e.nextId⟩,?_,rfl,fun id => ?_⟩
  · rw [serializeAll,loadAll_header _ _ hcount,← hperm.length_eq,
      LoadedEngine.loadProposals_frames hes]
  · dsimp only
    rw [AssocMap.find_foldl_insert _ ((hperm.map Prod.fst).nodup_iff.mpr e.proposals.nodup),
      AssocMap.findIn_perm hperm e.proposals.nodup]
    exact Option.or_none

theorem loadAll_serializeAll_votes : ∃ loaded, LoadedEngine.loadAll {}
        ((run ⟨some twoAuthorities,some repeatsKey⟩ twoVotes).serializeAll default) = (.ok (),loaded) ∧
      loaded.nextId = 2 ∧ loaded.proposals.find 1 = some enacted.loaded := by
  have hentries : (run ⟨some twoAuthorities,some repeatsKey⟩ twoVotes).proposals.entries =
      [(1,enacted)] := by decide +kernel
  have hfind : (run ⟨some twoAuthorities,some repeatsKey⟩ twoVotes).proposals.find 1 =
      some enacted := by decide +kernel
  have hlen : enacted.serialize.length < 2^32 := by decide +kernel
  obtain ⟨loaded,hload,hnext,hall⟩ := loadAll_serializeAll ⟨some twoAuthorities,some repeatsKey⟩ twoVotes
    default (by
      intro id p hp
      have hmem := AssocMap.mem_entries_of_find hp
      rw [hentries] at hmem
      cases mem_singleton.mp hmem
      exact hlen) (by rw [hentries]; decide)
  refine ⟨loaded,hload,hnext.trans (by decide +kernel),?_⟩
  rw [hall,hfind]
  rfl

lemma loadProposals_wrapped {part : Bytes} (h : part.length = 2^32)
    (proposals : AssocMap UInt64 LoadedProposal) :
    LoadedEngine.loadProposals 1 (Reader.frame part) proposals =
      (.error (truncated "proposal header"),proposals) := by
  obtain ⟨v,hv,hcount⟩ := Reader.Reads.count Error (show 0 < 2^32 by decide)
  have hzero : toBE 4 (2^32) = toBE 4 0 := toBE_add_mul 4 0 1
  have hlong : ¬(Reader.frame part).length < 4 := by
    rw [Reader.length_frame]
    omega
  have hempty : ([] : Bytes).length = v.toNat := hv.symm
  rw [LoadedEngine.loadProposals,if_neg hlong,Reader.frame,h,hzero,Reader.framed,hcount.run_bind]
  rw [← nil_append part,(Reader.Reads.part _ hempty).run_bind]
  rfl

/-- The length of the proposal is written as zero and the load fails. -/
theorem loadAll_long_proposal : ∃ q : GovernanceProposal, q.payload.length < 2^32 ∧ q.signatures = [] ∧
    (LoadedEngine.loadAll {} ((run ⟨none,none⟩ [.submit q]).serializeAll default)).1 =
      .error (truncated "proposal header") := by
  obtain ⟨payload,hpayload⟩ : ∃ payload : Bytes, payload.length = 2^32-37 :=
    ⟨replicate _ 0,length_replicate⟩
  have hne : ¬payload.isEmpty = true := by
    intro h
    rw [isEmpty_iff.mp h] at hpayload
    cases hpayload
  have hlen : (stored 1 { payload }).serialize.length = 2^32 := by
    rw [GovernanceProposal.length_serialize]
    change 37+payload.length+0 = 2^32
    omega
  have hrun : run ⟨none,none⟩ [.submit { payload }] =
      { proposals := AssocMap.empty.insert 1 (stored 1 { payload }), nextId := 2 } := by
    change (GovernanceEngine.submit {} _).2 = _
    have hlevel : ¬GovernanceLevel.authority.val > GovernanceLevel.genesis.val := by decide
    rw [submit,if_neg hlevel,if_neg hne]
    rfl
  have hbytes : (run ⟨none,none⟩ [.submit { payload }]).serializeAll default =
      write64 2 ++ (toBE 4 1 ++ Reader.frame (stored 1 { payload }).serialize) := by
    rw [hrun,← append_nil (Reader.frame _)]
    rfl
  refine ⟨{ payload },hpayload.trans_lt (by decide),rfl,?_⟩
  rw [hbytes,loadAll_header _ _ (by decide),loadProposals_wrapped hlen]

end GovernanceEngine
end SmoFramework.Governance
