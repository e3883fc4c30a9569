import SmoFramework.Discovery.PeerRecord
import SmoFramework.Genesis.Json
import SmoFramework.Library.FoldedKeys

/-! The trust scores of the known nodes (`core/trust/trust`). A `double` is a binary64 number with one
pattern for all that is not a number. The scores are kept under 64 bits that are folded from the node id. -/
namespace SmoFramework.Trust
open Library Library.BigEndian Discovery FoldedKeys List

structure TrustComponents where
  citizen : Float := 0.0
  execution : Float := 0.0
  witness : Float := 0.0
  consistency : Float := 0.0
  deriving DecidableEq

def computeComposite (c : TrustComponents) : Float :=
  let s := c.citizen*0.2+c.execution*0.5+c.witness*0.2+c.consistency*0.1
  let s := if s > 1.0 then 1.0 else s
  if s < 0.0 then 0.0 else s

/-- The weights of the configuration are not read; what is left is the penalty. -/
structure TrustConfig where
  citizenPenaltyOffline : Float := 0.001

structure TrustScore where
  nodeId : NodeID := List.Vector.replicate 32 0
  components : TrustComponents := {}
  composite : Float := 0.0
  lastUpdated : Int64 := 0
  deriving DecidableEq

def TrustScore.serialize (s : TrustScore) : Bytes :=
  s.nodeId.toList ++ write64 s.components.citizen.toBits ++ write64 s.components.execution.toBits ++
    write64 s.components.witness.toBits ++ write64 s.components.consistency.toBits ++
    write64 s.composite.toBits ++ write64 s.lastUpdated.toUInt64

structure TrustAnchor where
  nodeId : NodeID
  publicKey : Bytes

structure Attestation where
  subjectId : NodeID
  claimedScore : Float := 0.0
  timestamp : Int64 := 0

structure TrustDigest where
  origin : NodeID
  sequence : Int64 := 0
  timestamp : Int64 := 0
  scores : List TrustScore := []
  signature : Bytes := []

def TrustDigest.serialize (d : TrustDigest) : Bytes :=
  d.origin.toList ++ write64 d.sequence.toUInt64 ++ write64 d.timestamp.toUInt64 ++
    write32 (UInt32.ofNat d.scores.length) ++
    d.scores.flatMap (fun s => write32 (UInt32.ofNat s.serialize.length) ++ s.serialize) ++
    write32 (UInt32.ofNat d.signature.length) ++ d.signature

abbrev Verify := Bytes → Bytes → Bytes → Result Bool

structure TrustManager where
  config : TrustConfig := {}
  scores : AssocMap UInt64 TrustScore := AssocMap.empty
  anchors : List TrustAnchor := []

/-- The four words of the id, the first byte of each being the highest, combined by exclusive or. -/
def nodeIdKey (id : NodeID) : UInt64 :=
  (List.range 4).foldl (fun h i => h ^^^ ((id.toList.drop (8*i)).take 8).foldl shiftIn64 0) 0

namespace TrustManager

variable (tm : TrustManager) (node : NodeID)

/-- `scores_[node_id_key(node)]` with what is done to it. -/
def update (f : TrustScore → TrustScore) : TrustManager :=
  { tm with scores := tm.scores.insert (nodeIdKey node) (f ((tm.scores.find (nodeIdKey node)).getD {})) }

def rescored (now : Int64) (f : TrustComponents → TrustComponents) (ts : TrustScore) : TrustScore :=
  { nodeId := node
    components := f ts.components
    composite := computeComposite (f ts.components)
    lastUpdated := now }

variable (weight : Float)

def succeeded (c : TrustComponents) : TrustComponents :=
  let execution := c.execution+0.01*weight
  let execution := if execution > 1.0 then 1.0 else execution
  { c with execution := if execution < 0.0 then 0.0 else execution }

def failed (c : TrustComponents) : TrustComponents :=
  let execution := c.execution-0.02*weight
  { c with execution := if execution < 0.0 then 0.0 else execution }

def missed (penalty : Float) (c : TrustComponents) : TrustComponents :=
  let citizen := c.citizen-penalty
  { c with citizen := if citizen < 0.0 then 0.0 else citizen }

/-- Seven parts of the old value and three of the claimed one. -/
def attested (claimed : Float) (c : TrustComponents) : TrustComponents :=
  let witness := c.witness*0.7+claimed*0.3
  { c with witness := if witness > 1.0 then 1.0 else witness }

def recordSuccess (now : Int64) : TrustManager :=
  tm.update node (rescored node now (succeeded weight))

def recordFailure (now : Int64) : TrustManager :=
  tm.update node (rescored node now (failed weight))

def recordOffline (now : Int64) : TrustManager :=
  tm.update node (rescored node now (missed tm.config.citizenPenaltyOffline))

def applyAttestation (att : Attestation) : TrustManager :=
  tm.update att.subjectId (rescored att.subjectId att.timestamp (attested att.claimedScore))

def isTrustAnchor : Bool :=
  tm.anchors.any (fun a => a.nodeId = node)

def noTrustData : Error := smoErrTrust 200 .info .retrySafe .none "no trust data"

def getScore : Result Float :=
  match tm.scores.find (nodeIdKey node) with
  | none => if tm.isTrustAnchor node then .ok 1.0 else .error noTrustData
  | some ts => .ok ts.composite

def anchorRecord : TrustScore where
  nodeId := node
  components := { citizen := 1.0, execution := 1.0, witness := 1.0, consistency := 1.0 }
  composite := 1.0

def getRecord : Result TrustScore :=
  match tm.scores.find (nodeIdKey node) with
  | none => if tm.isTrustAnchor node then .ok (anchorRecord node) else .error noTrustData
  | some ts => .ok ts

def checkDigest (anchors : List TrustAnchor) (digest : TrustDigest) (crypto : Option Verify) :
    Result Unit :=
  if digest.scores.isEmpty then .error (smoErrTrust 203 .warn .noRetry .none "empty digest")
  else match crypto with
    | some verify =>
      if digest.signature = [] then .ok ()
      else match anchors.find? (fun a => a.nodeId = digest.origin) with
        | none => .error (smoErrTrust 206 .error .noRetry .none
            ("digest origin not a trust anchor: " ++ shown (Genesis.bytesToHex digest.origin.toList)))
        | some anchor =>
          match verify { digest with signature := [] }.serialize digest.signature anchor.publicKey with
          | .error e => .error e
          | .ok true => .ok ()
          | .ok false => .error (smoErrTrust 206 .error .noRetry .none
              "digest signature verification failed")
    | none =>
      if digest.signature = [] then .ok ()
      else .error (smoErrTrust 206 .error .noRetry .none
        "crypto provider required for digest signature verification")

variable (scores : AssocMap UInt64 TrustScore) (score : TrustScore)

/-- The newer score wins. -/
def mergeScore : AssocMap UInt64 TrustScore :=
  match scores.find (nodeIdKey score.nodeId) with
  | none => scores.insert (nodeIdKey score.nodeId) score
  | some stored =>
    if score.lastUpdated > stored.lastUpdated then scores.insert (nodeIdKey score.nodeId) score
    else scores

def applyDigest (digest : TrustDigest) (crypto : Option Verify) : Result Unit × TrustManager :=
  match checkDigest tm.anchors digest crypto with
  | .error e => (.error e,tm)
  | .ok () => (.ok (),{ tm with scores := digest.scores.foldl mergeScore tm.scores })

inductive Op
  | recordSuccess (node : NodeID) (weight : Float) (now : Int64)
  | recordFailure (node : NodeID) (weight : Float) (now : Int64)
  | recordOffline (node : NodeID) (now : Int64)
  | applyAttestation (att : Attestation)
  | applyDigest (digest : TrustDigest) (crypto : Option Verify)

def Op.names : Op → List NodeID
  | .recordSuccess node _ _ => [node]
  | .recordFailure node _ _ => [node]
  | .recordOffline node _ => [node]
  | .applyAttestation att => [att.subjectId]
  | .applyDigest digest _ => digest.scores.map TrustScore.nodeId

def apply : Op → TrustManager
  | .recordSuccess node weight now => tm.recordSuccess node weight now
  | .recordFailure node weight now => tm.recordFailure node weight now
  | .recordOffline node now => tm.recordOffline node now
  | .applyAttestation att => tm.applyAttestation att
  | .applyDigest digest crypto => (tm.applyDigest digest crypto).2

def run (ops : List Op) : TrustManager := ops.foldl apply tm

/-! The scores of a single node. -/

section
variable (config : TrustConfig) (anchors : List TrustAnchor)

def merged : Option TrustScore → TrustScore
  | none => score
  | some stored => if score.lastUpdated > stored.lastUpdated then score else stored

def digestChanges (digest : TrustDigest) (crypto : Option Verify) :
    List (FoldedKeys.Change NodeID TrustScore) :=
  match checkDigest anchors digest crypto with
  | .error _ => []
  | .ok () => digest.scores.map fun score => ⟨score.nodeId,merged score⟩

/-- What a call does, one change for every node that it names. -/
def Op.changes : Op → List (FoldedKeys.Change NodeID TrustScore)
  | .recordSuccess node weight now => [⟨node,fun ts => rescored node now (succeeded weight) (ts.getD {})⟩]
  | .recordFailure node weight now => [⟨node,fun ts => rescored node now (failed weight) (ts.getD {})⟩]
  | .recordOffline node now =>
    [⟨node,fun ts => rescored node now (missed config.citizenPenaltyOffline) (ts.getD {})⟩]
  | .applyAttestation att => [⟨att.subjectId,fun ts =>
      rescored att.subjectId att.timestamp (attested att.claimedScore) (ts.getD {})⟩]
  | .applyDigest digest crypto => digestChanges anchors digest crypto

/-- The score of a node if only the calls and entries that name it are looked at. -/
def history (ops : List Op) (id : NodeID) : Option TrustScore :=
  (ops.flatMap (Op.changes config anchors)).foldl (FoldedKeys.own id) none

def expectedRecord (ops : List Op) (id : NodeID) : Result TrustScore :=
  match history config anchors ops id with
  | none => if anchors.any (fun a => a.nodeId = id) then .ok (anchorRecord id) else .error noTrustData
  | some ts => .ok ts

def expectedScore (ops : List Op) (id : NodeID) : Result Float :=
  match history config anchors ops id with
  | none => if anchors.any (fun a => a.nodeId = id) then .ok 1.0 else .error noTrustData
  | some ts => .ok ts.composite

end

lemma mergeScore_eq :
    mergeScore scores score = FoldedKeys.change nodeIdKey scores ⟨score.nodeId,merged score⟩ := by
  unfold mergeScore change
  dsimp only
  cases hfind : scores.find (nodeIdKey score.nodeId) with
  | none => rfl
  | some stored =>
    dsimp only [merged]
    split_ifs
    · rfl
    · exact (AssocMap.insert_of_find hfind).symm

lemma scores_apply (op : Op) : tm.apply op = { tm with
    scores := (op.changes tm.config tm.anchors).foldl (FoldedKeys.change nodeIdKey) tm.scores } := by
  cases op with
  | recordSuccess node weight now => rfl
  | recordFailure node weight now => rfl
  | recordOffline node now => rfl
  | applyAttestation att => rfl
  | applyDigest digest crypto =>
    change (tm.applyDigest digest crypto).2 = { tm with
      scores := (digestChanges tm.anchors digest crypto).foldl (change nodeIdKey) tm.scores }
    unfold applyDigest digestChanges
    cases checkDigest tm.anchors digest crypto with
    | error e => rfl
    | ok =>
      dsimp only
      rw [foldl_map]
      congr 2
      funext scores score
      exact mergeScore_eq scores score

lemma run_eq (ops : List Op) : tm.run ops = { tm with
    scores := (ops.flatMap (Op.changes tm.config tm.anchors)).foldl
      (FoldedKeys.change nodeIdKey) tm.scores } := by
  induction ops generalizing tm with
  | nil => rfl
  | cons op ops ih =>
    change run (tm.apply op) ops = _
    rw [ih,scores_apply,flatMap_cons,foldl_append]

lemma name_mem_of_mem_changes {config : TrustConfig} {anchors : List TrustAnchor} {op : Op}
    {c : FoldedKeys.Change NodeID TrustScore} (h : c ∈ op.changes config anchors) :
    c.name ∈ op.names := by
  cases op with
  | recordSuccess node weight now => exact mem_singleton.mp h ▸ mem_singleton_self _
  | recordFailure node weight now => exact mem_singleton.mp h ▸ mem_singleton_self _
  | recordOffline node now => exact mem_singleton.mp h ▸ mem_singleton_self _
  | applyAttestation att => exact mem_singleton.mp h ▸ mem_singleton_self _
  | applyDigest digest crypto =>
    change c ∈ digestChanges anchors digest crypto at h
    unfold digestChanges at h
    cases hcheck : checkDigest anchors digest crypto with
    | error e =>
      rw [hcheck] at h
      cases h
    | ok =>
      rw [hcheck] at h
      obtain ⟨score,hscore,rfl⟩ := mem_map.mp h
      exact mem_map_of_mem hscore

section
variable {config : TrustConfig} {anchors : List TrustAnchor} {ids : Set NodeID} {ops : List Op}

lemma find_run (hinj : Set.InjOn nodeIdKey ids) (hops : ∀ op ∈ ops, ∀ x ∈ op.names, x ∈ ids)
    {id : NodeID} (hid : id ∈ ids) :
    (run { config, anchors } ops).scores.find (nodeIdKey id) = history config anchors ops id := by
  rw [run_eq]
  refine find_foldl_change hinj (fun c hc => ?_) hid _
  obtain ⟨op,hop,hc⟩ := mem_flatMap.mp hc
  exact hops op hop _ (name_mem_of_mem_changes hc)

lemma find_apply (hinj : Set.InjOn nodeIdKey ids) {op : Op} (hop : ∀ x ∈ op.names, x ∈ ids)
    {id : NodeID} (hid : id ∈ ids) (hne : id ∉ op.names) (tm : TrustManager) :
    (tm.apply op).scores.find (nodeIdKey id) = tm.scores.find (nodeIdKey id) := by
  rw [scores_apply]
  refine (find_foldl_change hinj (fun c hc => ?_) hid _).trans
    (foldl_own_eq (fun c hc heq => ?_) _)
  · exact hop _ (name_mem_of_mem_changes hc)
  · exact hne (heq ▸ name_mem_of_mem_changes hc)

variable (tm : TrustManager)

lemma anchors_run (ops : List Op) : (tm.run ops).anchors = tm.anchors := by
  rw [run_eq]

lemma anchors_apply (op : Op) : (tm.apply op).anchors = tm.anchors := by
  rw [scores_apply]

end

/-- The answers for a node follow from the calls that name it exactly if no two of the nodes in question
have the same key. -/
theorem follows_history_iff (config : TrustConfig) (anchors : List TrustAnchor) (ids : Set NodeID) :
    (∀ ops : List Op, (∀ op ∈ ops, ∀ x ∈ op.names, x ∈ ids) → ∀ id ∈ ids,
      (run { config, anchors } ops).getRecord id = expectedRecord config anchors ops id ∧
      (run { config, anchors } ops).getScore id = expectedScore config anchors ops id ∧
      ∀ op : Op, (∀ x ∈ op.names, x ∈ ids) → id ∉ op.names →
        ((run { config, anchors } ops).apply op).getRecord id =
          (run { config, anchors } ops).getRecord id ∧
        ((run { config, anchors } ops).apply op).getScore id =
          (run { config, anchors } ops).getScore id) ↔
      Set.InjOn nodeIdKey ids := by
  constructor
  · intro h x hx y hy hkey
    by_contra hne
    -- The record of the one node is returned for the other.
    have hrecord := (h [.recordOffline x 0] (by simpa [Op.names] using hx) y hy).1
    have hnone : history config anchors [.recordOffline x 0] y = none := if_neg hne
    have hfind : (run { config, anchors } [.recordOffline x 0]).scores.find (nodeIdKey y) =
        some (rescored x 0 (missed config.citizenPenaltyOffline) {}) :=
      (AssocMap.find_insert _ _ _ _).trans (if_pos hkey.symm)
    rw [getRecord,hfind,expectedRecord,hnone] at hrecord
    dsimp only at hrecord
    split_ifs at hrecord
    exact hne (congrArg TrustScore.nodeId (Except.ok.inj hrecord))
  · intro hinj ops hops id hid
    refine ⟨?_,?_,fun op hop hne => ⟨?_,?_⟩⟩
    · rw [getRecord,find_run hinj hops hid,isTrustAnchor,anchors_run]
      rfl
    · rw [getScore,find_run hinj hops hid,isTrustAnchor,anchors_run]
      rfl
    · rw [getRecord,find_apply hinj hop hid hne,isTrustAnchor,anchors_apply]
      rfl
    · rw [getScore,find_apply hinj hop hid hne,isTrustAnchor,anchors_apply]
      rfl

/-- Two nodes with the same key: the second id has equal words at two places. -/
def zeroId : NodeID := List.Vector.replicate 32 0
def pairedId : NodeID := ⟨[0,0,0,0,0,0,0,1,0,0,0,0,0,0,0,1] ++ List.replicate 16 0,rfl⟩

/-- A node that nothing was said about has the score of another one. -/
theorem scores_share_key : let tm := run {} [.recordSuccess pairedId 1.0 5]
    zeroId ≠ pairedId ∧ getScore {} zeroId = .error noTrustData ∧ tm.getScore zeroId = .ok 0.005 ∧
      (tm.getRecord zeroId).toOption.map TrustScore.nodeId = some pairedId ∧
      expectedScore {} [] [.recordSuccess pairedId 1.0 5] zeroId = .error noTrustData := by
  decide +kernel

end TrustManager
end SmoFramework.Trust
