import SmoFramework.Cbor.Reading
import SmoFramework.Join.BootstrapSync

/-! A client that follows the revocation list by bootstrap syncs. It sends back the revision that it
received last and adds what it receives to its own set, while on the server certificates are revoked
and the mesh's epoch grows. The list is sent by the entries' epochs, the revision is the mesh's. -/
namespace SmoFramework.Join
open Library Library.Cursor Cbor List
open Authority
open Cbor (BytesView Decoder Failure reading)
open Recovery (CrlEntry Crl)

/-! What the client makes of the list's part of a response. -/

structure RevokedEntry where
  certFingerprint : Bytes
  nodeIdHex : Bytes
  epoch : UInt64
  revokedAt : Int64
  deriving DecidableEq

def RevokedEntry.of (e : CrlEntry) : RevokedEntry :=
  ⟨e.certFingerprint,e.nodeIdHex,e.epoch,e.revokedAt⟩

def readEntry (data : BytesView) : Cursor Failure RevokedEntry := do
  let _ ← reading data Decoder.decodeMapSize
  let _ ← reading data Decoder.decodeUint
  let certFingerprint ← reading data Decoder.decodeString
  let _ ← reading data Decoder.decodeUint
  let nodeIdHex ← reading data Decoder.decodeString
  let _ ← reading data Decoder.decodeUint
  let epoch ← reading data Decoder.decodeUint
  let _ ← reading data Decoder.decodeUint
  let revokedAt ← reading data Decoder.decodeInt
  pure ⟨certFingerprint,nodeIdHex,epoch,revokedAt⟩

def readEntries (data : BytesView) : Cursor Failure (List RevokedEntry) := do
  let count ← reading data Decoder.decodeArraySize
  collect (readEntry data) count.toNat

/-- The entries of a delta; a missing one has none. No response of `2^63` bytes or more exists. -/
def receivedEntries (delta : Bytes) : Option (List RevokedEntry) :=
  if delta = [] then some []
  else if h : delta.length < 2^63 then ((readEntries ⟨delta,h⟩).run' 0).toOption
  else none

lemma decodes_entry (e : CrlEntry) :
    Decodes data.bytes (readEntry data) (crlItem e) (.of e) := by
  have hword : crlItem e = encodeMap 4 ++ (encodeUint 1 ++
      (encodeString e.certFingerprint ++ (encodeUint 2 ++ (encodeString e.nodeIdHex ++
        (encodeUint 3 ++ (encodeUint e.epoch ++ (encodeUint 4 ++
          encodeInt e.revokedAt))))))) := by
    simp [crlItem,numbered]
  rw [hword]
  exact (decodes_mapSize 4).bind ((decodes_uint 1).bind ((decodes_string _).bind
    ((decodes_uint 2).bind ((decodes_string _).bind ((decodes_uint 3).bind
      ((decodes_uint _).bind ((decodes_uint 4).bind (decodes_int _).bind_pure)))))))

lemma length_le_length_flatMap_crlItem (es : List CrlEntry) :
    es.length ≤ (es.flatMap crlItem).length := by
  induction es with
  | nil => exact Nat.zero_le _
  | cons e es ih =>
    have hpos := length_pos_iff.mpr (numbered_ne_nil [encodeString e.certFingerprint,
      encodeString e.nodeIdHex,encodeUint e.epoch,encodeInt e.revokedAt])
    rw [flatMap_cons,length_append,length_cons,crlItem]
    omega

variable {es : List CrlEntry}

lemma decodes_entries (data : BytesView)
    (hcount : (UInt64.ofNat es.length).toNat = es.length) :
    Decodes data.bytes (readEntries data) (Cbor.encodeArray es.length ++ es.flatMap crlItem)
      (es.map RevokedEntry.of) := by
  refine (decodes_arraySize es.length).bind ?_
  rw [hcount]
  exact Decodes.collect fun e _ => decodes_entry e

lemma receivedEntries_listDelta (h : (listDelta crlItem es).length < 2^63) :
    receivedEntries (listDelta crlItem es) = some (es.map RevokedEntry.of) := by
  by_cases hnil : es = []
  · simp [hnil,listDelta,receivedEntries]
  · have hne : listDelta crlItem es ≠ [] := listDelta_ne_nil_iff.mpr hnil
    have hdelta : listDelta crlItem es = encodeArray es.length ++ es.flatMap crlItem :=
      if_neg hnil
    have hcount : (UInt64.ofNat es.length).toNat = es.length := by
      have hlen := length_le_length_flatMap_crlItem es
      rw [hdelta,length_append] at h
      exact UInt64.toNat_ofNat_of_lt' (lt_of_le_of_lt (by omega) (h.trans (by decide)))
    have hrun := decodes_entries ⟨listDelta crlItem es,h⟩ hcount 0
      ⟨[],[],by simp [hdelta],rfl⟩
    rw [receivedEntries,if_neg hne,dif_pos h,StateT.run'_eq,hrun]
    rfl

lemma length_lt_of_receivedEntries
    (h : receivedEntries delta = some received) : delta.length < 2^63 := by
  unfold receivedEntries at h
  split_ifs at h with hnil hlen
  · simp [hnil]
  · exact hlen

lemma sentEntries_subset (crl : Crl) (cfg : MeshConfig) (req : BootstrapSyncRequest) :
    sentEntries crl cfg req ⊆ crl.entries := by
  unfold sentEntries
  split_ifs
  · exact filter_sublist.subset
  · exact nil_subset _

/-! The runs. -/

namespace MeshManager

def nextEpoch (m : MeshManager) : MeshManager :=
  { m with meshes := fun meshId =>
      if meshId = m.currentMeshId then
        (m.meshes meshId).map fun cfg => { cfg with epoch := cfg.epoch+1 }
      else m.meshes meshId }

end MeshManager

/-- `synced` only keeps the books: how many entries the list had at the client's last sync. -/
structure SyncState where
  crl : Crl
  meshes : MeshManager
  revision : UInt64 := 0
  known : List RevokedEntry := []
  synced : ℕ := 0

/-- Of a sync only the list's revision is the client's; all the rest of it is arbitrary. -/
inductive SyncStep
  | revoke (certFingerprint nodeIdHex reason : Bytes) (epoch : UInt64) (now : Int64)
  | nextEpoch
  | sync (call : SyncCall) (authority : MeshAuthority) (registry : Registry)
      (req : BootstrapSyncRequest)

namespace SyncState

variable (st : SyncState)

def answer : SyncStep → Option (UInt64 × List RevokedEntry)
  | .sync call a r req =>
    match processBootstrapSync call st.meshes a (some st.crl) r
        { req with crlRevision := st.revision } with
    | .error _ => none
    | .ok resp => (receivedEntries resp.crlDelta).map fun received => (resp.crlRevision,received)
  | _ => none

def next : SyncStep → SyncState
  | .revoke certFingerprint nodeIdHex reason epoch now =>
    { st with crl := (st.crl.revoke certFingerprint nodeIdHex reason epoch now).2 }
  | .nextEpoch => { st with meshes := st.meshes.nextEpoch }
  | .sync call a r req => match st.answer (.sync call a r req) with
    | none => st
    | some (revision,received) => { st with
        revision
        known := st.known ++ received
        synced := st.crl.entries.length }

def Complete : Prop := ∀ e ∈ st.crl.entries, RevokedEntry.of e ∈ st.known

/-- Every entry added since the last sync has at least the client's revision for its epoch, and the
mesh is beyond that revision. -/
def Fresh : Prop :=
  ∀ e ∈ st.crl.entries.drop st.synced, ∀ cfg, st.meshes.getCurrentMesh = .ok cfg →
    st.revision < currentEpoch cfg ∧ st.revision ≤ e.epoch

def Always (P : SyncState → SyncStep → Prop) : SyncState → List SyncStep → Prop
  | _,[] => True
  | st,step::steps => P st step ∧ Always P (st.next step) steps

def CompleteAfter (step : SyncStep) : Prop :=
  (st.answer step).isSome = true → (st.next step).Complete

def FreshBefore (step : SyncStep) : Prop :=
  (st.answer step).isSome = true → st.Fresh

/-- What every state of a run keeps as long as the syncs were complete: the client knows exactly the
entries that the list had at its last sync. -/
structure Inv (st : SyncState) : Prop where
  distinct : st.crl.Distinct
  synced_le : st.synced ≤ st.crl.entries.length
  known : ∀ c, c ∈ st.known ↔ c ∈ (st.crl.entries.take st.synced).map RevokedEntry.of

variable {st : SyncState} {st}

variable {received : List RevokedEntry} {req : BootstrapSyncRequest} {a : MeshAuthority}
  {revision : UInt64} {call : SyncCall}

lemma answer_eq_some {r : Registry}
    (h : st.answer (.sync call a r req) = some (revision,received)) :
    ∃ cfg, st.meshes.getCurrentMesh = .ok cfg ∧ revision = currentEpoch cfg ∧
      received = (sentEntries st.crl cfg { req with crlRevision := st.revision }).map
        RevokedEntry.of := by
  unfold answer at h
  cases hresp : processBootstrapSync call st.meshes a (some st.crl) r
      { req with crlRevision := st.revision } with
  | error stop => simp [hresp] at h
  | ok resp =>
    simp only [hresp] at h
    obtain ⟨entries,hentries,hpair⟩ := Option.map_eq_some_iff.mp h
    cases hpair
    obtain ⟨cfg,manifest,members,hcfg,-,-,rfl⟩ := processBootstrapSync_eq_ok.mp hresp
    refine ⟨cfg,hcfg,rfl,?_⟩
    have hread := receivedEntries_listDelta (length_lt_of_receivedEntries hentries)
    exact Option.some.inj (hentries.symm.trans hread)

lemma completeAfter_iff_freshBefore (hinv : st.Inv) (step : SyncStep) :
    st.CompleteAfter step ↔ st.FreshBefore step := by
  unfold CompleteAfter FreshBefore
  refine imp_congr_right fun hsome => ?_
  cases step with
  | revoke certFingerprint nodeIdHex reason epoch now => cases hsome
  | nextEpoch => cases hsome
  | sync call a r req =>
    obtain ⟨⟨revision,received⟩,hanswer⟩ := Option.isSome_iff_exists.mp hsome
    obtain ⟨cfg,hcfg,-,rfl⟩ := answer_eq_some hanswer
    have hcopy := hinv.distinct.copy_complete_iff
      (fun e e' heq => congrArg RevokedEntry.certFingerprint heq) hinv.known
      (sentEntries_subset st.crl cfg { req with crlRevision := st.revision })
    have hsent : ∀ e ∈ st.crl.entries.drop st.synced,
        e ∈ sentEntries st.crl cfg { req with crlRevision := st.revision } ↔
          st.revision < currentEpoch cfg ∧ st.revision ≤ e.epoch := by
      intro e he
      have hmem := mem_of_mem_drop he
      unfold sentEntries
      dsimp only
      by_cases hnewer : st.revision < currentEpoch cfg
      · rw [if_pos hnewer]
        simp [Crl.entriesSince,hmem,hnewer]
      · rw [if_neg hnewer]
        simp [hnewer]
    unfold Complete next
    simp only [hanswer]
    rw [hcopy]
    constructor
    · intro hall e he cfg' hcfg'
      cases hcfg.symm.trans hcfg'
      exact (hsent e he).mp (hall e he)
    · intro hfresh e he
      exact (hsent e he).mpr (hfresh e he cfg hcfg)

/-- New entries come behind those of the last sync. -/
theorem Inv.revoke (hinv : st.Inv) (certFingerprint nodeIdHex reason : Bytes) (epoch : UInt64)
    (now : Int64) : (st.next (.revoke certFingerprint nodeIdHex reason epoch now)).Inv := by
  have hextends := st.crl.revoke_extends certFingerprint nodeIdHex reason epoch now
  refine ⟨Crl.distinct_revoke hinv.distinct _ _ _ _ _,hinv.synced_le.trans hextends.length_le,
    fun c => ?_⟩
  obtain ⟨more,hmore⟩ := hextends
  simp only [SyncState.next]
  rw [hinv.known c,← hmore,take_append_of_le_length hinv.synced_le]

/-- After a complete sync the client knows all entries and, since it receives nothing but entries,
nothing else. -/
theorem Inv.sync (hinv : st.Inv) {r : Registry}
    (hanswer : st.answer (.sync call a r req) = some (revision,received))
    (hcomplete : (st.next (.sync call a r req)).Complete) : (st.next (.sync call a r req)).Inv := by
  obtain ⟨cfg,hcfg,-,hreceived⟩ := answer_eq_some hanswer
  simp only [SyncState.next,hanswer] at hcomplete ⊢
  refine ⟨hinv.distinct,le_rfl,fun c => ?_⟩
  rw [take_length]
  constructor
  · intro hc
    rcases mem_append.mp hc with hold | hnew
    · obtain ⟨e,he,rfl⟩ := mem_map.mp ((hinv.known c).mp hold)
      exact mem_map_of_mem (mem_of_mem_take he)
    · rw [hreceived] at hnew
      obtain ⟨e,he,rfl⟩ := mem_map.mp hnew
      exact mem_map_of_mem (sentEntries_subset _ _ _ he)
  · intro hc
    obtain ⟨e,he,rfl⟩ := mem_map.mp hc
    exact hcomplete e he

/-- Every step keeps the invariant; a sync does so if it is complete. -/
theorem Inv.next (hinv : st.Inv) (h : st.CompleteAfter step) :
    (st.next step).Inv := by
  cases step with
  | revoke certFingerprint nodeIdHex reason epoch now => exact hinv.revoke _ _ _ _ _
  | nextEpoch => exact ⟨hinv.distinct,hinv.synced_le,hinv.known⟩
  | sync call a r req =>
    cases hanswer : st.answer (.sync call a r req) with
    | none =>
      have hsame : st.next (.sync call a r req) = st := by simp only [SyncState.next,hanswer]
      rw [hsame]
      exact hinv
    | some answered => exact hinv.sync hanswer (h (by rw [hanswer]; rfl))

lemma always_completeAfter_iff (hinv : st.Inv) (steps : List SyncStep) :
    Always CompleteAfter st steps ↔ Always FreshBefore st steps := by
  induction steps generalizing st with
  | nil => rfl
  | cons step steps ih =>
    have hstep := completeAfter_iff_freshBefore hinv step
    constructor
    · rintro ⟨hcomplete,hrest⟩
      exact ⟨hstep.mp hcomplete,(ih (hinv.next hcomplete)).mp hrest⟩
    · rintro ⟨hfresh,hrest⟩
      have hcomplete := hstep.mpr hfresh
      exact ⟨hcomplete,(ih (hinv.next hcomplete)).mpr hrest⟩

def start (crl : Crl) (meshes : MeshManager) : SyncState where
  crl
  meshes

/-- In every run, the client knows all entries right after each of its syncs exactly if at each of
them everything new is fresh. -/
theorem sync_complete_iff (crl : Crl) (hdistinct : crl.Distinct) (meshes : MeshManager)
    (steps : List SyncStep) :
    Always CompleteAfter (start crl meshes) steps ↔ Always FreshBefore (start crl meshes) steps :=
  always_completeAfter_iff ⟨hdistinct,Nat.zero_le _,fun c => by simp [start]⟩ steps

def crlOnly : SyncStep := .sync {} {} {} { manifestRevision := 1, membershipRevision := 1 }

theorem sync_complete_once :
    Always CompleteAfter (start {} firstMesh) [.revoke [1] [2] [] 0 0,crlOnly] ∧
    (((start {} firstMesh).next (.revoke [1] [2] [] 0 0)).answer crlOnly).isSome = true := by
  refine ⟨(sync_complete_iff {} (by decide) firstMesh _).mpr ?_,by decide +kernel⟩
  refine ⟨fun hsome => (by cases hsome),fun _ e he cfg hcfg => ?_,trivial⟩
  cases hcfg
  exact ⟨by decide,UInt64.zero_le⟩

/-- A certificate that is revoked after a sync in the same epoch is not sent. -/
theorem sync_not_complete :
    ¬Always CompleteAfter (start {} firstMesh) [crlOnly,.revoke [1] [2] [] 1 0,crlOnly] := by
  rintro ⟨-,-,hlast,-⟩
  have hknown := hlast (by decide +kernel) { certFingerprint := [1], nodeIdHex := [2], epoch := 1 }
    (by decide +kernel)
  exact absurd hknown (by decide +kernel)

end SyncState

end SmoFramework.Join
