import SmoFramework.Join.Replay
import SmoFramework.Recovery.Crl

/-! The first synchronisation after joining (`core/join/join_protocol`, `process_bootstrap_sync`): a
node sends the revisions it knows and receives what has changed since, part by part. The request
carries the ticket of the join, which nothing reads. -/
namespace SmoFramework.Join
open Library Library.BigEndian
open Authority
open Recovery (CrlEntry Crl)

/-- `healthScore` is the bits of a double, by default of 1.0. -/
structure SeedInfo where
  endpoint : Bytes := []
  region : Bytes := []
  weight : UInt32 := 100
  healthScore : UInt64 := 0x3FF0000000000000
  deriving DecidableEq

structure BootstrapSyncRequest where
  version : UInt8 := 1
  protocolVersion : UInt8 := 1
  nonce : Vector UInt8 8 := .replicate 8 0
  meshId : Bytes := []
  nodeId : Bytes := []
  bootstrapTicket : Bytes := []
  manifestRevision : UInt64 := 0
  crlRevision : UInt64 := 0
  membershipRevision : UInt64 := 0
  policyRevision : UInt64 := 0
  deriving DecidableEq

structure BootstrapSyncResponse where
  version : UInt8 := 1
  nonce : Vector UInt8 8 := .replicate 8 0
  manifestDelta : Bytes := []
  membershipDelta : Bytes := []
  policyDelta : Bytes := []
  crlDelta : Bytes := []
  manifestRevision : UInt64 := 0
  membershipRevision : UInt64 := 0
  crlRevision : UInt64 := 0
  policyRevision : UInt64 := 0
  seeds : List SeedInfo := []
  serverTime : Int64 := 0
  deriving DecidableEq

/-! The meshes. -/

structure MeshConfig where
  meshId : Bytes := []
  displayName : Bytes := []
  epoch : Int64 := 1
  bootstrapEndpoints : List Bytes := []
  deriving DecidableEq

/-- The chosen mesh, and the meshes that `get_mesh` finds in its cache or in the catalog. -/
structure MeshManager where
  currentMeshId : Bytes := []
  meshes : Bytes → Option MeshConfig := fun _ => none

namespace MeshManager

def meshErr : String → Error := smoErr .storage 404 .info .noRetry .none

def getMesh (m : MeshManager) (meshId : Bytes) : Result MeshConfig :=
  match m.meshes meshId with
  | none => .error (meshErr ("Mesh not found: " ++ shown meshId))
  | some cfg => .ok cfg

def getCurrentMesh (m : MeshManager) : Result MeshConfig :=
  if m.currentMeshId = [] then .error (meshErr "No current mesh") else m.getMesh m.currentMeshId

end MeshManager

/-! The parts of a response. An encoder writes its items one after the other. -/

structure SyncCall where
  randomness : ℕ := 0
  listFault : Option String := none

def currentEpoch (cfg : MeshConfig) : UInt64 := cfg.epoch.toUInt64

def manifestData (cfg : MeshConfig) : Bytes :=
  numbered [Cbor.encodeString cfg.meshId,Cbor.encodeUint (currentEpoch cfg),
    Cbor.encodeString (if cfg.displayName = [] then cfg.meshId else cfg.displayName),
    Cbor.encodeArray cfg.bootstrapEndpoints.length ++ cfg.bootstrapEndpoints.flatMap Cbor.encodeString]

def manifestDelta (call : SyncCall) (a : MeshAuthority) (cfg : MeshConfig)
    (req : BootstrapSyncRequest) : Except Stop Bytes :=
  if req.manifestRevision < currentEpoch cfg then
    match a.signData call.randomness (manifestData cfg ++ write64 (currentEpoch cfg)) with
    | .error e => .error (.returned e)
    | .ok signature => .ok (numbered [Cbor.encodeBytes (manifestData cfg),Cbor.encodeBytes signature,
        Cbor.encodeUint (currentEpoch cfg)])
  else .ok []

def memberItem (node : NodeRecord) : Bytes :=
  numbered [Cbor.encodeString node.nodeIdHex,Cbor.encodeString node.role,
    Cbor.encodeString node.status,Cbor.encodeUint node.epoch,Cbor.encodeInt node.lastSeen]

def listDelta {α : Type} (item : α → Bytes) (xs : List α) : Bytes :=
  if xs = [] then [] else Cbor.encodeArray xs.length ++ xs.flatMap item

/-- The members: all of them, as soon as the epoch is newer. -/
def membershipDelta (call : SyncCall) (a : MeshAuthority) (r : Registry) (cfg : MeshConfig)
    (req : BootstrapSyncRequest) : Except Stop Bytes :=
  if req.membershipRevision < currentEpoch cfg then
    match a.registry_ with
    | none => .error .undefined
    | some db => match listNodes call.listFault db cfg.meshId r with
      | .error _ => .ok []
      | .ok nodes => .ok (listDelta memberItem nodes)
  else .ok []

/-- An entry is sent without its reason. -/
def crlItem (e : CrlEntry) : Bytes :=
  numbered [Cbor.encodeString e.certFingerprint,Cbor.encodeString e.nodeIdHex,
    Cbor.encodeUint e.epoch,Cbor.encodeInt e.revokedAt]

def sentEntries (crl : Crl) (cfg : MeshConfig) (req : BootstrapSyncRequest) : List CrlEntry :=
  if req.crlRevision < currentEpoch cfg then crl.entriesSince req.crlRevision else []

def crlDelta (crl : Option Crl) (cfg : MeshConfig) (req : BootstrapSyncRequest) : Bytes :=
  match crl with
  | none => []
  | some crl => listDelta crlItem (sentEntries crl cfg req)

def seeds (m : MeshManager) (req : BootstrapSyncRequest) : List SeedInfo :=
  match m.getMesh req.meshId with
  | .error _ => []
  | .ok cfg => cfg.bootstrapEndpoints.map fun endpoint => { endpoint }

def processBootstrapSync (call : SyncCall) (m : MeshManager) (a : MeshAuthority) (crl : Option Crl)
    (r : Registry) (req : BootstrapSyncRequest) : Except Stop BootstrapSyncResponse :=
  match m.getCurrentMesh with
  | .error _ => .error (.returned (smoErrProtocol 900 .error .noRetry .none
      "No active mesh for bootstrap sync"))
  | .ok cfg => do
    let manifestDelta ← manifestDelta call a cfg req
    let membershipDelta ← membershipDelta call a r cfg req
    pure { nonce := req.nonce
           manifestDelta
           membershipDelta
           crlDelta := crlDelta crl cfg req
           manifestRevision := currentEpoch cfg
           membershipRevision := currentEpoch cfg
           crlRevision := currentEpoch cfg
           policyRevision := currentEpoch cfg
           seeds := seeds m req }

lemma processBootstrapSync_eq_ok :
    processBootstrapSync call m a crl r req = .ok resp ↔
      ∃ cfg manifest members, m.getCurrentMesh = .ok cfg ∧
        manifestDelta call a cfg req = .ok manifest ∧ membershipDelta call a r cfg req = .ok members ∧
        resp = { nonce := req.nonce, manifestDelta := manifest, membershipDelta := members,
                 crlDelta := crlDelta crl cfg req, manifestRevision := currentEpoch cfg,
                 membershipRevision := currentEpoch cfg, crlRevision := currentEpoch cfg,
                 policyRevision := currentEpoch cfg, seeds := seeds m req } := by
  unfold processBootstrapSync
  cases hmesh : m.getCurrentMesh with
  | error e => simp
  | ok cfg =>
    simp only [bind_eq_ok]
    constructor
    · rintro ⟨manifest,hmanifest,members,hmembers,hresp⟩
      exact ⟨cfg,manifest,members,rfl,hmanifest,hmembers,(Except.ok.inj hresp).symm⟩
    · rintro ⟨cfg',manifest,members,hcfg,hmanifest,hmembers,rfl⟩
      cases hcfg
      exact ⟨manifest,hmanifest,members,hmembers,rfl⟩

/-! Who is answered. -/

def BootstrapSyncResponse.CarriesData (resp : BootstrapSyncResponse) : Prop :=
  resp.manifestDelta ≠ [] ∨ resp.membershipDelta ≠ [] ∨ resp.crlDelta ≠ []

/-- There is something to send, and nothing that keeps it from being sent. -/
def Offers (call : SyncCall) (m : MeshManager) (a : MeshAuthority) (crl : Option Crl) (r : Registry)
    (req : BootstrapSyncRequest) : Prop :=
  ∃ cfg, m.getCurrentMesh = .ok cfg ∧
    (req.manifestRevision < currentEpoch cfg → ∃ signature,
      a.signData call.randomness (manifestData cfg ++ write64 (currentEpoch cfg)) = .ok signature) ∧
    (req.membershipRevision < currentEpoch cfg → a.registry_ ≠ none) ∧
    (req.manifestRevision < currentEpoch cfg ∨
      (req.membershipRevision < currentEpoch cfg ∧ ∃ db nodes, a.registry_ = some db ∧
        listNodes call.listFault db cfg.meshId r = .ok nodes ∧ nodes ≠ []) ∨
      (req.crlRevision < currentEpoch cfg ∧ ∃ list, crl = some list ∧
        ∃ e ∈ list.entries, req.crlRevision ≤ e.epoch))

lemma numbered_ne_nil (values : List Bytes) : numbered values ≠ [] := by
  have hpos := Cbor.encodeHead_length_pos 5 (UInt64.ofNat values.length)
  intro h
  simp [numbered,Cbor.encodeMap,List.append_eq_nil_iff] at h
  simp [h.1] at hpos

lemma listDelta_ne_nil_iff {α : Type} {item : α → Bytes} {xs : List α} :
    listDelta item xs ≠ [] ↔ xs ≠ [] := by
  have hpos := Cbor.encodeHead_length_pos 4 (UInt64.ofNat xs.length)
  unfold listDelta Cbor.encodeArray
  by_cases h : xs = []
  · simp [h]
  · rw [if_neg h]
    refine iff_of_true (fun hnil => ?_) h
    rw [(List.append_eq_nil_iff.mp hnil).1] at hpos
    exact absurd hpos (by decide)

section
variable {call : SyncCall} {m : MeshManager} {a : MeshAuthority} {crl : Option Crl} {r : Registry}
  {cfg : MeshConfig} {req : BootstrapSyncRequest}

lemma manifestDelta_ok_iff : (∃ delta, manifestDelta call a cfg req = .ok delta) ↔
    (req.manifestRevision < currentEpoch cfg → ∃ signature,
      a.signData call.randomness (manifestData cfg ++ write64 (currentEpoch cfg)) = .ok signature) := by
  unfold manifestDelta
  by_cases hold : req.manifestRevision < currentEpoch cfg
  · rw [if_pos hold]
    cases a.signData call.randomness (manifestData cfg ++ write64 (currentEpoch cfg)) with
    | error e => simp [hold]
    | ok signature => simp
  · simp [hold]

lemma manifestDelta_ne_nil_iff (h : manifestDelta call a cfg req = .ok delta) :
    delta ≠ [] ↔ req.manifestRevision < currentEpoch cfg := by
  unfold manifestDelta at h
  by_cases hold : req.manifestRevision < currentEpoch cfg
  · rw [if_pos hold] at h
    split at h
    · cases h
    · cases h
      exact iff_of_true (numbered_ne_nil _) hold
  · rw [if_neg hold] at h
    cases h
    exact iff_of_false (not_not.mpr rfl) hold

lemma membershipDelta_ok_iff : (∃ delta, membershipDelta call a r cfg req = .ok delta) ↔
    (req.membershipRevision < currentEpoch cfg → a.registry_ ≠ none) := by
  unfold membershipDelta
  by_cases hold : req.membershipRevision < currentEpoch cfg
  · rw [if_pos hold]
    cases a.registry_ with
    | none => simp [hold]
    | some db =>
      dsimp only
      cases listNodes call.listFault db cfg.meshId r <;> simp
  · simp [hold]

lemma membershipDelta_ne_nil_iff {delta : Bytes}
    (h : membershipDelta call a r cfg req = .ok delta) :
    delta ≠ [] ↔ req.membershipRevision < currentEpoch cfg ∧ ∃ db nodes, a.registry_ = some db ∧
      listNodes call.listFault db cfg.meshId r = .ok nodes ∧ nodes ≠ [] := by
  unfold membershipDelta at h
  by_cases hold : req.membershipRevision < currentEpoch cfg
  · rw [if_pos hold] at h
    cases hdb : a.registry_ with
    | none => simp [hdb] at h
    | some db =>
      simp only [hdb] at h
      cases hlist : listNodes call.listFault db cfg.meshId r with
      | error e =>
        simp only [hlist] at h
        cases h
        simp [hlist]
      | ok nodes =>
        simp only [hlist] at h
        cases h
        simp [hold,hlist,listDelta_ne_nil_iff]
  · rw [if_neg hold] at h
    cases h
    simp [hold]

lemma crlDelta_ne_nil_iff : crlDelta crl cfg req ≠ [] ↔
    req.crlRevision < currentEpoch cfg ∧ ∃ list, crl = some list ∧
      ∃ e ∈ list.entries, req.crlRevision ≤ e.epoch := by
  cases crl with
  | none => simp [crlDelta]
  | some list =>
    rw [crlDelta,listDelta_ne_nil_iff,sentEntries]
    by_cases hold : req.crlRevision < currentEpoch cfg
    · simp [hold,Crl.entriesSince,List.filter_eq_nil_iff]
    · simp [hold]

lemma offers_iff : Offers call m a crl r req ↔
    ∃ resp, processBootstrapSync call m a crl r req = .ok resp ∧ resp.CarriesData := by
  have hcarries : ∀ {cfg : MeshConfig} {manifest members : Bytes},
      manifestDelta call a cfg req = .ok manifest → membershipDelta call a r cfg req = .ok members →
      ((manifest ≠ [] ∨ members ≠ [] ∨ crlDelta crl cfg req ≠ []) ↔ _) :=
    fun hmanifest hmembers => or_congr (manifestDelta_ne_nil_iff hmanifest)
      (or_congr (membershipDelta_ne_nil_iff hmembers) crlDelta_ne_nil_iff)
  simp only [processBootstrapSync_eq_ok]
  constructor
  · rintro ⟨cfg,hcfg,hsign,hdb,hdata⟩
    obtain ⟨manifest,hmanifest⟩ := manifestDelta_ok_iff.mpr hsign
    obtain ⟨members,hmembers⟩ := membershipDelta_ok_iff.mpr hdb
    exact ⟨_,⟨cfg,manifest,members,hcfg,hmanifest,hmembers,rfl⟩,
      (hcarries hmanifest hmembers).mpr hdata⟩
  · rintro ⟨resp,⟨cfg,manifest,members,hcfg,hmanifest,hmembers,rfl⟩,hdata⟩
    exact ⟨cfg,hcfg,manifestDelta_ok_iff.mp ⟨manifest,hmanifest⟩,
      membershipDelta_ok_iff.mp ⟨members,hmembers⟩,(hcarries hmanifest hmembers).mp hdata⟩

end

/-- The ticket of a sync request came out of one of these calls, and names the request's mesh and
node. -/
def Issued (p : Platform) (s : Server) (js : List Joining) (req : BootstrapSyncRequest) : Prop :=
  ∃ pre j post resp s', js = pre ++ j::post ∧
    processJoinRequest p j.authority j.call j.req (after p s pre) = (.ok resp,s') ∧
    resp.bootstrapTicket = req.bootstrapTicket ∧
    ∃ nowSec signature, resp.bootstrapTicket = ticket req.meshId req.nodeId nowSec signature

lemma not_issued_nil (p : Platform) (s : Server) (js : List Joining) (req : BootstrapSyncRequest) :
    ¬Issued p s js { req with bootstrapTicket := [] } := by
  rintro ⟨-,-,-,resp,-,-,-,hnil,nowSec,signature,hticket⟩
  exact numbered_ne_nil _ (hticket.symm.trans hnil)

/-- After any calls of `process_join_request` the response does not depend on the ticket, so that data
is sent only for issued tickets exactly if there is nothing to send. -/
theorem sync_ignores_ticket (p : Platform) (s : Server) (js : List Joining) (call : SyncCall)
    (m : MeshManager) (a : MeshAuthority) (crl : Option Crl) (req : BootstrapSyncRequest) :
    (∀ ticket, processBootstrapSync call m a crl (after p s js).registry
        { req with bootstrapTicket := ticket } =
      processBootstrapSync call m a crl (after p s js).registry req) ∧
    ((∀ ticket resp, processBootstrapSync call m a crl (after p s js).registry
        { req with bootstrapTicket := ticket } = .ok resp → resp.CarriesData →
          Issued p s js { req with bootstrapTicket := ticket }) ↔
      ¬Offers call m a crl (after p s js).registry req) := by
  have hsame : ∀ ticket, processBootstrapSync call m a crl (after p s js).registry
      { req with bootstrapTicket := ticket } =
    processBootstrapSync call m a crl (after p s js).registry req := fun ticket => rfl
  refine ⟨hsame,?_⟩
  rw [offers_iff]
  constructor
  · rintro hguarded ⟨resp,hresp,hdata⟩
    exact not_issued_nil p s js req (hguarded [] resp ((hsame []).trans hresp) hdata)
  · intro hnothing ticket resp hresp hdata
    exact absurd ⟨resp,(hsame ticket).symm.trans hresp,hdata⟩ hnothing

def signingAuthority : MeshAuthority where
  initialized := true
  signerContext := some fun _ _ => .ok [3]

def firstMesh : MeshManager where
  currentMeshId := [109]
  meshes _ := some { meshId := [109] }

/-- Nobody has joined, and a request without a ticket receives the manifest. -/
theorem sync_not_guarded : ∃ resp, processBootstrapSync {} firstMesh signingAuthority none
      (after plainPlatform {} []).registry { membershipRevision := 1 } = .ok resp ∧
    resp.manifestDelta ≠ [] ∧ ¬Issued plainPlatform {} [] { membershipRevision := 1 } := by
  refine ⟨_,rfl,numbered_ne_nil _,?_⟩
  rintro ⟨pre,j,post,resp,s',hjs,-⟩
  simp at hjs

end SmoFramework.Join
