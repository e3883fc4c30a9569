import SmoFramework.Acl.PolicyEngine

/-! The routing table between meshes (`CrossMeshRoutingTable` in `core/federation/gateway`): the known
meshes, the routes to them, and the policies that say which contracts may go from one mesh to another. -/
namespace SmoFramework.Federation
open Library
open Acl (PolicyDecision)

structure MeshInfo where
  meshId : Bytes
  lastSync : Int64 := 0
  healthy : Bool := true

structure CrossMeshRoute where
  destinationMeshId : Bytes
  nextHopMeshId : Bytes := []
  gatewayNodeId : Bytes := []
  metric : UInt32 := 1
  lastUpdated : Int64 := 0
  active : Bool := true

structure GatewayPolicy where
  name : Bytes := []
  sourceMesh : Bytes := []
  destinationMesh : Bytes := []
  allowedContracts : List Bytes := []
  deniedContracts : List Bytes := []
  requiredCapabilities : List Bytes := []
  defaultDecision : PolicyDecision := .allow
  priority : Int32 := 0
  enabled : Bool := true

structure CrossMeshRoutingTable where
  localMeshId : Bytes
  meshes : AssocMap Bytes MeshInfo := .empty
  routes : AssocMap Bytes CrossMeshRoute := .empty
  policies : AssocMap Bytes GatewayPolicy := .empty

/-- The bytes of `source + "->" + dest`. -/
def makePolicyKey (source dest : Bytes) : Bytes := source ++ [0x2D,0x3E] ++ dest

def GatewayPolicy.key (policy : GatewayPolicy) : Bytes :=
  makePolicyKey policy.sourceMesh policy.destinationMesh

namespace CrossMeshRoutingTable

variable (code : ℕ)

def tableError (severity : Severity) (message : String) : Error :=
  smoErr .federation code severity .noRetry .none message

variable (t : CrossMeshRoutingTable)

def addMesh (mesh : MeshInfo) : Result Unit × CrossMeshRoutingTable :=
  if mesh.meshId = t.localMeshId then
    (.error (tableError 1 .error "Cannot add local mesh as remote mesh"),t)
  else if t.meshes.contains mesh.meshId then
    (.error (tableError 2 .error ("Mesh already exists: " ++ shown mesh.meshId)),t)
  else (.ok (),{ t with meshes := t.meshes.insert mesh.meshId mesh })

variable (meshId : Bytes)

def removeMesh : Result Unit × CrossMeshRoutingTable :=
  if t.meshes.contains meshId then
    (.ok (),{ t with meshes := t.meshes.erase meshId, routes := t.routes.erase meshId })
  else (.error (tableError 2 .warn ("Mesh not found: " ++ shown meshId)),t)

def addRoute (route : CrossMeshRoute) : Result Unit × CrossMeshRoutingTable :=
  if route.destinationMeshId = t.localMeshId then
    (.error (tableError 4 .error "Cannot add route to local mesh"),t)
  else if t.meshes.contains route.destinationMeshId then
    (.ok (),{ t with routes := t.routes.insert route.destinationMeshId route })
  else (.error (tableError 5 .error
    ("Destination mesh not registered: " ++ shown route.destinationMeshId)),t)

def removeRoute (destinationMesh : Bytes) : Result Unit × CrossMeshRoutingTable :=
  if t.routes.contains destinationMesh then
    (.ok (),{ t with routes := t.routes.erase destinationMesh })
  else (.error (tableError 6 .warn ("Route not found: " ++ shown destinationMesh)),t)

variable (f : MeshInfo → MeshInfo) (t : CrossMeshRoutingTable) (meshId : Bytes)

def updateMesh : Result Unit × CrossMeshRoutingTable :=
  match t.meshes.find meshId with
  | none => (.error (tableError code .warn ("Mesh not found: " ++ shown meshId)),t)
  | some mesh => (.ok (),{ t with meshes := t.meshes.insert meshId (f mesh) })

def updateMeshHealth (healthy : Bool) : Result Unit × CrossMeshRoutingTable :=
  t.updateMesh 8 (fun mesh => { mesh with healthy }) meshId

def updateMeshSyncTime (now : Int64) : Result Unit × CrossMeshRoutingTable :=
  t.updateMesh 9 (fun mesh => { mesh with lastSync := now }) meshId

def setGatewayPolicy (policy : GatewayPolicy) : CrossMeshRoutingTable :=
  { t with policies := t.policies.insert policy.key policy }

def defaultName : Bytes := [0x64,0x65,0x66,0x61,0x75,0x6C,0x74]

def getGatewayPolicy (sourceMesh destMesh : Bytes) : Result GatewayPolicy :=
  match t.policies.find (makePolicyKey sourceMesh destMesh) with
  | none => .ok { name := defaultName, sourceMesh, destinationMesh := destMesh, defaultDecision := .allow }
  | some policy => .ok policy

def permits (policy : GatewayPolicy) (contractId : Bytes) (capabilities : List Bytes) : Bool :=
  if !policy.enabled then policy.defaultDecision = .allow
  else if policy.deniedContracts.any (· = contractId) then false
  else if !policy.allowedContracts.isEmpty then
    if !policy.allowedContracts.any (· = contractId) then false
    else policy.requiredCapabilities.all fun required => capabilities.any (· = required)
  else policy.defaultDecision = .allow

def checkRoutePolicy (sourceMesh destMesh contractId : Bytes)
    (capabilities : List Bytes) : Result Bool :=
  match t.getGatewayPolicy sourceMesh destMesh with
  | .error _ => .ok false
  | .ok policy => .ok (permits policy contractId capabilities)

inductive Op
  | addMesh (mesh : MeshInfo)
  | removeMesh (meshId : Bytes)
  | addRoute (route : CrossMeshRoute)
  | removeRoute (destinationMesh : Bytes)
  | updateMeshHealth (meshId : Bytes) (healthy : Bool)
  | updateMeshSyncTime (meshId : Bytes) (now : Int64)
  | setGatewayPolicy (policy : GatewayPolicy)

def apply : Op → CrossMeshRoutingTable
  | .addMesh mesh => (t.addMesh mesh).2
  | .removeMesh meshId => (t.removeMesh meshId).2
  | .addRoute route => (t.addRoute route).2
  | .removeRoute destinationMesh => (t.removeRoute destinationMesh).2
  | .updateMeshHealth meshId healthy => (t.updateMeshHealth meshId healthy).2
  | .updateMeshSyncTime meshId now => (t.updateMeshSyncTime meshId now).2
  | .setGatewayPolicy policy => t.setGatewayPolicy policy

def run (ops : List Op) : CrossMeshRoutingTable := ops.foldl apply t

/-! Which policy is in force. -/

lemma policies_updateMesh : (t.updateMesh code f meshId).2.policies = t.policies := by
  unfold updateMesh
  cases t.meshes.find meshId with
  | none => rfl
  | some mesh => rfl

lemma policies_apply (op : Op) : (t.apply op).policies = t.policies ∨
      ∃ policy, op = .setGatewayPolicy policy ∧
        (t.apply op).policies = t.policies.insert policy.key policy := by
  cases op with
  | setGatewayPolicy policy => exact Or.inr ⟨policy,rfl,rfl⟩
  | updateMeshHealth meshId healthy => exact Or.inl (policies_updateMesh _ _ _ _)
  | updateMeshSyncTime meshId now => exact Or.inl (policies_updateMesh _ _ _ _)
  | _ =>
    refine Or.inl ?_
    simp only [apply,addMesh,removeMesh,addRoute,removeRoute]
    split_ifs <;> rfl

/-- A policy stays in force until another one is set under its key. -/
theorem find_run {t : CrossMeshRoutingTable} (h : t.policies.find key = some policy)
    (hops : ∀ other, .setGatewayPolicy other ∈ ops → other.key ≠ key) :
    (t.run ops).policies.find key = some policy := by
  induction ops generalizing t with
  | nil => exact h
  | cons op ops ih =>
    refine ih ?_ fun other hother => hops other (List.mem_cons_of_mem _ hother)
    rcases policies_apply t op with heq | ⟨other,rfl,heq⟩
    · rw [heq]
      exact h
    · rw [heq,AssocMap.find_insert,if_neg (hops other List.mem_cons_self).symm]
      exact h

structure Cleared (policy : GatewayPolicy) (contractId : Bytes) (capabilities : List Bytes) : Prop where
  notDenied : policy.enabled = true → contractId ∉ policy.deniedContracts
  allowed : policy.enabled = true → policy.allowedContracts ≠ [] →
    contractId ∈ policy.allowedContracts ∧ ∀ cap ∈ policy.requiredCapabilities, cap ∈ capabilities
  byDefault : policy.enabled = false ∨ policy.allowedContracts = [] → policy.defaultDecision = .allow

lemma cleared_of_permits
    (h : permits policy contractId capabilities = true) : Cleared policy contractId capabilities := by
  unfold permits at h
  by_cases henabled : policy.enabled = true
  · rw [if_neg (by simp [henabled])] at h
    by_cases hdenied : policy.deniedContracts.any (· = contractId) = true
    · rw [if_pos hdenied] at h
      cases h
    rw [if_neg hdenied] at h
    have hnot : contractId ∉ policy.deniedContracts := by simpa using hdenied
    by_cases hempty : policy.allowedContracts = []
    · rw [if_neg (by simp [hempty])] at h
      exact ⟨fun _ => hnot,fun _ hne => absurd hempty hne,fun _ => by simpa using h⟩
    · rw [if_pos (by simpa using hempty)] at h
      by_cases hallowed : policy.allowedContracts.any (· = contractId) = true
      · rw [if_neg (by simpa using hallowed)] at h
        refine ⟨fun _ => hnot,fun _ _ => ⟨by simpa using hallowed,by simpa using h⟩,?_⟩
        rintro (hoff | hnil)
        · exact absurd henabled (by simp [hoff])
        · exact absurd hnil hempty
      · rw [if_pos (by rw [eq_false_of_ne_true hallowed]; rfl)] at h
        cases h
  · rw [if_pos (by simpa using henabled)] at h
    exact ⟨fun hon => absurd hon henabled,fun hon => absurd hon henabled,fun _ => by simpa using h⟩

/-- Whatever is done with the table, a pair of meshes gets through only what its policy lets through: an
enabled policy nothing that it denies, and none of its contracts without the required capabilities. -/
theorem checkRoutePolicy_cleared (t : CrossMeshRoutingTable) (before after : List Op)
    (policy : GatewayPolicy) (contractId : Bytes) (capabilities : List Bytes)
    (hlast : ∀ other, .setGatewayPolicy other ∈ after → other.key ≠ policy.key)
    (h : (t.run (before ++ .setGatewayPolicy policy::after)).checkRoutePolicy policy.sourceMesh
      policy.destinationMesh contractId capabilities = .ok true) :
    Cleared policy contractId capabilities := by
  have hset : ((t.run before).setGatewayPolicy policy).policies.find policy.key = some policy := by
    rw [setGatewayPolicy,AssocMap.find_insert,if_pos rfl]
  have hfind := find_run hset hlast
  have hrun : t.run (before ++ .setGatewayPolicy policy::after) =
      ((t.run before).setGatewayPolicy policy).run after := by
    rw [run,List.foldl_append]
    rfl
  rw [hrun,checkRoutePolicy,getGatewayPolicy] at h
  change (((t.run before).setGatewayPolicy policy).run after).policies.find
    (makePolicyKey policy.sourceMesh policy.destinationMesh) = some policy at hfind
  rw [hfind] at h
  exact cleared_of_permits (Except.ok.inj h)

def meshA : Bytes := [0x61]
def meshB : Bytes := [0x62]
def echo : Bytes := [0x65,0x63,0x68,0x6F]

def allowEcho : GatewayPolicy :=
  { sourceMesh := meshA, destinationMesh := meshB, allowedContracts := [echo]
    requiredCapabilities := [[1]] }

theorem checkRoutePolicy_cleared_echo : Cleared allowEcho echo [[1]] :=
  checkRoutePolicy_cleared { localMeshId := meshA } [] [] allowEcho echo [[1]] (by simp) (by decide)

/-- A policy without allowed contracts lets a caller through that lacks the required capability, and
a disabled policy a contract that it denies. -/
theorem unchecked_routes : (let policy : GatewayPolicy :=
      { sourceMesh := meshA, destinationMesh := meshB, requiredCapabilities := [[1]] }
     (setGatewayPolicy { localMeshId := meshA } policy).checkRoutePolicy meshA meshB echo [] =
        .ok true ∧ ¬∀ cap ∈ policy.requiredCapabilities, cap ∈ ([] : List Bytes)) ∧
    (let policy : GatewayPolicy :=
      { sourceMesh := meshA, destinationMesh := meshB, deniedContracts := [echo], enabled := false }
     (setGatewayPolicy { localMeshId := meshA } policy).checkRoutePolicy meshA meshB echo [] =
        .ok true ∧ echo ∈ policy.deniedContracts) := by
  refine ⟨⟨by decide,by decide⟩,⟨by decide,by decide⟩⟩

end CrossMeshRoutingTable
end SmoFramework.Federation
