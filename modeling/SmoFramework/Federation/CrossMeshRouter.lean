import Mathlib.Data.List.Induction
import SmoFramework.Errors
import SmoFramework.Library.AssocMap
import SmoFramework.Library.Numeral
import SmoFramework.Library.OpenRequests

/-! The router of requests to other meshes (`core/federation/cross_mesh_router`). A request is
pending under a new id until it is answered or times out, and `on_response` is told either way. The
callbacks do not call back into the router. Requests from other meshes are left out. -/
namespace SmoFramework.Federation
open Library List AssocMap

structure CrossMeshExecutionRequest where
  destinationMeshId : Bytes
  timeoutNs : Int64 := 30000000000

structure CrossMeshExecutionResponse (ρ : Type) where
  success : Bool := false
  result : ρ
  errorMessage : String := ""
  executionTimeNs : Int64 := 0

structure CrossMeshRouteEntry where
  destinationMesh : Bytes
  gatewaySessionId : Bytes := []
  nextHopGateway : Bytes := []
  metric : UInt32 := 1
  lastUsed : Int64 := 0
  healthy : Bool := true

structure PendingRequest where
  requestId : Bytes
  request : CrossMeshExecutionRequest
  route : CrossMeshRouteEntry
  sentAt : Int64 := 0
  timeoutNs : Int64 := 0
  responseReceived : Bool := false

def PendingRequest.timedOut (now : Int64) (pending : PendingRequest) : Bool :=
  !pending.responseReceived && now-pending.sentAt > pending.timeoutNs

structure CrossMeshRouter where
  localMeshId : Bytes
  maxPendingRequests : ℕ := 1000
  routes : AssocMap Bytes CrossMeshRouteEntry := .empty
  pendingRequests : AssocMap Bytes PendingRequest := .empty
  nextRequestId : UInt64 := 1

namespace CrossMeshRouter

def routerError (code : ℕ) (severity : Severity) (retry : RetryClass) (message : String) : Error :=
  smoErr .federation code severity retry .none message

def addRoute (r : CrossMeshRouter) (route : CrossMeshRouteEntry) : Result Unit × CrossMeshRouter :=
  if route.destinationMesh = r.localMeshId then
    (.error (routerError 1 .error .noRetry "Cannot add route to local mesh"),r)
  else (.ok (),{ r with routes := r.routes.insert route.destinationMesh route })

def removeRoute (r : CrossMeshRouter) (destinationMesh : Bytes) : Result Unit × CrossMeshRouter :=
  if r.routes.contains destinationMesh then
    (.ok (),{ r with routes := r.routes.erase destinationMesh })
  else (.error (routerError 2 .warn .noRetry ("Route not found: " ++ shown destinationMesh)),r)

def findRoute (r : CrossMeshRouter) (destinationMesh : Bytes) : Result CrossMeshRouteEntry :=
  match r.routes.find destinationMesh with
  | none => .error (routerError 3 .warn .noRetry ("No route to mesh: " ++ shown destinationMesh))
  | some route =>
    if route.healthy then .ok route
    else .error (routerError 4 .warn .retryBackoff ("Route unhealthy: " ++ shown destinationMesh))

def decimal (t : Int64) : Bytes :=
  if t.toInt < 0 then 0x2D::Numeral.render 10 t.toInt.natAbs else Numeral.render 10 t.toInt.natAbs

/-- The bytes of `"xmesh-" + mesh + "-" + number + "-" + time`. -/
def requestId (mesh : Bytes) (number : UInt64) (time : Int64) : Bytes :=
  ([0x78,0x6D,0x65,0x73,0x68,0x2D] ++ mesh ++ [0x2D]) ++
    (Numeral.render 10 number.toNat ++ 0x2D::decimal time)

/-- The two readings of the clock in `execute_cross_mesh`, and what `send_remote` says. -/
structure Surroundings where
  idTime : Int64
  sentAt : Int64
  sendRemote : Bytes → Bytes → Bytes → Result Unit

/-- The payload is still empty in the source. -/
def forwardRequest (env : Surroundings) (pending : PendingRequest) : Result Unit :=
  env.sendRemote pending.request.destinationMeshId pending.route.gatewaySessionId []

def executeCrossMesh (r : CrossMeshRouter) (env : Surroundings) (request : CrossMeshExecutionRequest) :
    Result Bytes × CrossMeshRouter :=
  if request.destinationMeshId = r.localMeshId then
    (.error (routerError 5 .error .noRetry "Cannot execute cross-mesh to local mesh"),r)
  else match r.findRoute request.destinationMeshId with
    | .error e => (.error e,r)
    | .ok route =>
      let id := requestId r.localMeshId r.nextRequestId env.idTime
      let r := { r with nextRequestId := r.nextRequestId+1 }
      let pending : PendingRequest := { requestId := id, request, route, sentAt := env.sentAt
                                        timeoutNs := request.timeoutNs }
      if r.pendingRequests.entries.length ≥ r.maxPendingRequests then
        (.error (routerError 6 .error .retryBackoff "Max pending requests reached"),r)
      else
        let r := { r with pendingRequests := r.pendingRequests.insert id pending }
        match forwardRequest env pending with
        | .error e => (.error e,{ r with pendingRequests := r.pendingRequests.erase id })
        | .ok () => (.ok id,r)

variable {ρ : Type}

abbrev Answer (ρ : Type) := Bytes × CrossMeshExecutionResponse ρ

def handleResponse (r : CrossMeshRouter) (id : Bytes) (response : CrossMeshExecutionResponse ρ) :
    Result Unit × List (Answer ρ) × CrossMeshRouter :=
  if r.pendingRequests.contains id then
    (.ok (),[(id,response)],{ r with pendingRequests := r.pendingRequests.erase id })
  else (.error (routerError 8 .warn .noRetry ("No pending request: " ++ shown id)),[],r)

def timeOut [Inhabited ρ] (acc : List (Answer ρ) × CrossMeshRouter) (id : Bytes) :
    List (Answer ρ) × CrossMeshRouter :=
  if acc.2.pendingRequests.contains id then
    (acc.1 ++ [(id,{ result := default, errorMessage := "Request timed out" })],
      { acc.2 with pendingRequests := acc.2.pendingRequests.erase id })
  else acc

/-- The hash table is gone through in some order. -/
def tick [Inhabited ρ] (r : CrossMeshRouter) (order : Iteration Bytes) (now : Int64) :
    List (Answer ρ) × CrossMeshRouter :=
  (((order.list r.pendingRequests.entries).filter fun e => e.2.timedOut now).map Prod.fst).foldl
    timeOut ([],r)

inductive Op (ρ : Type)
  | addRoute (route : CrossMeshRouteEntry)
  | removeRoute (destinationMesh : Bytes)
  | execute (env : Surroundings) (request : CrossMeshExecutionRequest)
  | handleResponse (id : Bytes) (response : CrossMeshExecutionResponse ρ)
  | tick (order : Iteration Bytes) (now : Int64)

structure Run (ρ : Type) where
  router : CrossMeshRouter
  issued : List Bytes := []
  answers : List (Answer ρ) := []

def Run.next [Inhabited ρ] (run : Run ρ) : Op ρ → Run ρ
  | .addRoute route => { run with router := (run.router.addRoute route).2 }
  | .removeRoute mesh => { run with router := (run.router.removeRoute mesh).2 }
  | .execute env request =>
    let call := run.router.executeCrossMesh env request
    { run with router := call.2, issued := run.issued ++ call.1.toOption.toList }
  | .handleResponse id response =>
    let call := run.router.handleResponse id response
    { run with router := call.2.2, answers := run.answers ++ call.2.1 }
  | .tick order now =>
    let call := run.router.tick order now
    { run with router := call.2, answers := run.answers ++ call.1 }

def run [Inhabited ρ] (localMeshId : Bytes) (maxPendingRequests : ℕ) (ops : List (Op ρ)) : Run ρ :=
  ops.foldl Run.next { router := { localMeshId, maxPendingRequests } }

/-! The numbers in the ids keep them apart. -/

lemma number_of_requestId {mesh : Bytes} {number : UInt64} {time : Int64} {number' : UInt64}
    {time' : Int64}
    (h : requestId mesh number time = requestId mesh number' time') : number = number' := by
  have htail := append_cancel_left h
  have hscan := congrArg (Numeral.scan 10) htail
  rw [Numeral.scan_render (by decide) (by decide) _ (by decide),
    Numeral.scan_render (by decide) (by decide) _ (by decide)] at hscan
  exact UInt64.toNat_inj.mp hscan

lemma ofNat_ne_ofNat {k n : ℕ} (hk : k < n) (hn : n < 2^64) :
    UInt64.ofNat (k+1) ≠ UInt64.ofNat (n+1) := by
  intro h
  have hnat := congrArg UInt64.toNat h
  rw [UInt64.toNat_ofNat',UInt64.toNat_ofNat'] at hnat
  omega

/-! What a call does to the pending requests. -/

def Pending (r : CrossMeshRouter) (id : Bytes) : Prop := r.pendingRequests.contains id = true

section
variable {r : CrossMeshRouter} {id k : Bytes}

lemma contains_insert {pending : PendingRequest} :
    (r.pendingRequests.insert id pending).contains k = true ↔ k = id ∨ r.Pending k := by
  unfold Pending AssocMap.contains
  rw [AssocMap.find_insert]
  split_ifs with h
  · simp [h]
  · simp [h]

lemma contains_erase : (r.pendingRequests.erase id).contains k = true ↔ r.Pending k ∧ k ≠ id := by
  unfold Pending AssocMap.contains
  rw [AssocMap.find_erase]
  split_ifs with h
  · simp [h]
  · simp [h]

end

lemma executeCrossMesh_cases (r : CrossMeshRouter) (env : Surroundings)
    (request : CrossMeshExecutionRequest)
    (hnew : ¬r.Pending (requestId r.localMeshId r.nextRequestId env.idTime))
    (hroom : r.pendingRequests.entries.length ≤ r.maxPendingRequests) :
    ∃ result pendingRequests nextRequestId,
      r.executeCrossMesh env request = (result,{ r with pendingRequests, nextRequestId }) ∧
      pendingRequests.entries.length ≤ r.maxPendingRequests ∧
      ((∃ e, result = .error e) ∧ (∀ k, pendingRequests.contains k = true ↔ r.Pending k) ∧
          (nextRequestId = r.nextRequestId ∨ nextRequestId = r.nextRequestId+1) ∨
        result = .ok (requestId r.localMeshId r.nextRequestId env.idTime) ∧
          nextRequestId = r.nextRequestId+1 ∧ ∀ k, pendingRequests.contains k = true ↔
            k = requestId r.localMeshId r.nextRequestId env.idTime ∨ r.Pending k) := by
  unfold executeCrossMesh
  split_ifs with hlocal
  · exact ⟨_,_,_,rfl,hroom,Or.inl ⟨⟨_,rfl⟩,fun k => Iff.rfl,Or.inl rfl⟩⟩
  cases r.findRoute request.destinationMeshId with
  | error e => exact ⟨_,_,_,rfl,hroom,Or.inl ⟨⟨e,rfl⟩,fun k => Iff.rfl,Or.inl rfl⟩⟩
  | ok route =>
    dsimp only
    split_ifs with hfull
    · exact ⟨_,_,_,rfl,hroom,Or.inl ⟨⟨_,rfl⟩,fun k => Iff.rfl,Or.inr rfl⟩⟩
    generalize hid : requestId r.localMeshId r.nextRequestId env.idTime = id at hnew
    have hlen := r.pendingRequests.length_insert_le id
      { requestId := id, request, route, sentAt := env.sentAt, timeoutNs := request.timeoutNs }
    cases forwardRequest env
      { requestId := id, request, route, sentAt := env.sentAt, timeoutNs := request.timeoutNs } with
    | error e =>
      refine ⟨_,_,_,rfl,?_,Or.inl ⟨⟨e,rfl⟩,fun k => ?_,Or.inr rfl⟩⟩
      · exact (length_erase_le _ _).trans (by omega)
      · rw [contains_erase (r := { r with pendingRequests := r.pendingRequests.insert id _ }),Pending,
          contains_insert]
        constructor
        · rintro ⟨hk,hne⟩
          exact hk.resolve_left hne
        · intro hk
          exact ⟨Or.inr hk,fun heq => hnew (heq ▸ hk)⟩
    | ok u => exact ⟨_,_,_,rfl,by omega,Or.inr ⟨rfl,rfl,fun k => contains_insert⟩⟩

lemma foldl_timeOut [Inhabited ρ] (ids : List Bytes) (acc : List (Answer ρ) × CrossMeshRouter)
    (hnodup : ids.Nodup) (hids : ∀ id ∈ ids, acc.2.Pending id) :
    ∃ answers pendingRequests, ids.foldl timeOut acc = (acc.1 ++ answers,{ acc.2 with pendingRequests }) ∧
      answers.map Prod.fst = ids ∧
      pendingRequests.entries.length ≤ acc.2.pendingRequests.entries.length ∧
      ∀ k, pendingRequests.contains k = true ↔ acc.2.Pending k ∧ k ∉ ids := by
  induction ids generalizing acc with
  | nil => exact ⟨[],acc.2.pendingRequests,by simp,rfl,le_refl _,fun k => by simp [Pending]⟩
  | cons id ids ih =>
    obtain ⟨hid,hids⟩ := forall_mem_cons.mp hids
    obtain ⟨hout,hnodup⟩ := nodup_cons.mp hnodup
    have hstep : timeOut acc id =
        (acc.1 ++ [(id,{ result := default, errorMessage := "Request timed out" })],
          { acc.2 with pendingRequests := acc.2.pendingRequests.erase id }) := if_pos hid
    rw [foldl_cons,hstep]
    obtain ⟨answers,pendingRequests,hfold,hanswers,hlen,hpending⟩ := ih
      (acc.1 ++ [(id,{ result := default, errorMessage := "Request timed out" })],
        { acc.2 with pendingRequests := acc.2.pendingRequests.erase id }) hnodup
      fun k hk => contains_erase.mpr ⟨hids k hk,fun heq => hout (heq ▸ hk)⟩
    rw [hfold]
    refine ⟨(id,_)::answers,pendingRequests,by rw [append_assoc]; rfl,?_,?_,fun k => ?_⟩
    · rw [map_cons,hanswers]
    · exact hlen.trans (length_erase_le _ _)
    · rw [hpending,Pending,contains_erase,mem_cons,not_or,and_assoc]

lemma tick_cases [Inhabited ρ] (r : CrossMeshRouter) (order : Iteration Bytes) (now : Int64) :
    ∃ (answers : List (Answer ρ)) (pendingRequests : AssocMap Bytes PendingRequest),
      r.tick order now = (answers,{ r with pendingRequests }) ∧
      (answers.map Prod.fst).Nodup ∧ (∀ id ∈ answers.map Prod.fst, r.Pending id) ∧
      pendingRequests.entries.length ≤ r.pendingRequests.entries.length ∧
      ∀ k, pendingRequests.contains k = true ↔ r.Pending k ∧ k ∉ answers.map Prod.fst := by
  have hperm := (order.perm r.pendingRequests.entries).map Prod.fst
  have hsub : (((order.list r.pendingRequests.entries).filter fun e => e.2.timedOut now).map
      Prod.fst).Sublist ((order.list r.pendingRequests.entries).map Prod.fst) :=
    filter_sublist.map Prod.fst
  have hnodup := (hperm.nodup_iff.mpr r.pendingRequests.nodup).sublist hsub
  have hids : ∀ id ∈ ((order.list r.pendingRequests.entries).filter fun e => e.2.timedOut now).map
      Prod.fst, r.Pending id := fun id hid =>
    mem_keys_iff.mp (hperm.mem_iff.mp (hsub.subset hid))
  obtain ⟨answers,pendingRequests,hfold,hanswers,hlen,hpending⟩ :=
    foldl_timeOut (ρ := ρ) _ ([],r) hnodup hids
  refine ⟨answers,pendingRequests,hfold,?_,?_,hlen,?_⟩
  · rw [hanswers]
    exact hnodup
  · rw [hanswers]
    exact hids
  · rw [hanswers]
    exact hpending

/-! Runs. -/

/-- The books of a run after `generated` ids have been made. -/
structure Sound (generated : ℕ) (run : Run ρ) : Prop where
  balanced : OpenRequests.Balanced run.issued (run.answers.map Prod.fst) run.router.Pending
  numbered : ∀ id ∈ run.issued, ∃ k time, k < generated ∧
    id = requestId run.router.localMeshId (UInt64.ofNat (k+1)) time
  next : run.router.nextRequestId = UInt64.ofNat (generated+1)
  bounded : run.router.pendingRequests.entries.length ≤ run.router.maxPendingRequests

structure Told (before after : Run ρ) (answers : List (Answer ρ)) : Prop where
  answers_eq : after.answers = before.answers ++ answers
  nodup : (answers.map Prod.fst).Nodup
  leaving : ∀ id, id ∈ answers.map Prod.fst ↔ before.router.Pending id ∧ ¬after.router.Pending id

def Op.isExecute : Op ρ → Bool
  | .execute _ _ => true
  | _ => false

section
variable {generated : ℕ} {run : Run ρ}

lemma Sound.fresh (h : Sound generated run) (hgen : generated < 2^64) (time : Int64) :
    requestId run.router.localMeshId run.router.nextRequestId time ∉ run.issued := by
  intro hmem
  obtain ⟨k,time',hk,heq⟩ := h.numbered _ hmem
  rw [h.next] at heq
  exact ofNat_ne_ofNat hk hgen (number_of_requestId heq).symm

lemma Told.nothing {before after : Run ρ} (hanswers : after.answers = before.answers)
    (hpending : ∀ id, before.router.Pending id → after.router.Pending id) : Told before after [] :=
  ⟨by rw [hanswers,append_nil],nodup_nil,fun id => by
    simpa using fun hid => hpending id hid⟩

lemma Sound.answer (h : Sound generated run) (answers : List (Answer ρ))
    (pendingRequests : AssocMap Bytes PendingRequest) (hnodup : (answers.map Prod.fst).Nodup)
    (hin : ∀ id ∈ answers.map Prod.fst, run.router.Pending id)
    (hlen : pendingRequests.entries.length ≤ run.router.pendingRequests.entries.length)
    (hpending : ∀ k, pendingRequests.contains k = true ↔
      run.router.Pending k ∧ k ∉ answers.map Prod.fst) :
    let after : Run ρ := { run with router := { run.router with pendingRequests }
                                    answers := run.answers ++ answers }
    Sound generated after ∧ Told run after answers := by
  intro after
  refine ⟨⟨?_,h.numbered,h.next,hlen.trans h.bounded⟩,⟨rfl,hnodup,fun id => ?_⟩⟩
  · rw [map_append]
    exact h.balanced.answer hnodup hin hpending
  · change _ ↔ run.router.Pending id ∧ ¬pendingRequests.contains id = true
    rw [hpending]
    constructor
    · intro hid
      exact ⟨hin id hid,fun hleft => hleft.2 hid⟩
    · rintro ⟨hid,hleft⟩
      by_contra hnot
      exact hleft ⟨hid,hnot⟩

lemma Sound.execute [Inhabited ρ] (h : Sound generated run) (hgen : generated < 2^64) (env : Surroundings)
    (request : CrossMeshExecutionRequest) :
    ∃ generated' ≤ generated+1, Sound generated' (run.next (.execute env request)) ∧
      Told run (run.next (.execute env request)) [] := by
  have hfresh := h.fresh hgen env.idTime
  have hnew : ¬run.router.Pending
      (requestId run.router.localMeshId run.router.nextRequestId env.idTime) :=
    fun hp => hfresh ((h.balanced.pending_iff _).mp hp).1
  obtain ⟨result,pendingRequests,nextRequestId,hcall,hlen,hcases⟩ :=
    executeCrossMesh_cases run.router env request hnew h.bounded
  have hsucc : UInt64.ofNat (generated+1)+1 = UInt64.ofNat (generated+1+1) :=
    (UInt64.ofNat_add (generated+1) 1).symm
  have hlater : ∀ {n}, generated ≤ n → ∀ id ∈ run.issued, ∃ k time, k < n ∧
      id = requestId run.router.localMeshId (UInt64.ofNat (k+1)) time := fun hn id hid => by
    obtain ⟨k,time,hk,heq⟩ := h.numbered id hid
    exact ⟨k,time,by omega,heq⟩
  have hnext : run.next (.execute env request) =
      { run with router := { run.router with pendingRequests, nextRequestId }
                 issued := run.issued ++ result.toOption.toList } := by
    rw [Run.next,hcall]
  rw [hnext]
  rcases hcases with ⟨⟨e,rfl⟩,hpending,hnumber⟩ | ⟨rfl,hnumber,hpending⟩
  · have htold := fun id hid => (hpending id).mpr hid
    have hbalanced := h.balanced.congr hpending
    have hissued : run.issued ++ (Except.error e : Result Bytes).toOption.toList = run.issued :=
      append_nil _
    rw [hissued]
    rcases hnumber with hnumber | hnumber
    · exact ⟨generated,by omega,⟨hbalanced,h.numbered,hnumber.trans h.next,hlen⟩,.nothing rfl htold⟩
    · refine ⟨generated+1,le_refl _,⟨hbalanced,hlater (by omega),?_,hlen⟩,.nothing rfl htold⟩
      exact hnumber.trans (by rw [h.next,hsucc])
  · refine ⟨generated+1,le_refl _,⟨h.balanced.issue hfresh hpending,?_,?_,hlen⟩,
      .nothing rfl fun id hid => (hpending id).mpr (Or.inr hid)⟩
    · intro id hid
      rcases mem_append.mp hid with hid | hid
      · exact hlater (by omega) id hid
      · exact ⟨generated,env.idTime,by omega,by rw [mem_singleton.mp hid,h.next]⟩
    · exact hnumber.trans (by rw [h.next,hsucc])

lemma next_handleResponse [Inhabited ρ] {id : Bytes} (h : run.router.Pending id)
    (response : CrossMeshExecutionResponse ρ) : run.next (.handleResponse id response) =
      { run with router := { run.router with pendingRequests := run.router.pendingRequests.erase id }
                 answers := run.answers ++ [(id,response)] } := by
  have hcall : run.router.handleResponse id response = _ := if_pos h
  rw [Run.next,hcall]

lemma next_handleResponse_unknown [Inhabited ρ] {id : Bytes} (h : ¬run.router.Pending id)
    (response : CrossMeshExecutionResponse ρ) : run.next (.handleResponse id response) = run := by
  have hcall : run.router.handleResponse id response = _ := if_neg h
  rw [Run.next,hcall]
  dsimp only
  rw [append_nil]

lemma Sound.handleResponse [Inhabited ρ] (h : Sound generated run) (id : Bytes)
    (response : CrossMeshExecutionResponse ρ) :
    Sound generated (run.next (.handleResponse id response)) ∧
      ∃ answers, Told run (run.next (.handleResponse id response)) answers := by
  by_cases hid : run.router.Pending id
  · obtain ⟨hsound,htold⟩ := h.answer [(id,response)] (run.router.pendingRequests.erase id)
      (nodup_singleton _)
      (by simpa using hid) (length_erase_le _ _)
      fun k => by rw [contains_erase]; simp
    rw [next_handleResponse hid]
    exact ⟨hsound,_,htold⟩
  · rw [next_handleResponse_unknown hid]
    exact ⟨h,[],.nothing rfl fun _ hk => hk⟩

lemma Sound.tick [Inhabited ρ] (h : Sound generated run) (order : Iteration Bytes) (now : Int64) :
    Sound generated (run.next (.tick order now)) ∧
      ∃ answers, Told run (run.next (.tick order now)) answers := by
  obtain ⟨answers,pendingRequests,hcall,hnodup,hin,hlen,hpending⟩ :=
    tick_cases (ρ := ρ) run.router order now
  have hnext : run.next (.tick order now) =
      { run with router := { run.router with pendingRequests }
                 answers := run.answers ++ answers } := by
    rw [Run.next,hcall]
  obtain ⟨hsound,htold⟩ := h.answer answers pendingRequests hnodup hin hlen hpending
  rw [hnext]
  exact ⟨hsound,answers,htold⟩

lemma Sound.routes (h : Sound generated run) (routes : AssocMap Bytes CrossMeshRouteEntry) :
    let after : Run ρ := { run with router := { run.router with routes } }
    (∃ generated' ≤ generated+0, Sound generated' after) ∧ ∃ answers, Told run after answers :=
  ⟨⟨generated,le_refl _,h.balanced,h.numbered,h.next,h.bounded⟩,[],.nothing rfl fun _ hk => hk⟩

lemma Sound.step [Inhabited ρ] (h : Sound generated run) (hgen : generated < 2^64) (op : Op ρ) :
    (∃ generated' ≤ generated+(if op.isExecute then 1 else 0), Sound generated' (run.next op)) ∧
      ∃ answers, Told run (run.next op) answers := by
  cases op with
  | addRoute route =>
    change (∃ generated' ≤ generated+0, _) ∧ _
    unfold Run.next CrossMeshRouter.addRoute
    dsimp only
    split_ifs
    · exact h.routes run.router.routes
    · exact h.routes _
  | removeRoute mesh =>
    change (∃ generated' ≤ generated+0, _) ∧ _
    unfold Run.next CrossMeshRouter.removeRoute
    dsimp only
    split_ifs
    · exact h.routes _
    · exact h.routes run.router.routes
  | execute env request =>
    obtain ⟨generated',hle,hsound,htold⟩ := h.execute hgen env request
    exact ⟨⟨generated',hle,hsound⟩,[],htold⟩
  | handleResponse id response =>
    obtain ⟨hsound,htold⟩ := h.handleResponse id response
    exact ⟨⟨generated,by simp [Op.isExecute],hsound⟩,htold⟩
  | tick order now =>
    obtain ⟨hsound,htold⟩ := h.tick order now
    exact ⟨⟨generated,by simp [Op.isExecute],hsound⟩,htold⟩

end

lemma sound_run [Inhabited ρ] (mesh : Bytes) (max : ℕ) {ops : List (Op ρ)}
    (h : ops.countP Op.isExecute < 2^64) :
    ∃ generated ≤ ops.countP Op.isExecute, Sound generated (run mesh max ops) := by
  induction ops using reverseRecOn with
  | nil =>
    refine ⟨0,le_refl _,⟨.nil fun k => ?_,by simp [run],rfl,Nat.zero_le _⟩⟩
    simp [Pending,AssocMap.contains,AssocMap.find,AssocMap.empty,AssocMap.findIn,run]
  | append_singleton ops op ih =>
    rw [countP_append,countP_singleton] at h ⊢
    obtain ⟨generated,hle,hsound⟩ := ih (by omega)
    obtain ⟨⟨generated',hle',hsound'⟩,-⟩ := hsound.step (by omega) op
    refine ⟨generated',by omega,?_⟩
    rw [run,foldl_append]
    exact hsound'

structure Exact [Inhabited ρ] (before : Run ρ) (op : Op ρ) : Prop where
  told : ∃ answers, Told before (before.next op) answers
  silent : ∀ id response, op = .handleResponse id response →
    id ∉ before.issued ∨ id ∈ before.answers.map Prod.fst → (before.next op).answers = before.answers
  bounded : (before.next op).router.pendingRequests.entries.length ≤
    (before.next op).router.maxPendingRequests

/-- No id is returned twice or answered twice; every id that leaves the pending requests has its
call of `on_response` and no other id has; and there are never too many pending requests. -/
theorem run_exactly_once [Inhabited ρ] (mesh : Bytes) (max : ℕ) (ops : List (Op ρ))
    (h : ops.countP Op.isExecute < 2^64) :
    (run mesh max ops).issued.Nodup ∧ ((run mesh max ops).answers.map Prod.fst).Nodup ∧
      ∀ before op, before ++ [op] <+: ops → Exact (run mesh max before) op := by
  obtain ⟨generated,-,hsound⟩ := sound_run mesh max h
  refine ⟨hsound.balanced.issued_nodup,hsound.balanced.answered_nodup,fun before op hbegin => ?_⟩
  have hcount := hbegin.sublist.countP_le (p := Op.isExecute)
  rw [countP_append,countP_singleton] at hcount
  have hfew : before.countP Op.isExecute < 2^64 := by omega
  obtain ⟨generated',hle,hbefore⟩ := sound_run mesh max hfew
  obtain ⟨⟨_,-,hafter⟩,htold⟩ := hbefore.step (by omega) op
  refine ⟨htold,?_,hafter.bounded⟩
  rintro id response rfl hunknown
  have hnot : ¬(run mesh max before).router.Pending id := fun hp => by
    obtain ⟨hissued,hanswered⟩ := (hbefore.balanced.pending_iff id).mp hp
    exact hunknown.elim (fun h => h hissued) hanswered
  rw [next_handleResponse_unknown hnot]

def routed : List (Op Unit) :=
  let id := requestId [0x61] 1 0
  [.addRoute { destinationMesh := [0x62] },
    .execute ⟨0,0,fun _ _ _ => .ok ()⟩ { destinationMeshId := [0x62] },
    .handleResponse id { result := () },.handleResponse id { result := () }]

theorem run_exactly_once_routed : routed.countP Op.isExecute = 1 ∧
    ((run [0x61] 1 routed).answers.map Prod.fst).Nodup :=
  ⟨by decide,(run_exactly_once [0x61] 1 routed (by decide)).2.1⟩

end CrossMeshRouter
end SmoFramework.Federation
