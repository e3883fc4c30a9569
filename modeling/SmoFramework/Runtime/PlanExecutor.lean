import SmoFramework.Runtime.Plan

/-! The plan executor (`core/runtime/plan_executor`). The callback may answer anything, so it is a
function of the number of the call; it does not change the context. Every call is recorded with the
context that the callback was given. Clock readings and the actions' effects outside of the context
are left out. -/
namespace SmoFramework.Runtime
open Library Kahn Step AssocMap

inductive StepState
  | pending | ready | running | waitingRetry | compensating | completed | compensated | failed
  | cancelled | skipped | compFault
  deriving DecidableEq, Repr

inductive PlanState
  | resolving | ready | executing | completed | partiallyDone | failed | cancelled | compensating
  | compensated
  deriving DecidableEq, Repr

/-- A stored value is kept as the text that `to_string` gives. -/
inductive NextAction
  | dispatchContract | dispatchMessage
  | scheduleRetry (delayNs maxRetries : UInt64)
  | emitEvent
  | storeContext (key text : String)
  | spawnPlan | notify | compensate
  | abort (reason : String) (triggerCompensation : Bool)
  deriving DecidableEq

structure ContractResult where
  data : String := ""
  nextActions : List NextAction := []

/-- Attempts are few, so the counters need no bound. -/
structure StepStatus where
  state : StepState := .pending
  output : String := ""
  contractResult : ContractResult := {}
  errorMessage : String := ""
  attempt : ℤ := 0
  maxRetries : ℤ := 3
  retryDelayNs : UInt64 := 1000000000

def StepStatus.isRetryable (status : StepStatus) : Bool := status.attempt < status.maxRetries

structure PlanContext where
  planState : PlanState := .resolving
  context : AssocMap String String := empty
  stepStatus : AssocMap String StepStatus := empty
  currentStep : String := ""
  aborted : Bool := false
  abortReason : String := ""

namespace PlanContext

variable (ctx : PlanContext) (id : String)

/-- `ctx.step_status[id]`. -/
def status : StepStatus := (ctx.stepStatus.find id).getD {}

variable (f : StepStatus → StepStatus)

def update : PlanContext :=
  { ctx with stepStatus := ctx.stepStatus.insert id (f (ctx.status id)) }

def setState (state : StepState) : PlanContext :=
  ctx.update id (fun status => { status with state := state })

lemma status_update (id v : String) (f : StepStatus → StepStatus) :
    (ctx.update id f).status v = if v = id then f (ctx.status id) else ctx.status v := by
  unfold update status
  dsimp only
  rw [find_insert]
  split_ifs <;> rfl

@[simp] lemma status_update_self :
    (ctx.update id f).status id = f (ctx.status id) := by
  rw [status_update,if_pos rfl]

lemma status_update_of_ne {id v : String} (f : StepStatus → StepStatus)
    (h : v ≠ id) : (ctx.update id f).status v = ctx.status v := by
  rw [status_update,if_neg h]

end PlanContext

structure StepResult where
  success : Bool := false
  output : ContractResult := {}
  error : RuntimeError := {}

structure PlanResult where
  success : Bool := false
  outputs : AssocMap String String := empty
  error : RuntimeError := {}
  finalActions : List NextAction := []

/-- What the executor does not decide: the answers of the calls, the compensation contracts, and the
order in which hash tables are iterated. -/
structure Surroundings where
  executor : ℕ → Step → PlanContext → StepResult
  compensation : ℕ → String → Option Bool
  order : Iteration String

structure Call where
  step : Step
  ctx : PlanContext
  result : StepResult

structure Exec where
  ctx : PlanContext
  indegree : AssocMap String ℤ
  ready : List String := []
  calls : List Call := []
  compensations : ℕ := 0

def Exec.markReady (s : Exec) (id : String) : Exec :=
  { s with ctx := s.ctx.setState id .ready, ready := s.ready ++ [id] }

namespace ExecutionPlan
variable (plan : ExecutionPlan)

def getStep (id : String) : Step := (plan.steps.find? (fun s => s.stepId = id)).getD {}

/-- One turn of the loop that fills `adj` and `indegree`. -/
def enterStep (tables : AssocMap String (List String) × AssocMap String ℤ) (step : Step) :
    AssocMap String (List String) × AssocMap String ℤ :=
  step.dependsOn.foldl (fun tables dep =>
    (addEdge tables.1 (dep,step.stepId),countEdge tables.2 (dep,step.stepId)))
    (tables.1,tables.2.insert step.stepId 0)

def tables : AssocMap String (List String) × AssocMap String ℤ :=
  plan.steps.foldl enterStep (empty,empty)

end ExecutionPlan

section Model
variable (plan : ExecutionPlan) (out : Surroundings) (s : Exec) (id : String)

def compensateStep : Exec :=
  if (s.ctx.status id).state = .completed then
    match plan.steps.find? (fun step => step.stepId = id ∧ step.compensationId ≠ "") with
    | none => s
    | some step =>
      let state := match out.compensation s.compensations step.compensationId with
        | none | some true => StepState.compensated
        | some false => .compFault
      { s with ctx := s.ctx.setState id state, compensations := s.compensations+1 }
  else s

def triggerCompensation : Exec :=
  (out.order.list s.ctx.stepStatus.entries).foldl (fun s e => compensateStep plan out s e.1) s

def processAction (s : Exec) : NextAction → Exec
  | .scheduleRetry delayNs maxRetries =>
    { s with ctx := s.ctx.update id (fun status => { status with
      state := .waitingRetry
      maxRetries := maxRetries.toUInt32.toInt32.toInt
      retryDelayNs := delayNs }) }
  | .storeContext key text => { s with ctx := { s.ctx with context := s.ctx.context.insert key text } }
  | .abort reason trigger =>
    let s := { s with ctx := { s.ctx with aborted := true, abortReason := reason } }
    if trigger then triggerCompensation plan out s else s
  | .compensate => triggerCompensation plan out s
  | .dispatchContract | .dispatchMessage | .emitEvent | .spawnPlan | .notify => s

variable (ctx : PlanContext)

def startStep (id : String) : PlanContext :=
  { ctx with currentStep := id }.update id (fun status => { status with
    state := .running
    attempt := status.attempt+1 })

def recordOutput (id : String) (step : Step) (output : ContractResult) : PlanContext :=
  let ctx := ctx.update id (fun status => { status with
    state := .completed
    output := output.data
    contractResult := output })
  if step.outputBinding = "" then ctx
  else { ctx with context := ctx.context.insert step.outputBinding output.data }

def completeStep (step : Step) (output : ContractResult) : Exec :=
  output.nextActions.foldl (processAction plan out id)
    { s with ctx := recordOutput s.ctx id step output }

/-- The body of the loop over a batch. An error is a return from `execute`. -/
def executeStep : Except (PlanResult × Exec) Exec :=
  let step := plan.getStep id
  let ctx := startStep s.ctx id
  let res := out.executor s.calls.length step ctx
  let s := { s with ctx := ctx, calls := s.calls ++ [⟨step,ctx,res⟩] }
  if res.success then .ok (completeStep plan out s id step res.output)
  else if (ctx.status id).isRetryable && step.maxRetries > 0 then
    .ok { s with ctx := ctx.setState id .waitingRetry, ready := s.ready ++ [id] }
  else
    let ctx := ctx.update id (fun status => { status with
      state := .failed
      errorMessage := res.error.message })
    if step.optional then .ok { s with ctx := ctx.setState id .skipped }
    else if plan.rollbackPolicy ≠ "BestEffort" then
      let s := triggerCompensation plan out { s with ctx := ctx }
      .error ({ error := .compensation "plan compensated" },
        { s with ctx := { s.ctx with planState := .compensated } })
    else
      .error ({ error := res.error },
        { s with ctx := { ctx with
          aborted := true, abortReason := "step failed: " ++ id, planState := .failed } })

variable (batch : List String)

def executeBatch (s : Exec) : Except (PlanResult × Exec) Exec :=
  batch.foldlM (fun s id => if s.ctx.aborted then .ok s else executeStep plan out s id) s

/-- `if (--indegree[next] == 0)` with its body. -/
def releaseNext (next : String) : Exec :=
  let n := count s.indegree next-1
  let s := { s with indegree := s.indegree.insert next n }
  if n = 0 then s.markReady next else s

def releaseBatch (s : Exec) : Exec :=
  batch.foldl (fun s id => (targets plan.tables.1 id).foldl releaseNext s) s

def turn : Except (PlanResult × Exec) Exec :=
  let size := if plan.mode = .parallel then s.ready.length else 1
  let batch := s.ready.take size
  (executeBatch plan out batch { s with ready := s.ready.drop size }).map (releaseBatch plan batch)

def finish : PlanResult × Exec :=
  if s.ctx.aborted then
    ({ error := .internal ("plan aborted: " ++ s.ctx.abortReason) },
      { s with ctx := { s.ctx with planState := .cancelled } })
  else ({ success := true, outputs := s.ctx.context },
    { s with ctx := { s.ctx with planState := .completed } })

def loop : ℕ → Exec → Option (PlanResult × Exec)
  | 0,_ => none
  | fuel+1,s =>
    if s.ready ≠ [] ∧ s.ctx.aborted = false then
      match turn plan out s with
      | .error r => some r
      | .ok s => loop fuel s
    else some (finish s)

def initial : Exec :=
  let ctx := { ctx with
    planState := .executing
    stepStatus := plan.steps.foldl (fun m step => m.insert step.stepId {}) empty }
  (out.order.list plan.tables.2.entries).foldl (fun s e => if e.2 = 0 then s.markReady e.1 else s)
    { ctx := ctx, indegree := plan.tables.2 }

def execute (fuel : ℕ) (ctx : PlanContext) : Option (PlanResult × Exec) :=
  loop plan out fuel (initial plan out ctx)

end Model

/-! What the parts do. -/

section Spec
variable {plan : ExecutionPlan} {out : Surroundings}

/-- Compensation and abort change nothing in the run but the states of steps. -/
structure OnlyStates (s t : Exec) : Prop where
  calls : t.calls = s.calls
  ready : t.ready = s.ready
  indegree : t.indegree = s.indegree
  aborted : s.ctx.aborted = true → t.ctx.aborted = true
  status : ∀ v, ∃ state, t.ctx.status v = { s.ctx.status v with state := state }

variable {s : Exec}

lemma OnlyStates.trans (h : OnlyStates s t) (h' : OnlyStates t u) : OnlyStates s u where
  calls := h'.calls.trans h.calls
  ready := h'.ready.trans h.ready
  indegree := h'.indegree.trans h.indegree
  aborted hs := h'.aborted (h.aborted hs)
  status v := by
    obtain ⟨x,hx⟩ := h.status v
    obtain ⟨y,hy⟩ := h'.status v
    exact ⟨y,by rw [hy,hx]⟩

lemma OnlyStates.refl (s : Exec) : OnlyStates s s := ⟨rfl,rfl,rfl,id,fun _ => ⟨_,rfl⟩⟩

lemma compensateStep_onlyStates (s : Exec) (id : String) :
    OnlyStates s (compensateStep plan out s id) := by
  unfold compensateStep
  split_ifs
  · split
    · exact .refl s
    · refine ⟨rfl,rfl,rfl,fun h => h,fun v => ?_⟩
      dsimp only
      rw [PlanContext.setState,PlanContext.status_update]
      split_ifs with hv
      · exact ⟨_,by rw [hv]⟩
      · exact ⟨_,rfl⟩
  · exact .refl s

lemma triggerCompensation_onlyStates (plan : ExecutionPlan) (out : Surroundings) (s : Exec) :
    OnlyStates s (triggerCompensation plan out s) := by
  unfold triggerCompensation
  generalize out.order.list s.ctx.stepStatus.entries = entries
  induction entries generalizing s with
  | nil => exact .refl s
  | cons e entries ih => exact (compensateStep_onlyStates s e.1).trans (ih _)

/-- An abort ends the run, so what it does to other steps does not matter; a compensation does, and
so does a retry. -/
structure Acts (id : String) (actions : List NextAction) (s t : Exec) : Prop where
  calls : t.calls = s.calls
  ready : t.ready = s.ready
  indegree : t.indegree = s.indegree
  aborted : s.ctx.aborted = true → t.ctx.aborted = true
  attempt : ∀ v, (t.ctx.status v).attempt = (s.ctx.status v).attempt
  maxRetries : ∀ v ≠ id, (t.ctx.status v).maxRetries = (s.ctx.status v).maxRetries
  others : t.ctx.aborted = false → .compensate ∉ actions → ∀ v ≠ id, t.ctx.status v = s.ctx.status v
  own : t.ctx.aborted = false → .compensate ∉ actions →
    (∀ delay max, .scheduleRetry delay max ∉ actions) → t.ctx.status id = s.ctx.status id

lemma Acts.refl (id : String) (s : Exec) : Acts id [] s s :=
  ⟨rfl,rfl,rfl,fun h => h,fun _ => rfl,fun _ _ => rfl,fun _ _ _ _ => rfl,fun _ _ _ => rfl⟩

variable {id : String}

lemma Acts.cons (h : Acts id [a] s t)
    (h' : Acts id actions t u) : Acts id (a::actions) s u := by
  have hback : u.ctx.aborted = false → t.ctx.aborted = false := fun hu =>
    Bool.eq_false_iff.mpr fun ht => by simp [h'.aborted ht] at hu
  refine ⟨h'.calls.trans h.calls,h'.ready.trans h.ready,h'.indegree.trans h.indegree,
    fun hs => h'.aborted (h.aborted hs),fun v => (h'.attempt v).trans (h.attempt v),
    fun v hv => (h'.maxRetries v hv).trans (h.maxRetries v hv),?_,?_⟩
  · intro hu hno v hv
    rw [List.mem_cons,not_or] at hno
    rw [h'.others hu hno.2 v hv,h.others (hback hu) (by simpa using hno.1) v hv]
  · intro hu hno hsched
    rw [List.mem_cons,not_or] at hno
    rw [h'.own hu hno.2 fun d m hm => hsched d m (List.mem_cons_of_mem _ hm),
      h.own (hback hu) (by simpa using hno.1) fun d m hm =>
        hsched d m (List.mem_singleton.mp hm ▸ List.mem_cons_self)]

lemma Acts.of_onlyStates (h : OnlyStates s t)
    (hexcuse : t.ctx.aborted = true ∨ a = .compensate) : Acts id [a] s t := by
  have hattempt : ∀ v, (t.ctx.status v).attempt = (s.ctx.status v).attempt ∧
      (t.ctx.status v).maxRetries = (s.ctx.status v).maxRetries := by
    intro v
    obtain ⟨x,hx⟩ := h.status v
    rw [hx]
    exact ⟨rfl,rfl⟩
  have hno : t.ctx.aborted = false → .compensate ∉ [a] → False := by
    rintro ht hmem
    rcases hexcuse with hexcuse | rfl
    · simp [hexcuse] at ht
    · simp at hmem
  exact ⟨h.calls,h.ready,h.indegree,h.aborted,fun v => (hattempt v).1,
    fun v _ => (hattempt v).2,fun ht hmem => (hno ht hmem).elim,fun ht hmem => (hno ht hmem).elim⟩

lemma processAction_acts (id : String) (s : Exec) (a : NextAction) :
    Acts id [a] s (processAction plan out id s a) := by
  have hnone : Acts id [a] s s :=
    ⟨rfl,rfl,rfl,fun h => h,fun _ => rfl,fun _ _ => rfl,fun _ _ _ _ => rfl,fun _ _ _ => rfl⟩
  cases a with
  | scheduleRetry delayNs maxRetries =>
    unfold processAction
    refine ⟨rfl,rfl,rfl,fun h => h,fun v => ?_,fun v hv => ?_,fun _ _ v hv => ?_,fun _ _ hno => ?_⟩
    · dsimp only
      rw [PlanContext.status_update]
      split_ifs with hv
      · rw [hv]
      · rfl
    · exact congrArg StepStatus.maxRetries (PlanContext.status_update_of_ne _ _ hv)
    · exact PlanContext.status_update_of_ne _ _ hv
    · exact absurd (List.mem_singleton_self _) (hno delayNs maxRetries)
  | storeContext key text =>
    exact ⟨rfl,rfl,rfl,fun h => h,fun _ => rfl,fun _ _ => rfl,fun _ _ _ _ => rfl,fun _ _ _ => rfl⟩
  | abort reason trigger =>
    have hset : OnlyStates s { s with ctx := { s.ctx with aborted := true, abortReason := reason } } :=
      ⟨rfl,rfl,rfl,fun _ => rfl,fun _ => ⟨_,rfl⟩⟩
    unfold processAction
    dsimp only
    split_ifs
    · have htrigger := triggerCompensation_onlyStates plan out
        { s with ctx := { s.ctx with aborted := true, abortReason := reason } }
      exact .of_onlyStates (hset.trans htrigger) (.inl (htrigger.aborted rfl))
    · exact .of_onlyStates hset (.inl rfl)
  | compensate => exact .of_onlyStates (triggerCompensation_onlyStates plan out s) (.inr rfl)
  | _ => exact hnone

lemma foldl_processAction_acts (plan : ExecutionPlan) (out : Surroundings) (id : String)
    (actions : List NextAction) (s : Exec) :
    Acts id actions s (actions.foldl (processAction plan out id) s) := by
  induction actions generalizing s with
  | nil => exact .refl id s
  | cons a actions ih => exact (processAction_acts id s a).cons (ih _)

/-- The call that `executeStep` makes. -/
def callOf (plan : ExecutionPlan) (out : Surroundings) (s : Exec) (id : String) : Call :=
  ⟨plan.getStep id,startStep s.ctx id,
    out.executor s.calls.length (plan.getStep id) (startStep s.ctx id)⟩

def Call.retried (c : Call) : Bool :=
  !c.result.success && (c.ctx.status c.step.stepId).isRetryable && c.step.maxRetries > 0

def Call.Quiet (c : Call) : Prop :=
  c.result.success = true → .compensate ∉ c.result.output.nextActions

def Call.Final (c : Call) : Prop :=
  c.result.success = true → ∀ delay max, .scheduleRetry delay max ∉ c.result.output.nextActions

/-- The state after a call from which `execute` does not return. -/
structure After (id : String) (c : Call) (s t : Exec) : Prop where
  calls : t.calls = s.calls ++ [c]
  ready : t.ready = if c.retried then s.ready ++ [id] else s.ready
  indegree : t.indegree = s.indegree
  attempt : ∀ v, (t.ctx.status v).attempt = (c.ctx.status v).attempt
  maxRetries : ∀ v, v ≠ id ∨ c.retried = true →
    (t.ctx.status v).maxRetries = (s.ctx.status v).maxRetries
  settled : c.retried = false → c.result.success = true ∨ c.step.optional = true
  others : t.ctx.aborted = false → c.Quiet → ∀ v ≠ id, t.ctx.status v = s.ctx.status v
  own : t.ctx.aborted = false → c.Quiet → c.Final → c.retried = false →
    (t.ctx.status id).state = if c.result.success then .completed else .skipped

lemma getStep_spec (h : id ∈ plan.stepIds) :
    plan.getStep id ∈ plan.steps ∧ (plan.getStep id).stepId = id := by
  obtain ⟨step,hstep,rfl⟩ := List.mem_map.mp h
  unfold ExecutionPlan.getStep
  cases hfind : plan.steps.find? (fun s => s.stepId = step.stepId) with
  | none => simpa using List.find?_eq_none.mp hfind step hstep
  | some found => exact ⟨List.mem_of_find?_eq_some hfind,by simpa using List.find?_some hfind⟩

lemma getStep_stepId (h : id ∈ plan.stepIds) : (plan.getStep id).stepId = id :=
  (getStep_spec h).2

variable (ctx : PlanContext)

lemma startStep_status_of_ne {v : String} (h : v ≠ id) :
    (startStep ctx id).status v = ctx.status v := PlanContext.status_update_of_ne _ _ h

lemma startStep_status_self (id : String) :
    (startStep ctx id).status id = { ctx.status id with
      state := .running, attempt := (ctx.status id).attempt+1 } := PlanContext.status_update_self _ _ _

lemma startStep_maxRetries (id v : String) :
    ((startStep ctx id).status v).maxRetries = (ctx.status v).maxRetries := by
  by_cases hv : v = id
  · rw [hv,startStep_status_self]
  · rw [startStep_status_of_ne _ hv]

lemma recordOutput_status (id : String) (step : Step) (output : ContractResult)
    (v : String) : (recordOutput ctx id step output).status v = if v = id then
      { ctx.status id with state := .completed, output := output.data, contractResult := output }
      else ctx.status v := by
  unfold recordOutput
  dsimp only
  have hupdate := PlanContext.status_update ctx id v (fun status => { status with
    state := .completed, output := output.data, contractResult := output })
  by_cases hbinding : step.outputBinding = ""
  · rw [if_pos hbinding]
    exact hupdate
  · rw [if_neg hbinding]
    exact hupdate

lemma completeStep_after (hctx : c.ctx = startStep s.ctx id)
    (hsuccess : c.result.success = true) :
    After id c s (completeStep plan out { s with ctx := c.ctx, calls := s.calls ++ [c] } id c.step
      c.result.output) := by
  have hretried : c.retried = false := by simp [Call.retried,hsuccess]
  have hacts := foldl_processAction_acts plan out id c.result.output.nextActions
    { s with ctx := recordOutput c.ctx id c.step c.result.output, calls := s.calls ++ [c] }
  have hother : ∀ v ≠ id,
      (recordOutput c.ctx id c.step c.result.output).status v = s.ctx.status v := by
    intro v hv
    rw [recordOutput_status,if_neg hv,hctx,startStep_status_of_ne _ hv]
  refine ⟨hacts.calls,?_,hacts.indegree,fun v => ?_,fun v hv => ?_,fun _ => .inl hsuccess,?_,?_⟩
  · rw [hretried]
    exact hacts.ready
  · refine (hacts.attempt v).trans ?_
    dsimp only
    rw [recordOutput_status]
    split_ifs with hv
    · rw [hv]
    · rfl
  · obtain hv | hr := hv
    · exact (hacts.maxRetries v hv).trans (congrArg StepStatus.maxRetries (hother v hv))
    · rw [hretried] at hr
      cases hr
  · intro ht hquiet v hv
    exact (hacts.others ht (hquiet hsuccess) v hv).trans (hother v hv)
  · intro ht hquiet hfinal _
    refine (congrArg StepStatus.state (hacts.own ht (hquiet hsuccess) (hfinal hsuccess))).trans ?_
    dsimp only
    rw [recordOutput_status,if_pos rfl,if_pos hsuccess]

variable {ctx}

lemma After.of_failed {ready : List String}
    (hctx : c.ctx = startStep s.ctx id) (hfailed : c.result.success = false)
    (hready : ready = if c.retried then s.ready ++ [id] else s.ready)
    (hothers : ∀ v ≠ id, ctx.status v = c.ctx.status v)
    (hattempt : (ctx.status id).attempt = (c.ctx.status id).attempt)
    (hmax : (ctx.status id).maxRetries = (c.ctx.status id).maxRetries)
    (hskipped : c.retried = false → c.step.optional = true ∧ (ctx.status id).state = .skipped) :
    After id c s { s with ctx := ctx, ready := ready, calls := s.calls ++ [c] } where
  calls := rfl
  ready := hready
  indegree := rfl
  attempt v := by
    by_cases hv : v = id
    · rw [hv]
      exact hattempt
    · exact congrArg StepStatus.attempt (hothers v hv)
  maxRetries v _ := by
    rw [← startStep_maxRetries s.ctx id v,← hctx]
    by_cases hv : v = id
    · rw [hv]
      exact hmax
    · exact congrArg StepStatus.maxRetries (hothers v hv)
  settled hr := .inr (hskipped hr).1
  others _ _ v hv := by
    rw [← startStep_status_of_ne s.ctx hv,← hctx]
    exact hothers v hv
  own _ _ _ hr := by
    rw [if_neg (by simp [hfailed])]
    exact (hskipped hr).2

lemma executeStep_cases (out : Surroundings) (s : Exec) (hid : id ∈ plan.stepIds) :
    (∃ r t, executeStep plan out s id = .error (r,t) ∧ r.success = false ∧
      t.calls = s.calls ++ [callOf plan out s id] ∧ (callOf plan out s id).result.success = false ∧
      (callOf plan out s id).retried = false) ∨
    ∃ t, executeStep plan out s id = .ok t ∧ After id (callOf plan out s id) s t := by
  generalize hc : callOf plan out s id = c
  have hstep : c.step = plan.getStep id := hc ▸ rfl
  have hctx : c.ctx = startStep s.ctx id := hc ▸ rfl
  have hres : c.result = out.executor s.calls.length (plan.getStep id) (startStep s.ctx id) := hc ▸ rfl
  have hname : c.step.stepId = id := hstep ▸ getStep_stepId hid
  have heta : (⟨c.step,c.ctx,c.result⟩ : Call) = c := rfl
  unfold executeStep
  dsimp only
  rw [← hres,← hctx,← hstep,heta]
  by_cases hsuccess : c.result.success = true
  · rw [if_pos hsuccess]
    exact .inr ⟨_,rfl,completeStep_after hctx hsuccess⟩
  rw [if_neg hsuccess]
  have hfailed : c.result.success = false := Bool.eq_false_iff.mpr hsuccess
  have hretried : c.retried =
      ((c.ctx.status id).isRetryable && decide (c.step.maxRetries > 0)) := by
    rw [Call.retried,hname,hfailed,Bool.not_false,Bool.true_and]
  rw [← hretried]
  by_cases hretry : c.retried = true
  · rw [if_pos hretry]
    refine .inr ⟨_,rfl,.of_failed hctx hfailed (if_pos hretry).symm
      (fun v hv => PlanContext.status_update_of_ne _ _ hv) ?_ ?_ fun hr => ?_⟩
    · simp [PlanContext.setState]
    · simp [PlanContext.setState]
    · rw [hretry] at hr
      cases hr
  rw [if_neg hretry]
  by_cases hoptional : c.step.optional = true
  · rw [if_pos hoptional]
    refine .inr ⟨_,rfl,.of_failed hctx hfailed (if_neg hretry).symm (fun v hv => ?_) ?_ ?_
      fun _ => ⟨hoptional,?_⟩⟩
    · exact (PlanContext.status_update_of_ne _ _ hv).trans (PlanContext.status_update_of_ne _ _ hv)
    · simp [PlanContext.setState]
    · simp [PlanContext.setState]
    · simp [PlanContext.setState]
  rw [if_neg hoptional]
  refine .inl ?_
  split_ifs
  · exact ⟨_,_,rfl,rfl,(triggerCompensation_onlyStates plan out _).calls,hfailed,by simpa using hretry⟩
  · exact ⟨_,_,rfl,rfl,rfl,hfailed,by simpa using hretry⟩

end Spec

/-! The tables. -/

namespace ExecutionPlan

lemma enterStep_eq (tables : AssocMap String (List String) × AssocMap String ℤ) (step : Step) :
    enterStep tables step =
      ((edgesOf stepId dependsOn [step]).foldl addEdge tables.1,
        (edgesOf stepId dependsOn [step]).foldl countEdge
          (tables.2.insert step.stepId 0)) := by
  unfold enterStep edgesOf
  rw [List.flatMap_singleton,List.foldl_map,List.foldl_map]
  generalize tables.2.insert step.stepId 0 = degree
  generalize tables.1 = adj
  induction step.dependsOn generalizing adj degree with
  | nil => rfl
  | cons dep deps ih => exact ih _ _

lemma edgesOf_cons (step : Step) (steps : List Step) :
    edgesOf stepId dependsOn (step::steps) =
      edgesOf stepId dependsOn [step] ++
        edgesOf stepId dependsOn steps := by
  simp [edgesOf]

variable (steps : List Step)

lemma foldl_enterStep_fst (tables : AssocMap String (List String) × AssocMap String ℤ) :
    (steps.foldl enterStep tables).1 =
      (edgesOf stepId dependsOn steps).foldl addEdge tables.1 := by
  induction steps generalizing tables with
  | nil => rfl
  | cons step steps ih => rw [List.foldl_cons,ih,enterStep_eq,edgesOf_cons step steps,List.foldl_append]

lemma inDegree_singleton (step : Step) (v : String) (h : v ≠ step.stepId) :
    inDegree (edgesOf stepId dependsOn [step]) v = 0 := by
  unfold inDegree
  rw [List.countP_eq_zero]
  rintro ⟨dep,id⟩ he
  obtain ⟨s,hs,rfl,-⟩ := mem_edgesOf.mp he
  obtain rfl := List.mem_singleton.mp hs
  simpa using Ne.symm h

lemma count_foldl_enterStep (hnodup : (steps.map stepId).Nodup)
    (tables : AssocMap String (List String) × AssocMap String ℤ)
    (hzero : ∀ step ∈ steps, count tables.2 step.stepId = 0) (v : String) :
    count (steps.foldl enterStep tables).2 v = count tables.2 v+
      inDegree (edgesOf stepId dependsOn steps) v := by
  induction steps generalizing tables with
  | nil => simp [edgesOf,inDegree]
  | cons step steps ih =>
    rw [List.map_cons,List.nodup_cons] at hnodup
    obtain ⟨hfirst,hrest⟩ := List.forall_mem_cons.mp hzero
    have hcount : ∀ w, count (enterStep tables step).2 w = count tables.2 w+
        inDegree (edgesOf stepId dependsOn [step]) w := by
      intro w
      rw [enterStep_eq,count_foldl_countEdge,count_insert]
      split_ifs with hw
      · rw [hw,hfirst]
      · rfl
    have hstill : ∀ later ∈ steps, count (enterStep tables step).2 later.stepId = 0 := by
      intro later hlater
      have hne : later.stepId ≠ step.stepId := fun heq =>
        hnodup.1 (heq ▸ List.mem_map_of_mem hlater)
      rw [hcount,hrest later hlater,inDegree_singleton step _ hne]
      rfl
    rw [List.foldl_cons,ih hnodup.2 _ hstill,hcount,edgesOf_cons step steps,inDegree,
      inDegree,inDegree,List.countP_append]
    push_cast
    rw [Int.add_assoc]

lemma mem_keys_foldl_enterStep (tables : AssocMap String (List String) × AssocMap String ℤ) (v : String) :
    v ∈ (steps.foldl enterStep tables).2.keys ↔ v ∈ tables.2.keys ∨ v ∈ steps.map stepId := by
  induction steps generalizing tables with
  | nil => simp
  | cons step steps ih =>
    rw [List.foldl_cons,ih,enterStep_eq,mem_keys_foldl_countEdge,mem_keys_insert,
      List.map_cons,List.mem_cons]
    have htarget : (∃ u, (u,v) ∈ edgesOf stepId dependsOn [step]) →
        v = step.stepId := by
      rintro ⟨u,hu⟩
      obtain ⟨s,hs,rfl,-⟩ := mem_edgesOf.mp hu
      rw [List.mem_singleton.mp hs]
    tauto

variable {plan : ExecutionPlan}

lemma count_targets_tables (u v : String) :
    (targets plan.tables.1 u).count v = plan.edges.count (u,v) := by
  rw [tables,foldl_enterStep_fst]
  exact count_targets_adjacency u v

lemma count_tables (h : plan.stepIds.Nodup) (v : String) :
    count plan.tables.2 v = inDegree plan.edges v := by
  rw [tables,count_foldl_enterStep plan.steps h _ fun _ _ => rfl]
  exact Int.zero_add _

lemma mem_keys_tables (v : String) : v ∈ plan.tables.2.keys ↔ v ∈ plan.stepIds := by
  rw [tables,mem_keys_foldl_enterStep]
  exact or_iff_right (by simp [keys,empty])

end ExecutionPlan

end SmoFramework.Runtime
