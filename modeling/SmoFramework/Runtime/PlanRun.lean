import Mathlib.Algebra.Order.BigOperators.Group.Finset
import SmoFramework.Runtime.PlanExecutor

/-! Whole runs of the plan executor. Every step that was ever made ready is at any time in the queue,
in the part of the batch that is still to run, or settled by its last call; a step is called at most
three times, so a run ends. -/
namespace SmoFramework.Runtime
open Library List ExecutionPlan Kahn

/-! The record of calls. -/

variable (calls : List Call)

def lastCall (id : String) : Option Call :=
  (calls.filter (fun c => c.step.stepId = id)).getLast?

def callCount (id : String) : ℕ :=
  (calls.map (fun c => c.step.stepId)).count id

lemma lastCall_append (c : Call) (id : String) :
    lastCall (calls ++ [c]) id = if c.step.stepId = id then some c else lastCall calls id := by
  unfold lastCall
  rw [filter_append]
  by_cases h : c.step.stepId = id
  · simp [h]
  · simp [h]

lemma callCount_append (c : Call) (id : String) :
    callCount (calls ++ [c]) id = callCount calls id+(if c.step.stepId = id then 1 else 0) := by
  unfold callCount
  rw [map_append,count_append,map_singleton,count_singleton]
  simp

variable {calls}

lemma length_calls_le {ids : List String}
    (hids : ∀ c ∈ calls, c.step.stepId ∈ ids) (hcount : ∀ id, callCount calls id ≤ n) :
    calls.length ≤ n*ids.length := by
  let names := calls.map (fun c => c.step.stepId)
  calc calls.length = names.length := (length_map _).symm
    _ = ∑ id ∈ names.toFinset, names.count id := (sum_toFinset_count_eq_length names).symm
    _ ≤ ∑ _ ∈ names.toFinset, n := Finset.sum_le_sum fun id _ => hcount id
    _ = n*names.toFinset.card := by rw [Finset.sum_const_nat fun _ _ => rfl,Nat.mul_comm]
    _ ≤ n*ids.length := by
      refine Nat.mul_le_mul_left n ((Finset.card_le_card ?_).trans ids.toFinset_card_le)
      intro id hid
      obtain ⟨c,hc,rfl⟩ := mem_map.mp (mem_toFinset.mp hid)
      exact mem_toFinset.mpr (hids c hc)

section Run
variable {plan : ExecutionPlan} {out : Surroundings}

def Settled (plan : ExecutionPlan) (calls : List Call) (id : String) : Prop :=
  ∃ c, lastCall calls id = some c ∧ c.step = plan.getStep id ∧
    (c.result.success = true ∨ c.step.optional = true)

/-- A step that can still be called: its attempts are its calls, and there are calls left. -/
structure Live (s : Exec) (id : String) : Prop where
  attempt : (s.ctx.status id).attempt = callCount s.calls id
  maxRetries : (s.ctx.status id).maxRetries = 3
  left : callCount s.calls id < 3

/-- Within a batch, `done` has been run and `todo` has not; `handed` were ever made ready, and the
counters have been lowered for `released`. -/
structure Inv (plan : ExecutionPlan) (s : Exec) (handed released done todo : List String) :
    Prop where
  tracks : Kahn.Tracks plan.edges plan.stepIds s.indegree handed released
  subset : ∀ id ∈ released ++ done, id ∈ handed
  queued : ∀ id ∈ todo ++ s.ready, id ∈ handed
  nodup : (todo ++ s.ready).Nodup
  settled : ∀ id ∈ handed, id ∉ todo ++ s.ready → id ∈ released ++ done ∧ Settled plan s.calls id
  live : ∀ id ∈ plan.stepIds, id ∈ todo ++ s.ready ∨ id ∉ handed → Live s id
  steps : ∀ c ∈ s.calls, c.step.stepId ∈ plan.stepIds
  count : ∀ id, callCount s.calls id ≤ 3

variable {s t : Exec} {handed released done todo : List String} {id : String}

variable {v : String}

lemma Inv.handed_subset (h : Inv plan s handed released done todo) (hv : v ∈ handed) :
    v ∈ plan.stepIds := ((h.tracks.mem_handed_iff v).mp hv).1

lemma callOf_stepId (out : Surroundings) (s : Exec) (hid : id ∈ plan.stepIds) :
    (callOf plan out s id).step.stepId = id := getStep_stepId hid

lemma After.lastCall_eq (hafter : After id (callOf plan out s id) s t) (hid : id ∈ plan.stepIds)
    (v : String) :
    lastCall t.calls v = if id = v then some (callOf plan out s id) else lastCall s.calls v := by
  rw [hafter.calls,lastCall_append,callOf_stepId out s hid]

lemma After.callCount_eq (hafter : After id (callOf plan out s id) s t) (hid : id ∈ plan.stepIds)
    (v : String) : callCount t.calls v = callCount s.calls v+(if id = v then 1 else 0) := by
  rw [hafter.calls,callCount_append,callOf_stepId out s hid]

lemma After.mem_queue (hafter : After id (callOf plan out s id) s t) (v : String) :
    v ∈ todo ++ t.ready ↔ v ∈ todo ++ s.ready ∨ v = id ∧ (callOf plan out s id).retried = true := by
  rw [hafter.ready]
  split_ifs with hretried
  · simp [hretried,or_assoc]
  · simp [hretried]

lemma callOf_attempt (hlive : Live s id) :
    ((callOf plan out s id).ctx.status id).attempt = callCount s.calls id+1 := by
  rw [callOf,startStep_status_self]
  dsimp only
  rw [hlive.attempt]

lemma callOf_maxRetries (hlive : Live s id) :
    ((callOf plan out s id).ctx.status id).maxRetries = 3 := by
  rw [callOf,startStep_maxRetries,hlive.maxRetries]

lemma Live.of_retried (hid : id ∈ plan.stepIds) (hlive : Live s id)
    (hafter : After id (callOf plan out s id) s t) (hretried : (callOf plan out s id).retried = true) :
    Live t id := by
  have hattempt : ((callOf plan out s id).ctx.status id).attempt = callCount s.calls id+1 :=
    callOf_attempt hlive
  have hcount : callCount t.calls id = callCount s.calls id+1 := by
    rw [hafter.callCount_eq hid,if_pos rfl]
  have hmax : (t.ctx.status id).maxRetries = 3 :=
    (hafter.maxRetries id (.inr hretried)).trans hlive.maxRetries
  refine ⟨?_,hmax,?_⟩
  · rw [hafter.attempt,hattempt,hcount]
    push_cast
    rfl
  · have hretry : ((callOf plan out s id).ctx.status id).isRetryable = true := by
      rw [Call.retried,callOf_stepId out s hid] at hretried
      simp only [Bool.and_eq_true] at hretried
      exact hretried.1.2
    have hlt : ((callOf plan out s id).ctx.status id).attempt <
        ((callOf plan out s id).ctx.status id).maxRetries := of_decide_eq_true hretry
    rw [hattempt,callOf_maxRetries hlive] at hlt
    omega

lemma Live.of_ne (hid : id ∈ plan.stepIds) (hv : v ≠ id) (hlive : Live s v)
    (hafter : After id (callOf plan out s id) s t) : Live t v := by
  have hcount : callCount t.calls v = callCount s.calls v := by
    rw [hafter.callCount_eq hid,if_neg (Ne.symm hv)]
    rfl
  refine ⟨?_,(hafter.maxRetries v (.inl hv)).trans hlive.maxRetries,hcount ▸ hlive.left⟩
  rw [hafter.attempt,callOf,startStep_status_of_ne _ hv,hlive.attempt,hcount]

lemma Inv.settled_call (h : Inv plan s handed released done (id::todo))
    (hafter : After id (callOf plan out s id) s t) (hid : id ∈ plan.stepIds) (hv : v ∈ handed)
    (haway : v ∉ todo ++ t.ready) : v ∈ released ++ (done ++ [id]) ∧ Settled plan t.calls v := by
  rw [hafter.mem_queue,not_or] at haway
  by_cases heq : v = id
  · subst heq
    have hretried : (callOf plan out s v).retried = false :=
      Bool.eq_false_iff.mpr fun hr => haway.2 ⟨rfl,hr⟩
    exact ⟨by simp,_,by rw [hafter.lastCall_eq hid,if_pos rfl],rfl,hafter.settled hretried⟩
  · obtain ⟨hmem,hsettled⟩ := h.settled v hv (by simpa [heq] using haway.1)
    refine ⟨by rw [← append_assoc]; exact mem_append_left _ hmem,?_⟩
    rwa [Settled,hafter.lastCall_eq hid,if_neg (Ne.symm heq)]

lemma Inv.live_call (h : Inv plan s handed released done (id::todo))
    (hafter : After id (callOf plan out s id) s t) (hhanded : id ∈ handed) (hv : v ∈ plan.stepIds)
    (hcase : v ∈ todo ++ t.ready ∨ v ∉ handed) : Live t v := by
  rw [hafter.mem_queue] at hcase
  have hid := h.handed_subset hhanded
  by_cases heq : v = id
  · subst heq
    have hretried : (callOf plan out s v).retried = true := by
      rcases hcase with (hcase | ⟨-,hr⟩) | hcase
      · exact absurd hcase (nodup_cons.mp h.nodup).1
      · exact hr
      · exact absurd hhanded hcase
    exact (h.live v hv (.inl (by simp))).of_retried hid hafter hretried
  · refine (h.live v hv (hcase.imp_left fun hmem => ?_)).of_ne hid heq hafter
    exact mem_cons_of_mem _ (hmem.resolve_right fun hmem => heq hmem.1)

lemma Inv.call (h : Inv plan s handed released done (id::todo))
    (hafter : After id (callOf plan out s id) s t) :
    Inv plan t handed released (done ++ [id]) todo := by
  have hhanded : id ∈ handed := h.queued id (by simp)
  have hid := h.handed_subset hhanded
  obtain ⟨hnot,hnodup⟩ := nodup_cons.mp h.nodup
  refine ⟨hafter.indegree ▸ h.tracks,?_,?_,?_,fun v hv => h.settled_call hafter hid hv,
    fun v hv => h.live_call hafter hhanded hv,?_,?_⟩
  · intro v hv
    rw [← append_assoc] at hv
    rcases mem_append.mp hv with hv | hv
    · exact h.subset v hv
    · exact mem_singleton.mp hv ▸ hhanded
  · intro v hv
    rcases (hafter.mem_queue v).mp hv with hv | ⟨rfl,-⟩
    · exact h.queued v (mem_cons_of_mem _ hv)
    · exact hhanded
  · rw [hafter.ready]
    split_ifs
    · rw [← append_assoc]
      exact nodup_append.mpr ⟨hnodup,nodup_singleton _,fun a ha b hb =>
        mem_singleton.mp hb ▸ fun heq => hnot (heq ▸ ha)⟩
    · exact hnodup
  · intro c hc
    rw [hafter.calls] at hc
    rcases mem_append.mp hc with hc | hc
    · exact h.steps c hc
    · rw [mem_singleton.mp hc,callOf_stepId out s hid]
      exact hid
  · intro v
    rw [hafter.callCount_eq hid]
    split_ifs with heq
    · subst heq
      exact (h.live id hid (.inl (by simp))).left
    · exact h.count v

/-- Some steps have become ready and nothing else has happened, the counters apart. -/
structure Readied (new : List String) (s t : Exec) : Prop where
  calls : t.calls = s.calls
  aborted : t.ctx.aborted = s.ctx.aborted
  ready : t.ready = s.ready ++ new
  status : ∀ v, ∃ state, t.ctx.status v = { s.ctx.status v with state := state }
  others : ∀ v ∉ new, t.ctx.status v = s.ctx.status v

lemma Readied.refl (s : Exec) (indegree : AssocMap String ℤ) :
    Readied [] s { s with indegree := indegree } :=
  ⟨rfl,rfl,(append_nil _).symm,fun _ => ⟨_,rfl⟩,fun _ _ => rfl⟩

variable {new : List String}

lemma Readied.markReady (h : Readied new s t) (id : String) :
    Readied (new ++ [id]) s (t.markReady id) where
  calls := h.calls
  aborted := h.aborted
  ready := by
    rw [← append_assoc,← h.ready]
    rfl
  status v := by
    obtain ⟨x,hx⟩ := h.status v
    unfold Exec.markReady PlanContext.setState
    dsimp only
    rw [PlanContext.status_update]
    split_ifs with hv
    · exact ⟨.ready,by rw [← hv,hx]⟩
    · exact ⟨x,hx⟩
  others v hv := by
    rw [mem_append,not_or] at hv
    rw [← h.others v hv.1]
    exact PlanContext.status_update_of_ne _ _ (by simpa using hv.2)

lemma foldl_releaseNext (next : List String) (h : Readied new s t) :
    ∃ new', Readied new' s (next.foldl releaseNext t) ∧
      ((next.foldl releaseNext t).indegree,(next.foldl releaseNext t).ready) =
        next.foldl Kahn.release (t.indegree,t.ready) := by
  induction next generalizing t new with
  | nil => exact ⟨new,h,rfl⟩
  | cons v next ih =>
    have hstep : ∃ new', Readied new' s (releaseNext t v) := by
      unfold releaseNext
      dsimp only
      have hcounter : Readied new s
          { t with indegree := t.indegree.insert v (count t.indegree v-1) } :=
        ⟨h.calls,h.aborted,h.ready,h.status,h.others⟩
      split_ifs
      · exact ⟨_,hcounter.markReady v⟩
      · exact ⟨_,hcounter⟩
    have hpair : ((releaseNext t v).indegree,(releaseNext t v).ready) =
        release (t.indegree,t.ready) v := by
      unfold releaseNext release
      dsimp only
      split_ifs <;> rfl
    obtain ⟨new₁,h₁⟩ := hstep
    obtain ⟨new₂,h₂,heq⟩ := ih h₁
    exact ⟨new₂,h₂,by rw [foldl_cons,foldl_cons,heq,hpair]⟩

lemma releaseBatch_readied (plan : ExecutionPlan) (batch : List String) (h : Readied new s t) :
    ∃ new', Readied new' s (releaseBatch plan batch t) := by
  induction batch generalizing t new with
  | nil => exact ⟨new,h⟩
  | cons id batch ih =>
    obtain ⟨new',h',-⟩ := foldl_releaseNext (targets plan.tables.1 id) h
    exact ih h'

lemma Live.of_readied (h : Live s v) (hready : Readied new s t) : Live t v := by
  obtain ⟨x,hx⟩ := hready.status v
  refine ⟨?_,?_,hready.calls ▸ h.left⟩
  · rw [hx,hready.calls]
    exact h.attempt
  · rw [hx]
    exact h.maxRetries

/-- A step of a finished batch lowers the counters of its dependents. -/
theorem Inv.release (h : Inv plan s handed released (id::done) []) :
    ∃ new, Readied new s ((Kahn.targets plan.tables.1 id).foldl releaseNext s) ∧
      (∀ v ∈ new, v ∉ handed) ∧
      Inv plan ((Kahn.targets plan.tables.1 id).foldl releaseNext s) (handed ++ new)
        (released ++ [id]) done [] := by
  obtain ⟨new,hready,hpair⟩ :=
    foldl_releaseNext (targets plan.tables.1 id) (Readied.refl s s.indegree)
  obtain ⟨new',hqueue,htracks⟩ := h.tracks.release (fun e he => target_mem_stepIds he)
    s.ready (count_targets_tables id)
  rw [← hpair] at hqueue htracks
  obtain rfl : new' = new := append_cancel_left (hqueue.symm.trans hready.ready)
  have hnodup := nodup_append.mp htracks.nodup
  have hfresh : ∀ v ∈ new', v ∉ handed := fun v hv hold => hnodup.2.2 v hold v hv rfl
  refine ⟨new',hready,hfresh,htracks,?_,?_,?_,?_,?_,hready.calls ▸ h.steps,hready.calls ▸ h.count⟩
  · intro v hv
    exact mem_append_left _ (h.subset v (by simpa using hv))
  · intro v hv
    rw [nil_append,hready.ready] at hv
    exact (mem_append.mp hv).elim (fun hv => mem_append_left _ (h.queued v hv))
      (fun hv => mem_append_right _ hv)
  · rw [nil_append,hready.ready]
    exact nodup_append.mpr ⟨h.nodup,hnodup.2.1,fun a ha b hb heq =>
      hfresh b hb (heq ▸ h.queued a ha)⟩
  · intro v hv haway
    rw [nil_append,hready.ready,mem_append,not_or] at haway
    have hold : v ∈ handed := (mem_append.mp hv).resolve_right haway.2
    obtain ⟨hmem,hsettled⟩ := h.settled v hold haway.1
    exact ⟨by simpa using hmem,hready.calls ▸ hsettled⟩
  · intro v hv hcase
    refine (h.live v hv ?_).of_readied hready
    rw [nil_append,hready.ready,mem_append] at hcase
    rcases hcase with (hcase | hcase) | hcase
    · exact .inl hcase
    · exact .inr (hfresh v hcase)
    · exact .inr fun hold => hcase (mem_append_left _ hold)

/-! Dependencies. -/

def HasDependents (plan : ExecutionPlan) (id : String) : Prop := ∃ v, plan.Precedes id v

/-- A step that others depend on is neither put back into the queue nor marked for a retry, and no
compensation is asked for. -/
structure Call.Steady (plan : ExecutionPlan) (c : Call) : Prop where
  notRetried : HasDependents plan c.step.stepId → c.retried = false
  final : HasDependents plan c.step.stepId → c.Final
  quiet : c.Quiet

/-- A dependency has been completed, or it was skipped because it is optional and failed. -/
def Finished (plan : ExecutionPlan) (calls : List Call) (ctx : PlanContext) (dep : String) : Prop :=
  (ctx.status dep).state = .completed ∨
    (ctx.status dep).state = .skipped ∧ (plan.getStep dep).optional = true ∧
      ∃ c, lastCall calls dep = some c ∧ c.result.success = false

/-- As long as the calls before it are steady, a call finds its dependencies finished. -/
def InOrder (plan : ExecutionPlan) (calls : List Call) : Prop :=
  ∀ before c after, calls = before ++ c::after → (∀ d ∈ before, d.Steady plan) →
    ∀ dep ∈ c.step.dependsOn, Finished plan before c.ctx dep

lemma InOrder.append (h : InOrder plan calls)
    (hc : (∀ d ∈ calls, d.Steady plan) → ∀ dep ∈ c.step.dependsOn, Finished plan calls c.ctx dep) :
    InOrder plan (calls ++ [c]) := by
  intro before d after heq hbefore
  rcases eq_nil_or_concat after with rfl | ⟨after,e,rfl⟩
  · obtain ⟨rfl,hlast⟩ := append_inj' heq rfl
    obtain rfl : c = d := by simpa using hlast
    exact hc hbefore
  · have hsplit : calls ++ [c] = (before ++ d::after) ++ [e] := by simpa using heq
    exact h before d after (append_inj' hsplit rfl).1 hbefore

/-- A step with dependents is run once, and afterwards it is finished and stays so. -/
structure Ordered (plan : ExecutionPlan) (s : Exec) (released done todo : List String) : Prop where
  once : ∀ id, HasDependents plan id → (released ++ done).count id ≤ 1
  away : ∀ id ∈ released ++ done, HasDependents plan id → id ∉ todo ++ s.ready
  finished : ∀ id ∈ released ++ done, HasDependents plan id → Finished plan s.calls s.ctx id

/-- The dependencies of the next step of the batch are finished when it is called. -/
theorem Ordered.dependencies (h : Ordered plan s released done (id::todo))
    (hinv : Inv plan s handed released done (id::todo)) (hdep : dep ∈ (plan.getStep id).dependsOn) :
    Finished plan s.calls (startStep s.ctx id) dep := by
  have hid := hinv.handed_subset (hinv.queued id (by simp))
  have hprecedes : plan.Precedes dep id :=
    ⟨plan.getStep id,(getStep_spec hid).1,(getStep_spec hid).2,hdep⟩
  have honce : ∀ e ∈ plan.edges, released.count e.1 ≤ 1 := by
    intro e he
    have hle := h.once e.1 ⟨e.2,mem_edges.mp he⟩
    rw [count_append] at hle
    omega
  have hmem : dep ∈ released ++ done := mem_append_left _
    (hinv.tracks.mem_released honce (hinv.queued id (by simp)) (mem_edges.mpr hprecedes))
  have hne : dep ≠ id := fun heq => h.away dep hmem ⟨id,hprecedes⟩ (by simp [heq])
  rw [Finished,startStep_status_of_ne _ hne]
  exact h.finished dep hmem ⟨id,hprecedes⟩

lemma Ordered.call (h : Ordered plan s released done (id::todo))
    (hinv : Inv plan s handed released done (id::todo))
    (hafter : After id (callOf plan out s id) s t) (hrunning : t.ctx.aborted = false)
    (hsteady : (callOf plan out s id).Steady plan) :
    Ordered plan t released (done ++ [id]) todo := by
  have hid := hinv.handed_subset (hinv.queued id (by simp))
  have hname := callOf_stepId out s hid
  have hfirst : HasDependents plan id → id ∉ released ++ done := fun hdep hmem =>
    h.away id hmem hdep (by simp)
  constructor
  · intro v hdep
    rw [← append_assoc,count_append,count_singleton]
    by_cases hv : v = id
    · rw [hv,count_eq_zero_of_not_mem (hfirst (hv ▸ hdep))]
      simp
    · have hle := h.once v hdep
      simpa [Ne.symm hv] using hle
  · intro v hmem hdep haway
    rw [← append_assoc] at hmem
    rcases (hafter.mem_queue v).mp haway with hqueued | ⟨rfl,hretried⟩
    · rcases mem_append.mp hmem with hmem | hmem
      · exact h.away v hmem hdep (mem_cons_of_mem _ hqueued)
      · obtain rfl := mem_singleton.mp hmem
        exact (nodup_cons.mp hinv.nodup).1 hqueued
    · rw [hsteady.notRetried (by rwa [hname])] at hretried
      cases hretried
  · intro v hmem hdep
    rw [← append_assoc] at hmem
    rw [Finished,hafter.lastCall_eq hid]
    rcases mem_append.mp hmem with hmem | hmem
    · have hne : v ≠ id := fun heq => hfirst (heq ▸ hdep) (heq ▸ hmem)
      rw [if_neg (Ne.symm hne),hafter.others hrunning hsteady.quiet v hne]
      exact h.finished v hmem hdep
    · obtain rfl := mem_singleton.mp hmem
      have hdep' : HasDependents plan (callOf plan out s v).step.stepId := by rwa [hname]
      have hretried := hsteady.notRetried hdep'
      have hstate := hafter.own hrunning hsteady.quiet (hsteady.final hdep') hretried
      rw [if_pos rfl,hstate]
      split_ifs with hsuccess
      · exact .inl rfl
      · refine .inr ⟨rfl,?_,_,rfl,Bool.eq_false_iff.mpr hsuccess⟩
        exact (hafter.settled hretried).resolve_left hsuccess

lemma Ordered.release (h : Ordered plan s released (id::done) [])
    (hinv : Inv plan s handed released (id::done) []) (hready : Readied new s t)
    (hfresh : ∀ v ∈ new, v ∉ handed) : Ordered plan t (released ++ [id]) done [] := by
  have hlist : released ++ [id] ++ done = released ++ id::done := by simp
  constructor
  · rw [hlist]
    exact h.once
  · rw [hlist]
    intro v hmem hdep haway
    rw [nil_append,hready.ready] at haway
    exact (mem_append.mp haway).elim (h.away v hmem hdep)
      (fun hnew => hfresh v hnew (hinv.subset v hmem))
  · rw [hlist]
    intro v hmem hdep
    rw [Finished,hready.calls,hready.others v fun hnew => hfresh v hnew (hinv.subset v hmem)]
    exact h.finished v hmem hdep

/-! Whole runs. -/

lemma Inv.length_calls (h : Inv plan s handed released done todo) :
    s.calls.length ≤ 3*plan.steps.length := by
  have hle := length_calls_le h.steps h.count
  rwa [stepIds,length_map] at hle

/-- An empty queue has been through the whole plan. -/
theorem Inv.mem_handed (h : Inv plan s handed released [] []) (hplan : plan.WellFormed)
    (hready : s.ready = []) : ∀ id ∈ plan.stepIds, id ∈ handed := by
  have hsource : ∀ u v, plan.Precedes u v → u ∈ plan.stepIds := fun u v ⟨step,hstep,_,hdep⟩ =>
    hplan.known step hstep u hdep
  intro id
  induction acc_of_acyclic hsource hplan.acyclic id with
  | intro id _ ih =>
    intro hid
    refine h.tracks.mem_handed hid fun u hu => ?_
    have hprecedes := mem_edges.mp hu
    have hu := ih u hprecedes (hsource u id hprecedes)
    simpa using (h.settled u hu (by simp [hready])).1

lemma Inv.covers (h : Inv plan s handed released [] []) (hplan : plan.WellFormed)
    (hready : s.ready = []) : ∀ id ∈ plan.stepIds, Settled plan s.calls id :=
  fun id hid => (h.settled id (h.mem_handed hplan hready id hid) (by simp [hready])).2

/-- `P` holds before every call and after every batch, `E` of the calls when `execute` returns from
inside a batch, `A` when a step has aborted the plan. -/
structure Kept (plan : ExecutionPlan) (out : Surroundings)
    (P : Exec → List String → List String → List String → List String → Prop)
    (E A : List Call → Prop) : Prop where
  inv : ∀ {s handed released done todo}, P s handed released done todo →
    Inv plan s handed released done todo
  returns : ∀ {s handed released done todo id}, P s handed released done (id::todo) →
    (callOf plan out s id).result.success = false → (callOf plan out s id).retried = false →
    E (s.calls ++ [callOf plan out s id])
  aborts : ∀ {s t handed released done todo id}, P s handed released done (id::todo) →
    s.ctx.aborted = false → executeStep plan out s id = .ok t → t.ctx.aborted = true →
    A (s.calls ++ [callOf plan out s id])
  call : ∀ {s t handed released done todo id}, P s handed released done (id::todo) →
    After id (callOf plan out s id) s t → t.ctx.aborted = false →
    P t handed released (done ++ [id]) todo
  release : ∀ {s handed released done id}, P s handed released (id::done) [] →
    ∃ new, P ((Kahn.targets plan.tables.1 id).foldl releaseNext s) (handed ++ new)
      (released ++ [id]) done []
  split : ∀ {s handed released}, P s handed released [] [] → ∀ size,
    P { s with ready := s.ready.drop size } handed released [] (s.ready.take size)

/-- How a run can stand after a batch: over without success, aborted, or going on after at least `n`
calls. -/
def BatchEnd (P : Exec → List String → List String → List String → List String → Prop)
    (E A : List Call → Prop) (n : ℕ) (handed released done : List String) :
    Except (PlanResult × Exec) Exec → Prop
  | .error (r,t) => r.success = false ∧ E t.calls
  | .ok t => t.ctx.aborted = true ∧ A t.calls ∨
    t.ctx.aborted = false ∧ n ≤ t.calls.length ∧ P t handed released done []

lemma executeBatch_aborted (hs : s.ctx.aborted = true) (batch : List String) :
    executeBatch plan out batch s = .ok s := by
  induction batch with
  | nil => rfl
  | cons id batch ih =>
    rw [executeBatch,foldlM_cons,if_pos hs]
    exact ih

section Rule
variable {P : Exec → List String → List String → List String → List String → Prop}
  {E A : List Call → Prop}

lemma BatchEnd.mono (hle : m ≤ n)
    (h : BatchEnd P E A n handed released done r) : BatchEnd P E A m handed released done r := by
  cases r with
  | error r => exact h
  | ok t => exact h.imp_right fun ⟨ht,hn,hkept⟩ => ⟨ht,hle.trans hn,hkept⟩

/-- A batch that is not empty makes a call. -/
theorem Kept.executeBatch (hP : Kept plan out P E A) (h : P s handed released done todo)
    (hrunning : s.ctx.aborted = false) :
    BatchEnd P E A (s.calls.length+min 1 todo.length) handed released (done ++ todo)
      (executeBatch plan out todo s) := by
  induction todo generalizing s done with
  | nil =>
    rw [append_nil]
    exact .inr ⟨hrunning,le_rfl,h⟩
  | cons id todo ih =>
    have hid := (hP.inv h).handed_subset ((hP.inv h).queued id (by simp))
    rw [executeBatch,foldlM_cons,if_neg (by simp [hrunning])]
    obtain ⟨r,t,hstep,hfail,hcalls,hfailed,hretried⟩ | ⟨t,hstep,hafter⟩ := executeStep_cases out s hid
    · rw [hstep]
      exact ⟨hfail,hcalls ▸ hP.returns h hfailed hretried⟩
    · rw [hstep]
      change BatchEnd P E A _ handed released _ (executeBatch plan out todo t)
      cases habort : t.ctx.aborted with
      | true =>
        rw [executeBatch_aborted habort]
        exact .inl ⟨habort,hafter.calls ▸ hP.aborts h hrunning hstep habort⟩
      | false =>
        have hrest := ih (hP.call h hafter habort) habort
        rw [append_assoc,singleton_append] at hrest
        refine hrest.mono ?_
        rw [hafter.calls,length_append,length_singleton,length_cons]
        omega

lemma Kept.releaseBatch (hP : Kept plan out P E A) (h : P s handed released batch []) :
    ∃ handed' released', P (releaseBatch plan batch s) handed' released' [] [] := by
  induction batch generalizing s handed released with
  | nil => exact ⟨handed,released,h⟩
  | cons id batch ih =>
    obtain ⟨new,hnew⟩ := hP.release h
    exact ih hnew

lemma Kept.turn (hP : Kept plan out P E A) (h : P s handed released [] [])
    (hrunning : s.ctx.aborted = false) (hready : s.ready ≠ []) :
    (∃ r t, turn plan out s = .error (r,t) ∧ r.success = false ∧ E t.calls) ∨
    ∃ t, turn plan out s = .ok t ∧ (t.ctx.aborted = true ∧ A t.calls ∨
      t.ctx.aborted = false ∧ s.calls.length < t.calls.length ∧
        ∃ handed' released', P t handed' released' [] []) := by
  unfold Runtime.turn
  dsimp only
  generalize hsize : (if plan.mode = .parallel then s.ready.length else 1) = size
  have hpos : 0 < s.ready.length := length_pos_iff.mpr hready
  have hone : min 1 (s.ready.take size).length = 1 := by
    rw [length_take,← hsize]
    split_ifs
    · omega
    · omega
  have hend := hP.executeBatch (hP.split h size) hrunning
  rw [hone] at hend
  cases hbatch : Runtime.executeBatch plan out (s.ready.take size)
      { s with ready := s.ready.drop size } with
  | error r =>
    rw [hbatch] at hend
    exact .inl ⟨r.1,r.2,rfl,hend⟩
  | ok t =>
    rw [hbatch] at hend
    obtain ⟨new,hnew⟩ := releaseBatch_readied plan (s.ready.take size)
      (Readied.refl t t.indegree)
    refine .inr ⟨_,rfl,?_⟩
    rw [hnew.aborted,hnew.calls]
    exact hend.imp_right fun ⟨ht,hn,hkept⟩ => ⟨ht,hn,hP.releaseBatch hkept⟩

/-- How a run ends: with an error, with an abort, or in a state that is kept and has nothing in its
queue. -/
def RunEnd (P : Exec → List String → List String → List String → List String → Prop)
    (E A : List Call → Prop) (s : Exec) (r : PlanResult) (t : Exec) : Prop :=
  r.success = false ∧ (E t.calls ∨ A t.calls ∨ s.ctx.aborted = true ∧ t.calls = s.calls) ∨
    r.success = true ∧ ∃ u handed released, P u handed released [] [] ∧ t.calls = u.calls ∧ u.ready = []

/-- The loop ends, since a turn makes a call and the calls are bounded. -/
theorem Kept.loop (hP : Kept plan out P E A) (h : P s handed released [] [])
    (hfuel : 3*plan.steps.length+1 < fuel+s.calls.length) :
    ∃ r t, loop plan out fuel s = some (r,t) ∧ RunEnd P E A s r t := by
  induction fuel generalizing s handed released with
  | zero =>
    have hle := (hP.inv h).length_calls
    omega
  | succ fuel ih =>
    have hle := (hP.inv h).length_calls
    rw [loop]
    by_cases hgo : s.ready ≠ [] ∧ s.ctx.aborted = false
    · rw [if_pos hgo]
      obtain ⟨r,t,hturn,hfail,hend⟩ | ⟨t,hturn,⟨habort,hend⟩ | ⟨hrunning,hlt,handed',released',hkept⟩⟩ :=
        hP.turn h hgo.2 hgo.1
      · rw [hturn]
        exact ⟨r,t,rfl,.inl ⟨hfail,.inl hend⟩⟩
      · rw [hturn]
        obtain ⟨n,rfl⟩ : ∃ n, fuel = n+1 := ⟨fuel-1,by omega⟩
        dsimp only
        rw [loop,if_neg (by simp [habort]),finish,if_pos habort]
        exact ⟨_,_,rfl,.inl ⟨rfl,.inr (.inl hend)⟩⟩
      · rw [hturn]
        obtain ⟨r,u,hloop,hend⟩ := ih hkept (by omega)
        refine ⟨r,u,hloop,hend.imp_left fun ⟨hfail,hend⟩ => ⟨hfail,?_⟩⟩
        rcases hend with hend | hend | ⟨habort,-⟩
        · exact .inl hend
        · exact .inr (.inl hend)
        · simp [hrunning] at habort
    · rw [if_neg hgo,finish]
      split_ifs with habort
      · exact ⟨_,_,rfl,.inl ⟨rfl,.inr (.inr ⟨habort,rfl⟩)⟩⟩
      · refine ⟨_,_,rfl,.inr ⟨rfl,s,handed,released,h,rfl,?_⟩⟩
        by_contra hready
        exact hgo ⟨hready,by simpa using habort⟩

end Rule

structure Sound (plan : ExecutionPlan) (s : Exec) (handed released done todo : List String) : Prop
    extends Inv plan s handed released done todo where
  inOrder : InOrder plan s.calls
  ordered : (∀ c ∈ s.calls, c.Steady plan) → Ordered plan s released done todo

lemma Sound.inOrder_call (h : Sound plan s handed released done (id::todo)) :
    InOrder plan (s.calls ++ [callOf plan out s id]) :=
  h.inOrder.append fun hsteady _ hdep => (h.ordered hsteady).dependencies h.toInv hdep

lemma Sound.call (h : Sound plan s handed released done (id::todo))
    (hafter : After id (callOf plan out s id) s t) (hrunning : t.ctx.aborted = false) :
    Sound plan t handed released (done ++ [id]) todo where
  toInv := h.toInv.call hafter
  inOrder := hafter.calls ▸ h.inOrder_call
  ordered hsteady := by
    rw [hafter.calls] at hsteady
    exact (h.ordered fun c hc => hsteady c (mem_append_left _ hc)).call h.toInv hafter hrunning
      (hsteady _ (by simp))

lemma Sound.release (h : Sound plan s handed released (id::done) []) :
    ∃ new, Sound plan ((Kahn.targets plan.tables.1 id).foldl releaseNext s) (handed ++ new)
      (released ++ [id]) done [] := by
  obtain ⟨new,hready,hfresh,hinv⟩ := h.toInv.release
  refine ⟨new,hinv,hready.calls ▸ h.inOrder,fun hsteady => ?_⟩
  rw [hready.calls] at hsteady
  exact (h.ordered hsteady).release h.toInv hready hfresh

lemma Inv.split (h : Inv plan s handed released [] []) (size : ℕ) :
    Inv plan { s with ready := s.ready.drop size } handed released [] (s.ready.take size) := by
  have hsplit : s.ready.take size ++ s.ready.drop size = [] ++ s.ready := take_append_drop _ _
  refine ⟨h.tracks,h.subset,?_,?_,?_,?_,h.steps,h.count⟩
  · exact hsplit ▸ h.queued
  · exact hsplit ▸ h.nodup
  · exact hsplit ▸ h.settled
  · intro id hid hcase
    obtain ⟨hattempt,hmax,hleft⟩ := h.live id hid (hsplit ▸ hcase)
    exact ⟨hattempt,hmax,hleft⟩

lemma Sound.split (h : Sound plan s handed released [] []) (size : ℕ) :
    Sound plan { s with ready := s.ready.drop size } handed released [] (s.ready.take size) := by
  have hsplit : s.ready.take size ++ s.ready.drop size = [] ++ s.ready := take_append_drop _ _
  refine ⟨h.toInv.split size,h.inOrder,fun hsteady => ?_⟩
  obtain ⟨honce,haway,hfinished⟩ := h.ordered hsteady
  exact ⟨honce,hsplit ▸ haway,hfinished⟩

lemma Sound.kept (plan : ExecutionPlan) (out : Surroundings) :
    Kept plan out (Sound plan) (InOrder plan) (InOrder plan) where
  inv h := h.toInv
  returns h _ _ := h.inOrder_call
  aborts h _ _ _ := h.inOrder_call
  call h hafter hrunning := h.call hafter hrunning
  release h := h.release
  split h size := h.split size

/-! The start. -/

lemma foldl_markReady (entries : List (String × ℤ)) (h : Readied new s t) :
    Readied (new ++ (entries.filter (fun e => e.2 = 0)).map Prod.fst) s
        (entries.foldl (fun s e => if e.2 = 0 then s.markReady e.1 else s) t) ∧
      (entries.foldl (fun s e => if e.2 = 0 then s.markReady e.1 else s) t).indegree = t.indegree := by
  induction entries generalizing t new with
  | nil => exact ⟨by simpa using h,rfl⟩
  | cons e entries ih =>
    rw [foldl_cons]
    by_cases he : e.2 = 0
    · rw [if_pos he]
      have hrest := ih (h.markReady e.1)
      exact ⟨by simpa [he] using hrest.1,hrest.2⟩
    · rw [if_neg he]
      have hrest := ih h
      exact ⟨by simpa [he] using hrest.1,hrest.2⟩

lemma status_default (steps : List Step) (ctx : PlanContext) (v : String) :
    ({ ctx with stepStatus := steps.foldl (fun m step => m.insert step.stepId {}) AssocMap.empty } :
      PlanContext).status v = {} := by
  have hloop : ∀ (steps : List Step) (m : AssocMap String StepStatus), (m.find v).getD {} = {} →
      ((steps.foldl (fun m step => m.insert step.stepId {}) m).find v).getD {} = {} := by
    intro steps
    induction steps with
    | nil => exact fun _ h => h
    | cons step steps ih =>
      intro m hm
      refine ih _ ?_
      rw [AssocMap.find_insert]
      split_ifs
      · rfl
      · exact hm
  exact hloop steps _ rfl

lemma initial_inv (hplan : plan.WellFormed) (out : Surroundings) (ctx : PlanContext) :
    ∃ handed, (initial plan out ctx).calls = [] ∧ (initial plan out ctx).ctx.aborted = ctx.aborted ∧
      Inv plan (initial plan out ctx) handed [] [] [] := by
  let start : Exec := {
    ctx := { ctx with
      planState := .executing
      stepStatus := plan.steps.foldl (fun m step => m.insert step.stepId {}) AssocMap.empty }
    indegree := plan.tables.2 }
  let zeros := ((out.order.list plan.tables.2.entries).filter (fun e => e.2 = 0)).map Prod.fst
  obtain ⟨hready,hindegree⟩ :=
    foldl_markReady (out.order.list plan.tables.2.entries) (Readied.refl start plan.tables.2)
  change Readied zeros start (initial plan out ctx) at hready
  change (initial plan out ctx).indegree = plan.tables.2 at hindegree
  have hkeys : ∀ v, v ∈ plan.tables.2.keys ↔ v ∈ plan.stepIds := mem_keys_tables
  have hzeros : zeros.Perm (plan.stepIds.filter (fun v => count plan.tables.2 v = 0)) :=
    (perm_zeros (out.order.perm plan.tables.2.entries)).trans
      (((perm_ext_iff_of_nodup plan.tables.2.nodup_keys hplan.distinct).mpr hkeys).filter _)
  have htracks := Kahn.Tracks.initial hplan.distinct (count_tables hplan.distinct) hzeros
  have hqueue : [] ++ (initial plan out ctx).ready = zeros := hready.ready
  have hcalls : (initial plan out ctx).calls = [] := hready.calls
  refine ⟨zeros,hcalls,hready.aborted,hindegree ▸ htracks,fun _ h => (by cases h),?_,?_,?_,?_,?_,?_⟩
  · exact hqueue ▸ fun _ h => h
  · exact hqueue ▸ htracks.nodup
  · intro v hv haway
    exact absurd hv (hqueue ▸ haway)
  · intro v _ _
    have hlive : Live start v := by
      have hdefault := status_default plan.steps { ctx with planState := .executing } v
      exact ⟨congrArg StepStatus.attempt hdefault,congrArg StepStatus.maxRetries hdefault,
        Nat.succ_pos 2⟩
    exact hlive.of_readied hready
  · rw [hcalls]
    exact fun _ h => by cases h
  · rw [hcalls]
    exact fun _ => Nat.zero_le 3

lemma initial_sound (hplan : plan.WellFormed) (out : Surroundings) (ctx : PlanContext) :
    ∃ handed, (initial plan out ctx).calls = [] ∧ Sound plan (initial plan out ctx) handed [] [] [] := by
  obtain ⟨handed,hcalls,-,hinv⟩ := initial_inv hplan out ctx
  refine ⟨handed,hcalls,hinv,?_,fun _ => ?_⟩
  · rw [hcalls]
    intro before c after heq
    simp at heq
  · exact ⟨fun _ _ => by simp,fun _ h => (by cases h),fun _ h => by cases h⟩

lemma execute_ends (hplan : plan.WellFormed) (out : Surroundings) (ctx : PlanContext)
    (hfuel : 3*plan.steps.length+1 < fuel) :
    ∃ r t, execute plan out fuel ctx = some (r,t) ∧ InOrder plan t.calls ∧
      (r.success = true → ∀ id ∈ plan.stepIds, Settled plan t.calls id) := by
  obtain ⟨handed,hcalls,hsound⟩ := initial_sound hplan out ctx
  obtain ⟨r,t,hrun,hend⟩ := (Sound.kept plan out).loop hsound (by rw [hcalls]; exact hfuel)
  refine ⟨r,t,hrun,?_⟩
  rcases hend with ⟨hfail,hend⟩ | ⟨-,u,handed,released,hu,hcalls,hready⟩
  · refine ⟨?_,fun hsuccess => by simp [hfail] at hsuccess⟩
    rcases hend with horder | horder | ⟨-,hcalls⟩
    · exact horder
    · exact horder
    · exact hcalls ▸ hsound.inOrder
  · rw [hcalls]
    exact ⟨hu.inOrder,fun _ => hu.toInv.covers hplan hready⟩

end Run

namespace ExecutionPlan

lemma getStep_of_mem {plan : ExecutionPlan} (hplan : plan.WellFormed)
    (h : step ∈ plan.steps) : plan.getStep step.stepId = step := by
  have hspec := getStep_spec (mem_map_of_mem h)
  exact inj_on_of_nodup_map hplan.distinct hspec.1 h hspec.2

end ExecutionPlan

/-- The check accepts exactly the well-formed plans. The executor ends on every accepted plan, and a
success means that every step was executed and that its last execution succeeded, unless the step is
optional. -/
theorem accepted_plan_success_covers (plan : ExecutionPlan) (order : Iteration String) {fuel : ℕ}
    (hfuel : 3*plan.steps.length+1 < fuel) :
    (∃ r, plan.validate order fuel = some r ∧ (r = .ok () ↔ plan.WellFormed)) ∧
    (plan.validate order fuel = some (.ok ()) → ∀ (out : Surroundings) (ctx : PlanContext),
      ∃ r t, execute plan out fuel ctx = some (r,t) ∧ (r.success = true → ∀ step ∈ plan.steps,
        ∃ c, lastCall t.calls step.stepId = some c ∧ c.step = step ∧
          (c.result.success = true ∨ step.optional = true))) := by
  obtain ⟨r,hvalidate,hiff⟩ := validate_cases order (show plan.steps.length < fuel by omega)
  refine ⟨⟨r,hvalidate,hiff⟩,fun hok out ctx => ?_⟩
  have hplan : plan.WellFormed := hiff.mp (Option.some.inj (hvalidate.symm.trans hok))
  obtain ⟨r,t,hrun,-,hcovers⟩ := execute_ends hplan out ctx hfuel
  refine ⟨r,t,hrun,fun hsuccess step hstep => ?_⟩
  obtain ⟨c,hlast,hc,hsettled⟩ := hcovers hsuccess step.stepId (mem_map_of_mem hstep)
  rw [getStep_of_mem hplan hstep] at hc
  exact ⟨c,hlast,hc,hc ▸ hsettled⟩

/-- A second step that waits for the first one; all calls succeed. -/
theorem pair_plan_success_covers :
    let plan : ExecutionPlan := ⟨[{ stepId := "a" },{ stepId := "b", dependsOn := ["a"] }],.parallel,""⟩
    let out : Surroundings := ⟨fun _ _ _ => { success := true },fun _ _ => none,default⟩
    plan.WellFormed ∧ ∃ r t, execute plan out 8 {} = some (r,t) ∧ r.success = true ∧
      ∀ step ∈ plan.steps, ∃ c, lastCall t.calls step.stepId = some c ∧ c.step = step ∧
        (c.result.success = true ∨ step.optional = true) := by
  intro plan out
  obtain ⟨⟨r,hr,hiff⟩,hcovers⟩ := accepted_plan_success_covers plan default
    (show 3*plan.steps.length+1 < 8 by decide)
  have hok : plan.validate default 8 = some (.ok ()) := by decide +kernel
  have hplan : plan.WellFormed := hiff.mp (Option.some.inj (hr.symm.trans hok))
  obtain ⟨r,t,hrun,hsteps⟩ := hcovers hok out {}
  have hsuccess : (execute plan out 8 {}).map (fun p => p.1.success) = some true := by decide +kernel
  rw [hrun] at hsuccess
  have hsuccess : r.success = true := Option.some.inj hsuccess
  exact ⟨hplan,r,t,hrun,hsuccess,hsteps hsuccess⟩

/-- On an accepted plan, a call finds its dependencies finished as long as the calls before it were
steady. -/
theorem steady_calls_find_dependencies (plan : ExecutionPlan) (order : Iteration String) {fuel : ℕ}
    (hfuel : 3*plan.steps.length+1 < fuel) (hok : plan.validate order fuel = some (.ok ()))
    (out : Surroundings) (ctx : PlanContext) : ∃ r t, execute plan out fuel ctx = some (r,t) ∧
      ∀ before c after, t.calls = before ++ c::after → (∀ d ∈ before, d.Steady plan) →
        ∀ dep ∈ c.step.dependsOn, Finished plan before c.ctx dep := by
  obtain ⟨r,hvalidate,hiff⟩ := validate_cases order (show plan.steps.length < fuel by omega)
  have hplan : plan.WellFormed := hiff.mp (Option.some.inj (hvalidate.symm.trans hok))
  obtain ⟨r,t,hrun,horder,-⟩ := execute_ends hplan out ctx hfuel
  exact ⟨r,t,hrun,horder⟩

/-- The second step is called after one steady call and finds the first step completed. -/
theorem pair_plan_finds_dependency :
    let plan : ExecutionPlan := ⟨[{ stepId := "a" },{ stepId := "b", dependsOn := ["a"] }],.parallel,""⟩
    let out : Surroundings := ⟨fun _ _ _ => { success := true },fun _ _ => none,default⟩
    ∃ r t first second, execute plan out 8 {} = some (r,t) ∧ t.calls = [first,second] ∧
      first.Steady plan ∧ second.step.dependsOn = ["a"] ∧ Finished plan [first] second.ctx "a" := by
  intro plan out
  obtain ⟨r,t,hrun,horder⟩ := steady_calls_find_dependencies plan default
    (show 3*plan.steps.length+1 < 8 by decide) (by decide +kernel) out {}
  have hcalls : (execute plan out 8 {}).map (fun p => p.2.calls.map (fun c =>
      (c.step.dependsOn,c.result.success,c.result.output.nextActions))) =
        some [([],true,[]),(["a"],true,[])] := by decide +kernel
  rw [hrun] at hcalls
  obtain ⟨first,rest,hsplit,hfirst,hrest⟩ := map_eq_cons_iff.mp (Option.some.inj hcalls)
  obtain ⟨second,tail,rfl,hsecond,htail⟩ := map_eq_cons_iff.mp hrest
  obtain rfl := map_eq_nil_iff.mp htail
  simp only [Prod.mk.injEq] at hfirst hsecond
  have hsteady : first.Steady plan :=
    ⟨fun _ => by simp [Call.retried,hfirst.2.1],fun _ _ => by simp [hfirst.2.2],
      fun _ => by simp [hfirst.2.2]⟩
  refine ⟨r,t,first,second,hrun,hsplit,hsteady,hsecond.1,?_⟩
  exact horder [first] second [] hsplit (by simpa using hsteady) "a" (by simp [hsecond.1])

/-- A first step that fails is put back into the queue, and the second one no longer waits for it. -/
theorem dependency_waits_for_retry : let plan : ExecutionPlan :=
      ⟨[{ stepId := "a", maxRetries := 1 },{ stepId := "b", dependsOn := ["a"] }],.sequential,"AllOrNothing"⟩
    let out : Surroundings := ⟨fun _ step _ => { success := step.stepId ≠ "a" },fun _ _ => none,default⟩
    plan.validate default 8 = some (.ok ()) ∧ ∃ r t, execute plan out 8 {} = some (r,t) ∧
      ∃ c ∈ t.calls, "a" ∈ c.step.dependsOn ∧ (c.ctx.status "a").state = .waitingRetry := by
  intro plan out
  refine ⟨by decide +kernel,?_⟩
  have hrun : (execute plan out 8 {}).any (fun p => p.2.calls.any (fun c =>
      "a" ∈ c.step.dependsOn ∧ (c.ctx.status "a").state = .waitingRetry)) = true := by decide +kernel
  obtain ⟨⟨r,t⟩,heq,hcalls⟩ := (Option.any_eq_true _ _).mp hrun
  obtain ⟨c,hc,hwaits⟩ := any_eq_true.mp hcalls
  exact ⟨r,t,heq,c,hc,of_decide_eq_true hwaits⟩

end SmoFramework.Runtime
