import SmoFramework.Runtime.PlanRun

/-! How often a step is called. The number of retries that the plan allows is only compared with zero;
what counts is the limit in the step's status, which is three. -/
namespace SmoFramework.Runtime
open Library List ExecutionPlan

def Step.limit (step : Step) : ℕ := if step.maxRetries > 0 then 3 else 1

structure Within (plan : ExecutionPlan) (out : Surroundings) (calls : List Call) : Prop where
  answered : ∀ c ∈ calls, ∃ n, c.result = out.executor n c.step c.ctx
  limited : ∀ id ∈ plan.stepIds, callCount calls id ≤ (plan.getStep id).limit

/-- A step that can still be called has calls left, and a step that always failed has none once it is out
of the queue. -/
structure Spending (plan : ExecutionPlan) (out : Surroundings) (s : Exec)
    (handed released done todo : List String) : Prop
    extends Inv plan s handed released done todo, Within plan out s.calls where
  left : ∀ id ∈ plan.stepIds, id ∈ todo ++ s.ready ∨ id ∉ handed →
    callCount s.calls id < (plan.getStep id).limit
  spent : ∀ id ∈ handed, id ∉ todo ++ s.ready →
    (∀ c ∈ s.calls, c.step.stepId = id → c.result.success = false) →
      callCount s.calls id = (plan.getStep id).limit

def GivenUp (plan : ExecutionPlan) (out : Surroundings) (calls : List Call) : Prop :=
  Within plan out calls ∧ ∃ c ∈ calls, c.result.success = false ∧
    callCount calls c.step.stepId = (plan.getStep c.step.stepId).limit

def Acted (plan : ExecutionPlan) (out : Surroundings) (calls : List Call) : Prop :=
  Within plan out calls ∧ ∃ c ∈ calls, c.result.output.nextActions ≠ []

section
variable {plan : ExecutionPlan} {out : Surroundings} {s t : Exec}
  {handed released done todo : List String} {id : String}

lemma retried_iff (hid : id ∈ plan.stepIds) (hlive : Live s id)
    (hleft : callCount s.calls id < (plan.getStep id).limit)
    (hfailed : (callOf plan out s id).result.success = false) :
    (callOf plan out s id).retried = true ↔ callCount s.calls id+1 < (plan.getStep id).limit := by
  have hstep : (callOf plan out s id).step = plan.getStep id := rfl
  rw [Call.retried,callOf_stepId out s hid,hfailed,StepStatus.isRetryable,callOf_attempt hlive,
    callOf_maxRetries hlive,hstep]
  unfold Step.limit at hleft ⊢
  by_cases hmax : (plan.getStep id).maxRetries > 0
  · rw [if_pos hmax] at hleft ⊢
    simp [hmax]
    omega
  · rw [if_neg hmax] at hleft ⊢
    simp [hmax]

lemma Within.append (h : Within plan out s.calls) (hid : id ∈ plan.stepIds)
    (hleft : callCount s.calls id < (plan.getStep id).limit) :
    Within plan out (s.calls ++ [callOf plan out s id]) where
  answered c hc := by
    rcases mem_append.mp hc with hc | hc
    · exact h.answered c hc
    · rw [mem_singleton.mp hc]
      exact ⟨_,rfl⟩
  limited v hv := by
    rw [callCount_append,callOf_stepId out s hid]
    split_ifs with heq
    · exact heq ▸ hleft
    · exact h.limited v hv

lemma Spending.next (h : Spending plan out s handed released done (id::todo)) :
    id ∈ plan.stepIds ∧ Live s id ∧ callCount s.calls id < (plan.getStep id).limit := by
  have hid := h.handed_subset (h.queued id (by simp))
  exact ⟨hid,h.live id hid (.inl (by simp)),h.left id hid (.inl (by simp))⟩

lemma Spending.call (h : Spending plan out s handed released done (id::todo))
    (hafter : After id (callOf plan out s id) s t) :
    Spending plan out t handed released (done ++ [id]) todo := by
  obtain ⟨hid,hlive,hleft⟩ := h.next
  have hcount := hafter.callCount_eq hid
  refine ⟨h.toInv.call hafter,hafter.calls ▸ h.toWithin.append hid hleft,?_,?_⟩
  · intro v hv hcase
    rw [hafter.mem_queue] at hcase
    rw [hcount]
    split_ifs with heq
    · -- The step that was called is still queued, so it is retried.
      subst heq
      have hretried : (callOf plan out s id).retried = true := by
        rcases hcase with (hcase | ⟨-,hr⟩) | hcase
        · exact absurd hcase (nodup_cons.mp h.nodup).1
        · exact hr
        · exact absurd (h.queued id (by simp)) hcase
      have hfailed : (callOf plan out s id).result.success = false := by
        simp only [Call.retried,Bool.and_eq_true,Bool.not_eq_true'] at hretried
        exact hretried.1.1
      exact (retried_iff hid hlive hleft hfailed).mp hretried
    · refine h.left v hv (hcase.imp_left fun hmem => ?_)
      exact mem_cons_of_mem _ (hmem.resolve_right fun hmem => heq hmem.1.symm)
  · intro v hv haway hfails
    rw [hafter.mem_queue,not_or] at haway
    rw [hcount]
    split_ifs with heq
    · -- It failed and is not queued any more, so this was its last call.
      subst heq
      have hfailed : (callOf plan out s id).result.success = false :=
        hfails _ (by rw [hafter.calls]; simp) (callOf_stepId out s hid)
      have hlast : ¬callCount s.calls id+1 < (plan.getStep id).limit := fun hlt =>
        haway.2 ⟨rfl,(retried_iff hid hlive hleft hfailed).mpr hlt⟩
      omega
    · refine h.spent v hv (by simpa [Ne.symm heq] using haway.1) fun c hc => hfails c ?_
      rw [hafter.calls]
      exact mem_append_left _ hc

lemma Spending.release (h : Spending plan out s handed released (id::done) []) :
    ∃ new, Spending plan out ((Kahn.targets plan.tables.1 id).foldl releaseNext s) (handed ++ new)
      (released ++ [id]) done [] := by
  obtain ⟨new,hready,hfresh,hinv⟩ := h.toInv.release
  refine ⟨new,hinv,hready.calls ▸ h.toWithin,?_,?_⟩
  · intro v hv hcase
    rw [hready.calls]
    refine h.left v hv ?_
    rw [nil_append,hready.ready,mem_append] at hcase
    rcases hcase with (hcase | hcase) | hcase
    · exact .inl hcase
    · exact .inr (hfresh v hcase)
    · exact .inr fun hold => hcase (mem_append_left _ hold)
  · intro v hv haway hfails
    rw [nil_append,hready.ready,mem_append,not_or] at haway
    rw [hready.calls] at hfails ⊢
    exact h.spent v ((mem_append.mp hv).resolve_right haway.2) haway.1 hfails

lemma Spending.split (h : Spending plan out s handed released [] []) (size : ℕ) :
    Spending plan out { s with ready := s.ready.drop size } handed released []
      (s.ready.take size) := by
  have hsplit : s.ready.take size ++ s.ready.drop size = [] ++ s.ready := take_append_drop _ _
  exact ⟨h.toInv.split size,h.toWithin,hsplit ▸ h.left,hsplit ▸ h.spent⟩

lemma recordOutput_aborted (ctx : PlanContext) (id : String) (step : Step) (output : ContractResult) :
    (recordOutput ctx id step output).aborted = ctx.aborted := by
  unfold recordOutput
  dsimp only
  split_ifs <;> rfl

lemma executeStep_aborted (hstep : executeStep plan out s id = .ok t) (hs : s.ctx.aborted = false)
    (ht : t.ctx.aborted = true) : (callOf plan out s id).result.output.nextActions ≠ [] := by
  intro hnil
  have hkept : t.ctx.aborted = s.ctx.aborted := by
    unfold executeStep completeStep at hstep
    dsimp only at hstep
    split_ifs at hstep with hsuccess hretry hoptional
    · obtain rfl := Except.ok.inj hstep
      change ((callOf plan out s id).result.output.nextActions.foldl (processAction plan out id)
        _).ctx.aborted = _
      rw [hnil]
      exact recordOutput_aborted _ _ _ _
    · obtain rfl := Except.ok.inj hstep
      rfl
    · obtain rfl := Except.ok.inj hstep
      rfl
  rw [hkept,hs] at ht
  cases ht

lemma Spending.kept (plan : ExecutionPlan) (out : Surroundings) :
    Kept plan out (Spending plan out) (GivenUp plan out) (Acted plan out) where
  inv h := h.toInv
  returns {s _ _ _ _ id} h hfailed hretried := by
    obtain ⟨hid,hlive,hleft⟩ := h.next
    have hlast : ¬callCount s.calls id+1 < (plan.getStep id).limit := fun hlt => by
      rw [(retried_iff hid hlive hleft hfailed).mpr hlt] at hretried
      cases hretried
    refine ⟨h.toWithin.append hid hleft,_,by simp,hfailed,?_⟩
    rw [callOf_stepId out s hid,callCount_append,callOf_stepId out s hid,if_pos rfl]
    omega
  aborts {s _ _ _ _ _ id} h hs hstep ht := by
    obtain ⟨hid,-,hleft⟩ := h.next
    exact ⟨h.toWithin.append hid hleft,_,by simp,executeStep_aborted hstep hs ht⟩
  call h hafter _ := h.call hafter
  release h := h.release
  split h size := h.split size

end

/-! Whole runs. -/

lemma initial_spending (hplan : plan.WellFormed) (out : Surroundings)
    (ctx : PlanContext) : ∃ handed, (initial plan out ctx).calls = [] ∧
      (initial plan out ctx).ctx.aborted = ctx.aborted ∧
      Spending plan out (initial plan out ctx) handed [] [] [] := by
  obtain ⟨handed,hcalls,haborted,hinv⟩ := initial_inv hplan out ctx
  have hpos : ∀ step : Step, 0 < step.limit := fun step => by
    unfold Step.limit
    split_ifs <;> decide
  refine ⟨handed,hcalls,haborted,hinv,⟨?_,?_⟩,?_,?_⟩
  · rw [hcalls]
    exact fun c hc => by cases hc
  · rw [hcalls]
    exact fun id _ => Nat.zero_le _
  · rw [hcalls]
    exact fun id _ _ => hpos _
  · intro id hid haway
    obtain ⟨c,hlast,-⟩ := (hinv.settled id hid haway).2
    rw [hcalls] at hlast
    cases hlast

lemma execute_spends (hplan : plan.WellFormed) (out : Surroundings)
    (ctx : PlanContext) (hfuel : 3*plan.steps.length+1 < fuel) :
    ∃ r t, execute plan out fuel ctx = some (r,t) ∧ Within plan out t.calls ∧
      (ctx.aborted = false → GivenUp plan out t.calls ∨ Acted plan out t.calls ∨
        ∀ id ∈ plan.stepIds, (∀ c ∈ t.calls, c.step.stepId = id → c.result.success = false) →
          callCount t.calls id = (plan.getStep id).limit) := by
  obtain ⟨handed,hcalls,haborted,hspending⟩ := initial_spending hplan out ctx
  obtain ⟨r,t,hrun,hend⟩ := (Spending.kept plan out).loop hspending (by rw [hcalls]; exact hfuel)
  refine ⟨r,t,hrun,?_⟩
  rcases hend with ⟨-,hend⟩ | ⟨-,u,handed,released,hu,hcalls,hready⟩
  · rcases hend with hend | hend | ⟨habort,hcalls⟩
    · exact ⟨hend.1,fun _ => .inl hend⟩
    · exact ⟨hend.1,fun _ => .inr (.inl hend)⟩
    · refine ⟨hcalls ▸ hspending.toWithin,fun hctx => ?_⟩
      rw [haborted,hctx] at habort
      cases habort
  · rw [hcalls]
    exact ⟨hu.toWithin,fun _ => .inr (.inr fun id hid =>
      hu.spent id (hu.toInv.mem_handed hplan hready id hid) (by simp [hready]))⟩

def Step.budget (step : Step) : ℤ := 1+max 0 step.maxRetries.toInt

lemma Step.limit_le_budget_iff (step : Step) : (step.limit : ℤ) ≤ step.budget ↔ step.maxRetries ≠ 1 := by
  have hpos : step.maxRetries > 0 ↔ 0 < step.maxRetries.toInt := Int32.lt_iff_toInt_lt
  have hone : step.maxRetries = 1 ↔ step.maxRetries.toInt = 1 := Int32.toInt_inj.symm
  unfold Step.limit Step.budget
  rw [Ne,hone]
  split_ifs with h
  · rw [hpos] at h
    omega
  · rw [hpos] at h
    omega

def failing (v : String) : Surroundings :=
  ⟨fun _ step _ => { success := step.stepId ≠ v },fun _ _ => none,default⟩

lemma execute_failing (hplan : plan.WellFormed)
    (hv : v ∈ plan.stepIds) (hfuel : 3*plan.steps.length+1 < fuel) :
    ∃ r t, execute plan (failing v) fuel {} = some (r,t) ∧
      callCount t.calls v = (plan.getStep v).limit := by
  obtain ⟨r,t,hrun,hwithin,hend⟩ := execute_spends hplan (failing v) {} hfuel
  refine ⟨r,t,hrun,?_⟩
  rcases hend rfl with ⟨-,c,hc,hfailed,hcount⟩ | ⟨-,c,hc,hacted⟩ | hend
  · -- Only the one step can have failed for good.
    obtain ⟨n,hresult⟩ := hwithin.answered c hc
    rw [hresult] at hfailed
    have hname : c.step.stepId = v := by simpa [failing] using hfailed
    rwa [hname] at hcount
  · obtain ⟨n,hresult⟩ := hwithin.answered c hc
    rw [hresult] at hacted
    exact absurd rfl hacted
  · refine hend v hv fun c hc hname => ?_
    obtain ⟨n,hresult⟩ := hwithin.answered c hc
    rw [hresult]
    simp [failing,hname]

/-- On an accepted plan every run ends, and a step is called once if it allows no retry and at most three
times if it does. So `max_retries` bounds the calls of all runs exactly if no step has the value one. -/
theorem calls_within_budget_iff (plan : ExecutionPlan) (order : Iteration String) {fuel : ℕ}
    (hfuel : 3*plan.steps.length+1 < fuel) (hok : plan.validate order fuel = some (.ok ())) :
    (∀ (out : Surroundings) (ctx : PlanContext), ∃ r t, execute plan out fuel ctx = some (r,t) ∧
      ∀ step ∈ plan.steps, callCount t.calls step.stepId ≤ if step.maxRetries > 0 then 3 else 1) ∧
    ((∀ (out : Surroundings) (ctx : PlanContext), ∃ r t, execute plan out fuel ctx = some (r,t) ∧
      ∀ step ∈ plan.steps, (callCount t.calls step.stepId : ℤ) ≤ 1+max 0 step.maxRetries.toInt) ↔
        ∀ step ∈ plan.steps, step.maxRetries ≠ 1) := by
  obtain ⟨r,hvalidate,hiff⟩ := validate_cases order (show plan.steps.length < fuel by omega)
  have hplan : plan.WellFormed := hiff.mp (Option.some.inj (hvalidate.symm.trans hok))
  have hlimit : ∀ (out : Surroundings) (ctx : PlanContext), ∃ r t,
      execute plan out fuel ctx = some (r,t) ∧
        ∀ step ∈ plan.steps, callCount t.calls step.stepId ≤ step.limit := by
    intro out ctx
    obtain ⟨r,t,hrun,hwithin,-⟩ := execute_spends hplan out ctx hfuel
    refine ⟨r,t,hrun,fun step hstep => ?_⟩
    have hle := hwithin.limited step.stepId (mem_map_of_mem hstep)
    rwa [getStep_of_mem hplan hstep] at hle
  refine ⟨hlimit,?_,?_⟩
  · intro hall step hstep
    obtain ⟨r,t,hrun,hbound⟩ := hall (failing step.stepId) {}
    obtain ⟨r',t',hrun',hcount⟩ := execute_failing hplan (mem_map_of_mem hstep) hfuel
    obtain ⟨rfl,rfl⟩ := Prod.mk.inj (Option.some.inj (hrun.symm.trans hrun'))
    rw [getStep_of_mem hplan hstep] at hcount
    exact step.limit_le_budget_iff.mp (hcount ▸ hbound step hstep)
  · intro hsteps out ctx
    obtain ⟨r,t,hrun,hle⟩ := hlimit out ctx
    refine ⟨r,t,hrun,fun step hstep => ?_⟩
    exact (Int.ofNat_le.mpr (hle step hstep)).trans (step.limit_le_budget_iff.mpr (hsteps step hstep))

/-- A step with two retries is called three times at most, whatever it answers. -/
theorem two_retries_within_budget :
    let plan : ExecutionPlan := ⟨[{ stepId := "a", maxRetries := 2 }],.sequential,"AllOrNothing"⟩
    plan.validate default 8 = some (.ok ()) ∧ ∀ (out : Surroundings) (ctx : PlanContext),
      ∃ r t, execute plan out 8 ctx = some (r,t) ∧ (callCount t.calls "a" : ℤ) ≤ 3 := by
  intro plan
  have hok : plan.validate default 8 = some (.ok ()) := by decide +kernel
  refine ⟨hok,fun out ctx => ?_⟩
  obtain ⟨r,t,hrun,hle⟩ := (calls_within_budget_iff plan default
    (show 3*plan.steps.length+1 < 8 by decide) hok).2.mpr (by decide) out ctx
  exact ⟨r,t,hrun,hle _ (mem_singleton_self _)⟩

/-- A step with one retry that always fails is called three times. -/
theorem one_retry_called_three_times :
    let plan : ExecutionPlan := ⟨[{ stepId := "a", maxRetries := 1 }],.sequential,"AllOrNothing"⟩
    plan.validate default 8 = some (.ok ()) ∧
      (execute plan (failing "a") 8 {}).map (fun p => callCount p.2.calls "a") = some 3 := by
  decide +kernel

end SmoFramework.Runtime
