import SmoFramework.Errors
import SmoFramework.Library.Kahn

/-! Execution plans and their check (`core/runtime/runtime_types`). In-degrees are unbounded
integers here; a C++ `int` holds them as long as a step has fewer than 2^31 dependencies. The hash
table of in-degrees is iterated in an order that the source leaves open. What neither
the check nor the executor reads is left out. -/
namespace SmoFramework.Runtime
open Library AssocMap Kahn

inductive RuntimeErrorCategory
  | unknown | validation | notFound | unauthorized | policyDenied | timeout | network | resource
  | internal | contract | compensation
  deriving DecidableEq, Repr

structure RuntimeError where
  category : RuntimeErrorCategory := .unknown
  code : ℕ := 0
  message : String := "ok"
  retryable : Bool := false
  fatal : Bool := false
  deriving DecidableEq, Repr

namespace RuntimeError

def validation (message : String) : RuntimeError := ⟨.validation,1000,message,false,false⟩
def internal (message : String) : RuntimeError := ⟨.internal,1007,message,false,true⟩
def compensation (message : String) : RuntimeError := ⟨.compensation,1009,message,false,true⟩

def toError (e : RuntimeError) : Error :=
  smoErr .runtime (e.code % 2^16) (if e.fatal then .critical else .error)
    (if e.retryable then .retrySafe else .noRetry)
    (if e.fatal then .manualIntervention else .retryOperation) e.message

end RuntimeError

inductive ExecutionMode
  | sequential | parallel | pipeline
  deriving DecidableEq, Repr

structure Step where
  stepId : String := ""
  contractId : String := ""
  dependsOn : List String := []
  inputTemplate : String := ""
  outputBinding : String := ""
  compensationId : String := ""
  optional : Bool := false
  timeoutNs : UInt64 := 0
  maxRetries : Int32 := 0
  retryDelayNs : UInt64 := 1000000000
  deriving DecidableEq

structure ExecutionPlan where
  steps : List Step
  mode : ExecutionMode := .sequential
  rollbackPolicy : String := "AllOrNothing"

namespace ExecutionPlan
variable (plan : ExecutionPlan)

def stepIds : List String := plan.steps.map Step.stepId

def edges : List (String × String) := Kahn.edgesOf Step.stepId Step.dependsOn plan.steps

def enterId (m : AssocMap String ℕ) (entry : Step × ℕ) : Except RuntimeError (AssocMap String ℕ) :=
  if m.contains entry.1.stepId then
    .error (.validation ("duplicate step id: " ++ entry.1.stepId))
  else .ok (m.insert entry.1.stepId entry.2)

def idToIdx : Except RuntimeError (AssocMap String ℕ) :=
  plan.steps.zipIdx.foldlM enterId AssocMap.empty

def checkDependencies (ids : AssocMap String ℕ) : Except RuntimeError Unit :=
  plan.steps.forM (fun step => step.dependsOn.forM (fun dep =>
    if ids.contains dep then .ok ()
    else .error (.validation ("step '" ++ step.stepId ++ "' depends on unknown step '" ++ dep ++ "'"))))

def adjacency : AssocMap String (List String) := plan.edges.foldl Kahn.addEdge AssocMap.empty

def indegree : AssocMap String ℤ :=
  plan.edges.foldl Kahn.countEdge
    (plan.steps.foldl (fun m step => m.insert step.stepId 0) AssocMap.empty)

def validate (order : Iteration String) (fuel : ℕ) : Option (Result Unit) :=
  match (do plan.checkDependencies (← plan.idToIdx)) with
  | .error e => some (.error e.toError)
  | .ok () =>
    let queue := ((order.list plan.indegree.entries).filter (fun e => e.2 = 0)).map Prod.fst
    (Kahn.run (Kahn.targets plan.adjacency) fuel ⟨plan.indegree,queue,[]⟩).map (fun t =>
      if t.order.length ≠ plan.steps.length then
        .error (RuntimeError.validation "cycle detected in execution plan").toError
      else .ok ())

/-! What the check decides. -/

def Precedes (dep step : String) : Prop := ∃ s ∈ plan.steps, s.stepId = step ∧ dep ∈ s.dependsOn

structure WellFormed : Prop where
  distinct : plan.stepIds.Nodup
  known : ∀ step ∈ plan.steps, ∀ dep ∈ step.dependsOn, dep ∈ plan.stepIds
  acyclic : ∀ id, ¬Relation.TransGen plan.Precedes id id

variable {plan}

lemma mem_edges : (dep,step) ∈ plan.edges ↔ plan.Precedes dep step :=
  mem_edgesOf

lemma before_edges : Kahn.Before plan.edges = plan.Precedes := before_edgesOf _ _ _

lemma target_mem_stepIds (he : e ∈ plan.edges) : e.2 ∈ plan.stepIds :=
  target_mem_of_edgesOf he

lemma known_iff : (∀ step ∈ plan.steps, ∀ dep ∈ step.dependsOn, dep ∈ plan.stepIds) ↔
    ∀ e ∈ plan.edges, e.1 ∈ plan.stepIds := by
  constructor
  · intro h e he
    obtain ⟨step,hstep,-,hdep⟩ := mem_edges.mp he
    exact h step hstep e.1 hdep
  · intro h step hstep dep hdep
    exact h (dep,step.stepId) (mem_edges.mpr ⟨step,hstep,rfl,hdep⟩)

lemma foldlM_enterId (steps : List Step) (k : ℕ) (m : AssocMap String ℕ) :
    (∃ m', (steps.zipIdx k).foldlM enterId m = .ok m' ∧
      (∀ id ∈ steps.map Step.stepId, id ∉ m.keys) ∧ (steps.map Step.stepId).Nodup ∧
      ∀ id, id ∈ m'.keys ↔ id ∈ m.keys ∨ id ∈ steps.map Step.stepId) ∨
    (∃ e, (steps.zipIdx k).foldlM enterId m = .error e) ∧
      ¬((∀ id ∈ steps.map Step.stepId, id ∉ m.keys) ∧ (steps.map Step.stepId).Nodup) := by
  induction steps generalizing k m with
  | nil => exact .inl ⟨m,rfl,by simp⟩
  | cons step steps ih =>
    rw [List.zipIdx_cons,List.foldlM_cons,enterId]
    by_cases hmem : m.contains step.stepId = true
    · refine .inr ⟨⟨_,by rw [if_pos hmem]; rfl⟩,fun h => ?_⟩
      exact h.1 step.stepId List.mem_cons_self (mem_keys_iff.mpr hmem)
    · rw [if_neg hmem]
      have hnot : step.stepId ∉ m.keys := fun h => hmem (mem_keys_iff.mp h)
      -- The ids that remain have to avoid the id just entered as well.
      have hiff : ((∀ id ∈ steps.map Step.stepId, id ∉ (m.insert step.stepId k).keys) ∧
            (steps.map Step.stepId).Nodup) ↔
          (∀ id ∈ (step::steps).map Step.stepId, id ∉ m.keys) ∧
            ((step::steps).map Step.stepId).Nodup := by
        simp only [mem_keys_insert,List.map_cons,List.forall_mem_cons,List.nodup_cons,not_or]
        constructor
        · rintro ⟨h,hnodup⟩
          exact ⟨⟨hnot,fun id hid => (h id hid).2⟩,fun hid => (h _ hid).1 rfl,hnodup⟩
        · rintro ⟨⟨-,h⟩,hfresh,hnodup⟩
          exact ⟨fun id hid => ⟨fun heq => hfresh (heq ▸ hid),h id hid⟩,hnodup⟩
      obtain ⟨m',hrun,hdisjoint,hnodup,hkeys⟩ | ⟨herror,hbad⟩ := ih (k+1) (m.insert step.stepId k)
      · obtain ⟨hdisjoint,hnodup⟩ := hiff.mp ⟨hdisjoint,hnodup⟩
        refine .inl ⟨m',hrun,hdisjoint,hnodup,fun id => ?_⟩
        rw [hkeys,mem_keys_insert,List.map_cons,List.mem_cons]
        tauto
      · exact .inr ⟨herror,fun h => hbad (hiff.mpr h)⟩

lemma forM_eq_ok {α ε : Type} {f : α → Except ε Unit} {l : List α} :
    l.forM f = .ok () ↔ ∀ a ∈ l, f a = .ok () := by
  induction l with
  | nil => simp [pure,Except.pure]
  | cons a l ih =>
    rw [List.forall_mem_cons,← ih,List.forM]
    cases f a <;> simp [bind,Except.bind]

lemma names_ok_iff : (do plan.checkDependencies (← plan.idToIdx)) = .ok () ↔
    plan.stepIds.Nodup ∧ ∀ step ∈ plan.steps, ∀ dep ∈ step.dependsOn, dep ∈ plan.stepIds := by
  unfold idToIdx
  obtain ⟨m,hrun,-,hnodup,hkeys⟩ | ⟨⟨e,hrun⟩,hbad⟩ := foldlM_enterId plan.steps 0 empty
  · have hcontains : ∀ id, m.contains id = true ↔ id ∈ plan.stepIds := by
      intro id
      rw [contains,← mem_keys_iff,hkeys]
      simp [empty,keys,stepIds]
    rw [hrun]
    simp only [bind,Except.bind,checkDependencies,forM_eq_ok,ite_eq_left_iff,reduceCtorEq,imp_false,
      not_not,hcontains]
    exact (and_iff_right hnodup).symm
  · rw [hrun]
    refine ⟨fun h => (by cases h),fun h => absurd ⟨fun _ _ => ?_,h.1⟩ hbad⟩
    simp [empty,keys]

lemma count_targets_adjacency (u v : String) :
    (Kahn.targets plan.adjacency u).count v = plan.edges.count (u,v) := by
  rw [adjacency,count_targets_foldl]
  exact Nat.zero_add _

lemma mem_keys_indegree (v : String) : v ∈ plan.indegree.keys ↔ v ∈ plan.stepIds := by
  rw [indegree,mem_keys_foldl_countEdge,mem_keys_foldl_insert Step.stepId (fun _ _ => 0)]
  simp only [stepIds,List.mem_map]
  constructor
  · rintro ((h | h) | ⟨u,hu⟩)
    · cases h
    · exact h
    · exact List.mem_map.mp (target_mem_stepIds hu)
  · exact fun h => .inl (.inr h)

lemma count_indegree (v : String) : Kahn.count plan.indegree v = Kahn.inDegree plan.edges v := by
  have hzero : ∀ (steps : List Step) (m : AssocMap String ℤ), (∀ v, count m v = 0) →
      ∀ v, count (steps.foldl (fun m step => m.insert step.stepId 0) m) v = 0 := by
    intro steps
    induction steps with
    | nil => exact fun _ h => h
    | cons step steps ih =>
      intro m hm
      refine ih _ fun v => ?_
      rw [count_insert]
      split_ifs
      · rfl
      · exact hm v
  rw [indegree,count_foldl_countEdge,hzero plan.steps _ (fun _ => rfl),Int.zero_add]

theorem validate_cases (order : Iteration String) (hfuel : plan.steps.length < fuel) :
    ∃ r, plan.validate order fuel = some r ∧ (r = .ok () ↔ plan.WellFormed) := by
  unfold validate
  cases hnames : (do plan.checkDependencies (← plan.idToIdx)) with
  | error e =>
    refine ⟨_,rfl,fun h => (by cases h),fun h => ?_⟩
    rw [names_ok_iff.mpr ⟨h.distinct,h.known⟩] at hnames
    cases hnames
  | ok u =>
    obtain ⟨hdistinct,hknown⟩ := names_ok_iff.mp hnames
    have hkeys : ∀ e ∈ plan.edges, e.2 ∈ plan.indegree.keys := fun e he =>
      (mem_keys_indegree _).mpr (target_mem_stepIds he)
    have hlen : plan.indegree.keys.length = plan.steps.length := by
      have hperm : plan.indegree.keys.Perm plan.stepIds :=
        (List.perm_ext_iff_of_nodup plan.indegree.nodup_keys hdistinct).mpr mem_keys_indegree
      rw [hperm.length_eq,stepIds,List.length_map]
    obtain ⟨t,hrun,hinv,horder⟩ := run_spec plan.indegree.nodup_keys hkeys count_targets_adjacency
      count_indegree (perm_zeros (order.perm plan.indegree.entries)) (hlen.trans_lt hfuel)
    simp only [hrun,Option.map_some]
    refine ⟨_,rfl,?_⟩
    have hcover := covers_iff hkeys hinv.acc horder
    simp only [before_edges,mem_keys_indegree,← known_iff] at hcover
    have hvisited := (length_eq_iff_subset hinv.order_nodup plan.indegree.nodup_keys
      hinv.order_subset).trans hcover
    rw [hlen] at hvisited
    by_cases hall : t.order.length = plan.steps.length
    · simp only [hall,ne_eq,not_true_eq_false,if_false,true_iff]
      exact ⟨hdistinct,hknown,(hvisited.mp hall).2⟩
    · simp only [hall,ne_eq,not_false_eq_true,if_true]
      exact ⟨fun h => (by cases h),fun h => absurd (hvisited.mpr ⟨h.known,h.acyclic⟩) hall⟩

end ExecutionPlan

end SmoFramework.Runtime
