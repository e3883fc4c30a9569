import SmoFramework.Compiler.FinalValidator
import SmoFramework.Compiler.Smir

/-! From the blocks of a plan to a task graph (`GraphBuilder`, `Optimizer`). The counter of tasks is an
`int`, which does not overflow below 2^31 tasks. -/
namespace SmoFramework.Compiler
open Library List ExecutionGraph SmirInstruction

structure ExecutionPlan where
  contractId : String := ""
  targetNodes : List String := []
  shardKeys : List String := []
  smir : SmirModule := {}

def taskName (n : ℕ) : String := "t" ++ n.repr

def SmirInstruction.isTask (inst : SmirInstruction) : Bool :=
  inst.opcode = .call ∨ inst.opcode = .seq

def addTask (s : ℕ × List TaskNode) (inst : SmirInstruction) : ℕ × List TaskNode :=
  if inst.isTask then
    let counter := s.1+1
    let node : TaskNode := {
      taskId := taskName counter
      opcode := .CUSTOM
      dependsOn := if inst.opcode = .seq ∧ counter > 1 then [taskName (counter-1)] else []
      parametersJson := if inst.annotation = "" then "{}" else inst.annotation }
    (counter,s.2 ++ [node])
  else s

def build (hashHex : String → String) (time compiledAt : Int64) (plan : ExecutionPlan) :
    Result ExecutionGraph :=
  .ok {
    graphId := hashHex (plan.contractId ++ time.toInt.repr)
    intentId := plan.contractId
    nodes := (plan.smir.blocks.foldl (fun s block => block.instructions.foldl addTask s) (0,[])).2
    compiledAt }

/-- `Optimizer::optimize`. The set of referenced tasks is not used in the source. -/
def optimize (graph : ExecutionGraph) : Result ExecutionGraph :=
  .ok { graph with nodes := graph.nodes.filter (·.taskId ≠ "") }

/-! What is built. -/

variable (plan : ExecutionPlan)

def ExecutionPlan.tasks : List SmirInstruction :=
  plan.smir.blocks.flatMap fun block => block.instructions.filter isTask

def taskNode (inst : SmirInstruction) (k : ℕ) : TaskNode where
  taskId := taskName (k+1)
  opcode := .CUSTOM
  dependsOn := if inst.opcode = .seq ∧ k+1 > 1 then [taskName k] else []
  parametersJson := if inst.annotation = "" then "{}" else inst.annotation

variable (tasks : List SmirInstruction)

def taskNodes (k : ℕ) : List TaskNode :=
  (tasks.zipIdx k).map fun p => taskNode p.1 p.2

lemma foldl_addTask (insts : List SmirInstruction) (k : ℕ) (nodes : List TaskNode) :
    insts.foldl addTask (k,nodes) = (k+(insts.filter isTask).length,
      nodes ++ taskNodes (insts.filter isTask) k) := by
  induction insts generalizing k nodes with
  | nil => simp [taskNodes]
  | cons inst insts ih =>
    rw [foldl_cons,addTask]
    by_cases htask : inst.isTask = true
    · rw [if_pos htask,ih,filter_cons_of_pos htask]
      simp [taskNodes,taskNode,Nat.add_comm,Nat.add_left_comm]
    · rw [if_neg htask,ih,filter_cons_of_neg htask]

lemma nodes_build :
    (plan.smir.blocks.foldl (fun s block => block.instructions.foldl addTask s) (0,[])).2 =
      taskNodes plan.tasks 0 := by
  rw [← foldl_flatMap,foldl_addTask,filter_flatMap]
  rfl

lemma taskName_injective : Function.Injective taskName := by
  intro m n h
  have hdigits := congrArg String.toList ((String.append_right_inj "t").mp h)
  rw [Nat.toList_repr,Nat.toList_repr] at hdigits
  rw [← Nat.ofDigitChars_ten_toDigits (n := m),hdigits,Nat.ofDigitChars_ten_toDigits]

lemma taskName_ne_empty (n : ℕ) : taskName n ≠ "" := by
  intro h
  have hlen := congrArg String.length h
  rw [taskName] at hlen
  simp at hlen

lemma getElem?_taskNodes (k i : ℕ) :
    (taskNodes tasks k)[i]? = (tasks[i]?).map fun inst => taskNode inst (k+i) := by
  rw [taskNodes,getElem?_map,getElem?_zipIdx,Option.map_map]
  rfl

lemma length_taskNodes (k : ℕ) :
    (taskNodes tasks k).length = tasks.length := by
  simp [taskNodes]

variable {tasks}

lemma optimize_taskNodes (h : graph.nodes = taskNodes tasks 0) : optimize graph = .ok graph := by
  have hall : ∀ node ∈ graph.nodes, decide (node.taskId ≠ "") = true := by
    rw [h,taskNodes,forall_mem_map]
    exact fun p _ => decide_eq_true (taskName_ne_empty _)
  rw [optimize,filter_eq_self.mpr hall]

/-! The graph that comes out. -/

namespace ExecutionGraph
variable {graph : ExecutionGraph} {tasks : List SmirInstruction}

lemma getElem?_nodes (h : graph.nodes = taskNodes tasks 0)
    (hinst : tasks[k]? = some inst) : graph.nodes[k]? = some (taskNode inst k) := by
  rw [h,getElem?_taskNodes,hinst,Nat.zero_add]
  rfl

lemma nodup_taskNodes (h : graph.nodes = taskNodes tasks 0) : graph.taskIds.Nodup := by
  have hat : ∀ i < tasks.length, graph.taskIds[i]? = some (taskName (i+1)) := by
    intro i hi
    rw [taskIds,getElem?_map,getElem?_nodes h (getElem?_eq_getElem hi)]
    rfl
  rw [nodup_iff_getElem?_ne_getElem?]
  intro i j hij hj heq
  rw [taskIds,length_map,h,length_taskNodes] at hj
  rw [hat i (hij.trans hj),hat j hj] at heq
  have hsucc := taskName_injective (Option.some.inj heq)
  omega

lemma precedes_taskNodes (h : graph.nodes = taskNodes tasks 0) (hdep : graph.Precedes dep task) :
    ∃ k, k+1 < tasks.length ∧ dep = taskName (k+1) ∧ task = taskName (k+2) := by
  obtain ⟨node,hnode,rfl,hmem⟩ := hdep
  rw [h] at hnode
  obtain ⟨i,hi⟩ := List.getElem?_of_mem hnode
  rw [getElem?_taskNodes,Nat.zero_add] at hi
  obtain ⟨inst,hinst,rfl⟩ := Option.map_eq_some_iff.mp hi
  have hlt := (List.getElem?_eq_some_iff.mp hinst).1
  rw [taskNode] at hmem
  dsimp only at hmem
  split_ifs at hmem with hseq
  · obtain ⟨k,rfl⟩ : ∃ k, i = k+1 := ⟨i-1,by omega⟩
    exact ⟨k,hlt,List.mem_singleton.mp hmem,rfl⟩
  · cases hmem

lemma transGen_taskNodes (h : graph.nodes = taskNodes tasks 0)
    (hpath : Relation.TransGen graph.Precedes dep task) :
    ∃ i j, i < j ∧ dep = taskName i ∧ task = taskName j := by
  induction hpath with
  | single hstep =>
    obtain ⟨k,-,rfl,rfl⟩ := precedes_taskNodes h hstep
    exact ⟨k+1,k+2,Nat.lt_succ_self _,rfl,rfl⟩
  | tail _ hstep ih =>
    obtain ⟨i,j,hlt,rfl,hj⟩ := ih
    obtain ⟨k,-,hk,rfl⟩ := precedes_taskNodes h hstep
    have hjk : j = k+1 := taskName_injective (hj.symm.trans hk)
    exact ⟨i,k+2,by omega,rfl,rfl⟩

lemma acyclic_taskNodes (h : graph.nodes = taskNodes tasks 0) : graph.Acyclic := by
  intro id hcycle
  obtain ⟨i,j,hlt,hi,hj⟩ := transGen_taskNodes h hcycle
  have heq := taskName_injective (hi.symm.trans hj)
  omega

lemma known_taskNodes (h : graph.nodes = taskNodes tasks 0) : graph.DependenciesKnown := by
  intro node hnode dep hdep
  obtain ⟨k,hk,rfl,-⟩ := precedes_taskNodes h ⟨node,hnode,rfl,hdep⟩
  exact ⟨_,mem_of_getElem? (getElem?_nodes h (getElem?_eq_getElem (Nat.lt_of_succ_lt hk))),rfl⟩

lemma valid_taskNodes (h : graph.nodes = taskNodes tasks 0) (hne : 1 ≤ tasks.length)
    (hnodes : tasks.length ≤ cfg.maxNodes.toNat) (hdepth : tasks.length-1 ≤ cfg.maxDepth.toNat) :
    graph.Valid cfg := by
  have hlen : graph.nodes.length = tasks.length := by rw [h,length_taskNodes]
  have hknown := known_taskNodes h
  have hacyclic := acyclic_taskNodes h
  refine ⟨hlen ▸ hne,hlen ▸ hnodes,hknown,hacyclic,(shallow_iff hknown).mp fun node hnode l hl => ?_⟩
  have hlt := path_length_lt hacyclic hnode hl
  omega

end ExecutionGraph

/-- A plan with `n ≥ 1` instructions that become tasks gives `n` tasks with different ids in order,
each waiting for the one before it or for none; every configuration that allows as many accepts the
graph. -/
theorem build_optimize_validate (hashHex : String → String) (time compiledAt : Int64)
    (plan : ExecutionPlan) (hne : 1 ≤ plan.tasks.length) :
    ∃ graph, (build hashHex time compiledAt plan >>= optimize) = .ok graph ∧
      graph.nodes.length = plan.tasks.length ∧ graph.taskIds.Nodup ∧
      (∀ k inst, plan.tasks[k]? = some inst → ∃ node, graph.nodes[k]? = some node ∧
        node.taskId = taskName (k+1) ∧ node.opcode = .CUSTOM ∧
        node.parametersJson = (if inst.annotation = "" then "{}" else inst.annotation) ∧
        ∀ dep ∈ node.dependsOn, ∃ j previous, k = j+1 ∧ graph.nodes[j]? = some previous ∧
          dep = previous.taskId) ∧
      ∀ cfg fuel, plan.tasks.length ≤ cfg.maxNodes.toNat → plan.tasks.length-1 ≤ cfg.maxDepth.toNat →
        plan.tasks.length < fuel → validate fuel graph cfg = some (.ok graph) := by
  let graph : ExecutionGraph :=
    { graphId := hashHex (plan.contractId ++ time.toInt.repr), intentId := plan.contractId
      nodes := taskNodes plan.tasks 0, compiledAt }
  have hnodes : graph.nodes = taskNodes plan.tasks 0 := rfl
  have hbuild : build hashHex time compiledAt plan = .ok graph := by
    rw [build,nodes_build]
  have hlen : graph.nodes.length = plan.tasks.length := length_taskNodes plan.tasks 0
  refine ⟨graph,?_,hlen,nodup_taskNodes hnodes,?_,?_⟩
  · rw [hbuild]
    exact optimize_taskNodes hnodes
  · intro k inst hinst
    have hat := getElem?_nodes hnodes hinst
    refine ⟨_,hat,rfl,rfl,rfl,fun dep hdep => ?_⟩
    obtain ⟨j,hj,rfl,hk⟩ := precedes_taskNodes hnodes
      ⟨_,mem_of_getElem? hat,rfl,hdep⟩
    have hkj : k+1 = j+2 := taskName_injective hk
    have hprevious := getElem?_nodes hnodes
      (getElem?_eq_getElem (Nat.lt_of_succ_lt hj))
    exact ⟨j,_,by omega,hprevious,rfl⟩
  · intro cfg fuel hmax hdepth hfuel
    exact (valid_taskNodes hnodes hne hmax hdepth).validate (hlen ▸ hfuel)

def callThenSeq : ExecutionPlan :=
  { smir := { blocks := [{ instructions := [{ opcode := .call },{ opcode := .load }] },
      { instructions := [{ opcode := .seq, annotation := "x" }] }] } }

theorem build_optimize_validate_pair : ∃ graph,
    (build id 0 0 callThenSeq >>= optimize) = .ok graph ∧ graph.nodes.length = 2 ∧
      validate 3 graph {} = some (.ok graph) := by
  obtain ⟨graph,hbuild,hlen,-,-,hvalid⟩ := build_optimize_validate id 0 0 callThenSeq (by decide)
  exact ⟨graph,hbuild,hlen,hvalid {} 3 (by decide) (by decide) (by decide)⟩

end SmoFramework.Compiler
