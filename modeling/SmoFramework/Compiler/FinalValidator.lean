import SmoFramework.Library.ChainHeight
import SmoFramework.Library.Kahn
import SmoFramework.Opcode.Registry

/-! The last check on a compiled task graph (`compiler/validator/final.cpp`). In-degrees are unbounded
integers here; a C++ `int` holds them as long as a task has fewer than 2^31 dependencies. A search
that does not end within its fuel answers `none`. -/
namespace SmoFramework.Compiler
open Library Library.ChainHeight List Kahn AssocMap

structure TaskNode where
  taskId : String
  opcode : Opcode
  dependsOn : List String
  parametersJson : String
  deriving DecidableEq

structure ExecutionGraph where
  graphId : String
  intentId : String
  nodes : List TaskNode
  compiledAt : Int64 := 0
  deriving DecidableEq

/-- `FinalValidator::Config`; the width limit is never read. -/
structure Config where
  maxDepth : UInt32 := 64
  maxNodes : UInt32 := 1024
  rejectCycles : Bool := true

namespace ExecutionGraph
variable (graph : ExecutionGraph)

def taskIds : List String := graph.nodes.map TaskNode.taskId

def edges : List (String × String) :=
  edgesOf TaskNode.taskId TaskNode.dependsOn graph.nodes

def declare {α : Type} (value : α) : AssocMap String α :=
  graph.taskIds.foldl (fun m id => if m.contains id then m else m.insert id value) AssocMap.empty

def adjacency : AssocMap String (List String) := graph.edges.foldl addEdge (graph.declare [])

def inDegrees : AssocMap String ℤ := graph.edges.foldl countEdge (graph.declare 0)

/-- `has_cycle`. A `std::map` is iterated in the order of its keys. -/
def hasCycle (fuel : ℕ) : Option Bool :=
  let listing := graph.inDegrees.entries.insertionSort (fun a b => a.1 ≤ b.1)
  let queue := (listing.filter (fun e => e.2 = 0)).map Prod.fst
  (run (targets graph.adjacency) fuel ⟨graph.inDegrees,queue,[]⟩).map
    (fun t => t.order.length ≠ graph.adjacency.entries.length)

end ExecutionGraph

/-- `max_depth_dfs`, with the memo it leaves behind. -/
def maxDepthDfs (succ : String → List String) :
    ℕ → String → AssocMap String UInt32 → Option (UInt32 × AssocMap String UInt32)
  | 0,_,_ => none
  | fuel+1,node,memo =>
    match memo.find node with
    | some depth => some (depth,memo)
    | none => do
      let (depth,memo) ← (succ node).foldlM (fun (depth,memo) child => do
        let (below,memo) ← maxDepthDfs succ fuel child memo
        pure (if depth < 1+below then 1+below else depth,memo)) (0,memo)
      pure (depth,memo.insert node depth)

def depthsWithin (succ : String → List String) (fuel : ℕ) (maxDepth : UInt32) :
    List TaskNode → AssocMap String UInt32 → Option Bool
  | [],_ => some true
  | node::nodes,memo => do
    let (depth,memo) ← maxDepthDfs succ fuel node.taskId memo
    if depth > maxDepth then pure false else depthsWithin succ fuel maxDepth nodes memo

def validate (fuel : ℕ) (graph : ExecutionGraph) (cfg : Config) : Option (Result ExecutionGraph) :=
  if graph.nodes = [] then
    some (.error (smoErrCompiler 10 .error .noRetry .none "DAG has no nodes"))
  else if graph.nodes.length > cfg.maxNodes.toNat then
    some (.error (smoErrCompiler 11 .error .noRetry .none "DAG exceeds max nodes"))
  else do
    if (← if cfg.rejectCycles then graph.hasCycle fuel else some false) then
      return .error (smoErrCompiler 12 .error .noRetry .none "DAG contains a cycle")
    if (← depthsWithin (targets graph.adjacency) fuel cfg.maxDepth graph.nodes
        AssocMap.empty) then
      return .ok graph
    else return .error (smoErrCompiler 13 .error .noRetry .none "DAG exceeds max depth")

namespace ExecutionGraph

def Precedes (graph : ExecutionGraph) (dep task : String) : Prop :=
  ∃ node ∈ graph.nodes, node.taskId = task ∧ dep ∈ node.dependsOn

variable {graph : ExecutionGraph}

lemma mem_edges : (dep,task) ∈ graph.edges ↔ graph.Precedes dep task :=
  mem_edgesOf

lemma before_edges : Kahn.Before graph.edges = graph.Precedes := before_edgesOf _ _ _

lemma target_mem_taskIds (he : e ∈ graph.edges) : e.2 ∈ graph.taskIds :=
  target_mem_of_edgesOf he

lemma find_declare {α : Type} (value : α) (id : String) :
    (graph.declare value).find id = if id ∈ graph.taskIds then some value else none := by
  have hloop : ∀ (ids : List String) (m : AssocMap String α), (∀ k v, m.find k = some v → v = value) →
      (ids.foldl (fun m id => if m.contains id then m else m.insert id value) m).find id =
        if id ∈ ids then some value else m.find id := by
    intro ids
    induction ids with
    | nil => simp
    | cons k ids ih =>
      intro m hm
      rw [foldl_cons]
      by_cases hk : m.contains k = true
      · rw [if_pos hk,ih m hm]
        obtain ⟨v,hv⟩ := Option.isSome_iff_exists.mp hk
        obtain rfl := hm k v hv
        by_cases hid : id = k
        · simp [hid,hv]
        · simp [hid]
      · have hins : ∀ k' v, (m.insert k value).find k' = some v → v = value := by
          intro k' v hv
          rw [find_insert] at hv
          split_ifs at hv
          · exact (Option.some.inj hv).symm
          · exact hm k' v hv
        rw [if_neg hk,ih _ hins,find_insert]
        by_cases hid : id = k
        · simp [hid]
        · simp [hid]
  exact hloop graph.taskIds empty (fun k v h => by cases h)

lemma mem_keys_declare {α : Type} (value : α) (id : String) :
    id ∈ (graph.declare value).keys ↔ id ∈ graph.taskIds := by
  rw [mem_keys_iff,find_declare]
  split_ifs with h
  · simp [h]
  · simp [h]

lemma count_targets_adjacency (u v : String) :
    (targets graph.adjacency u).count v = graph.edges.count (u,v) := by
  have hempty : targets (graph.declare []) u = [] := by
    rw [targets,find_declare]
    split_ifs <;> rfl
  rw [adjacency,count_targets_foldl,hempty,count_nil,Nat.zero_add]

lemma mem_targets_adjacency :
    v ∈ targets graph.adjacency u ↔ graph.Precedes u v := by
  rw [← count_pos_iff,count_targets_adjacency,count_pos_iff,mem_edges]

lemma count_inDegrees (v : String) :
    Kahn.count graph.inDegrees v = Kahn.inDegree graph.edges v := by
  have hzero : Kahn.count (graph.declare 0) v = 0 := by
    rw [Kahn.count,find_declare]
    split_ifs <;> rfl
  rw [inDegrees,Kahn.count_foldl_countEdge,hzero,Int.zero_add]

lemma mem_keys_inDegrees (v : String) : v ∈ graph.inDegrees.keys ↔ v ∈ graph.taskIds := by
  rw [inDegrees,mem_keys_foldl_countEdge,mem_keys_declare]
  exact ⟨fun h => h.elim id fun ⟨u,hu⟩ => target_mem_taskIds hu,.inl⟩

lemma mem_keys_adjacency (u : String) :
    u ∈ graph.adjacency.keys ↔ u ∈ graph.taskIds ∨ ∃ v, (u,v) ∈ graph.edges := by
  rw [adjacency,mem_keys_foldl_addEdge,mem_keys_declare]

def DependenciesKnown (graph : ExecutionGraph) : Prop :=
  ∀ node ∈ graph.nodes, ∀ dep ∈ node.dependsOn, ∃ other ∈ graph.nodes, other.taskId = dep

lemma dependenciesKnown_iff :
    graph.DependenciesKnown ↔ ∀ e ∈ graph.edges, e.1 ∈ graph.taskIds := by
  constructor
  · rintro h e he
    obtain ⟨node,hnode,-,hdep⟩ := mem_edges.mp he
    exact mem_map.mpr (h node hnode e.1 hdep)
  · intro h node hnode dep hdep
    exact mem_map.mp (h (dep,node.taskId) (mem_edges.mpr ⟨node,hnode,rfl,hdep⟩))

def Acyclic (graph : ExecutionGraph) : Prop := ∀ id, ¬Relation.TransGen graph.Precedes id id

lemma hasCycle_spec (hfuel : graph.nodes.length < fuel) :
    ∃ b, graph.hasCycle fuel = some b ∧ (b = false ↔ graph.DependenciesKnown ∧ graph.Acyclic) := by
  have hkeys : ∀ e ∈ graph.edges, e.2 ∈ graph.inDegrees.keys := fun e he =>
    (mem_keys_inDegrees _).mpr (target_mem_taskIds he)
  have hlen : graph.inDegrees.keys.length ≤ graph.nodes.length := by
    have hsub : graph.inDegrees.keys ⊆ graph.taskIds := fun v hv => (mem_keys_inDegrees v).mp hv
    exact ((graph.inDegrees.nodup_keys.subperm hsub).length_le).trans (length_map _).le
  have hsort := perm_insertionSort (fun a b => a.1 ≤ b.1) graph.inDegrees.entries
  obtain ⟨t,hrun,hinv,horder⟩ := run_spec graph.inDegrees.nodup_keys hkeys count_targets_adjacency
    count_inDegrees (perm_zeros hsort) (hlen.trans_lt hfuel)
  refine ⟨_,by rw [hasCycle,hrun]; rfl,?_⟩
  have hsub : t.order ⊆ graph.adjacency.keys := fun v hv =>
    (mem_keys_adjacency v).mpr (.inl ((mem_keys_inDegrees v).mp (hinv.order_subset hv)))
  have hcover := covers_iff hkeys hinv.acc horder
  rw [before_edges] at hcover
  simp only [mem_keys_inDegrees] at hcover
  rw [dependenciesKnown_iff,Acyclic,← hcover,decide_eq_false_iff_not,not_not,
    ← length_keys,length_eq_iff_subset hinv.order_nodup graph.adjacency.nodup_keys hsub]
  constructor
  · intro hall v hv
    exact hall ((mem_keys_adjacency v).mpr (.inl ((mem_keys_inDegrees v).mp hv)))
  · intro hall u hu
    obtain hu | ⟨v,hv⟩ := (mem_keys_adjacency u).mp hu
    · exact hall ((mem_keys_inDegrees u).mpr hu)
    · exact ((horder v).mp (hall (hkeys _ hv))).2 u hv

end ExecutionGraph

def MemoOk (succ : String → List String) (memo : AssocMap String UInt32) : Prop :=
  ∀ id depth, memo.find id = some depth → HasHeight succ id depth.toNat

section Depth
variable {succ : String → List String}

lemma MemoOk.empty : MemoOk succ AssocMap.empty := fun _ _ h => by cases h

variable {memo : AssocMap String UInt32} {depth : UInt32}

lemma MemoOk.insert (h : MemoOk succ memo) {id : String} (hid : HasHeight succ id depth.toNat) :
    MemoOk succ (memo.insert id depth) := by
  intro id' depth' hfind
  rw [find_insert] at hfind
  split_ifs at hfind with heq
  · cases hfind
    exact heq ▸ hid
  · exact h id' depth' hfind

lemma heightVia_snoc_word
    (hvia : HeightVia succ children depth.toNat) (hchild : HasHeight succ child below.toNat)
    (hfit : 1+below.toNat < 2^32) : HeightVia succ (children ++ [child])
      (if depth < 1+below then 1+below else depth).toNat := by
  have hadd : (1+below).toNat = 1+below.toNat := by
    rw [UInt32.toNat_add,UInt32.toNat_one,Nat.mod_eq_of_lt hfit]
  convert hvia.snoc hchild using 1
  by_cases hlt : depth < 1+below
  · rw [if_pos hlt]
    rw [UInt32.lt_iff_toNat_lt] at hlt
    omega
  · rw [if_neg hlt]
    rw [UInt32.lt_iff_toNat_lt] at hlt
    omega

lemma foldlM_deepest
    {call : String → AssocMap String UInt32 → Option (UInt32 × AssocMap String UInt32)}
    (hcall : ∀ child ∈ todo, ∀ memo, MemoOk succ memo → ∃ below memo',
      call child memo = some (below,memo') ∧ HasHeight succ child below.toNat ∧
      1+below.toNat < 2^32 ∧ MemoOk succ memo')
    (hvia : HeightVia succ done depth.toNat) (hmemo : MemoOk succ memo) :
    ∃ depth' memo', todo.foldlM (fun (depth,memo) child => do
        let (below,memo) ← call child memo
        pure (if depth < 1+below then 1+below else depth,memo)) (depth,memo) =
          some (depth',memo') ∧
      HeightVia succ (done ++ todo) depth'.toNat ∧ MemoOk succ memo' := by
  induction todo generalizing done depth memo with
  | nil => exact ⟨depth,memo,rfl,by rwa [append_nil],hmemo⟩
  | cons child todo ih =>
    obtain ⟨below,memo₁,hfirst,hheight,hfit,hmemo₁⟩ := hcall child mem_cons_self memo hmemo
    obtain ⟨depth',memo',hrest,hdone,hmemo'⟩ := ih
      (fun c hc => hcall c (mem_cons_of_mem _ hc)) (heightVia_snoc_word hvia hheight hfit) hmemo₁
    refine ⟨depth',memo',?_,by rwa [append_assoc] at hdone,hmemo'⟩
    simpa only [foldlM_cons,hfirst,Option.bind_eq_bind,Option.bind_some,Option.pure_def]
      using hrest

lemma maxDepthDfs_spec (hmemo : MemoOk succ memo)
    (hshort : ∀ l, IsPath succ (node::l) → l.length < fuel ∧ l.length < 2^32) :
    ∃ depth memo', maxDepthDfs succ fuel node memo = some (depth,memo') ∧
      HasHeight succ node depth.toNat ∧ MemoOk succ memo' := by
  induction fuel generalizing node memo with
  | zero => exact absurd (hshort [] (isChain_singleton _)).1 (Nat.not_lt_zero _)
  | succ fuel ih =>
    cases hfind : memo.find node with
    | some depth => exact ⟨depth,memo,by simp [maxDepthDfs,hfind],hmemo node depth hfind,hmemo⟩
    | none =>
      have hcall : ∀ child ∈ succ node, ∀ memo, MemoOk succ memo → ∃ below memo',
          maxDepthDfs succ fuel child memo = some (below,memo') ∧
            HasHeight succ child below.toNat ∧ 1+below.toNat < 2^32 ∧ MemoOk succ memo' := by
        intro child hedge memo hmemo
        have hlonger : ∀ l, IsPath succ (child::l) → l.length+1 < fuel+1 ∧ l.length+1 < 2^32 :=
          fun l hl => hshort (child::l) (isChain_cons_cons.mpr ⟨hedge,hl⟩)
        obtain ⟨below,memo',heq,hheight,hmemo'⟩ := ih hmemo fun l hl =>
          ⟨Nat.lt_of_succ_lt_succ (hlonger l hl).1,Nat.lt_of_succ_lt (hlonger l hl).2⟩
        obtain ⟨l,hl,hlen⟩ := hheight.attained
        exact ⟨below,memo',heq,hheight,by have := (hlonger l hl).2; omega,hmemo'⟩
      have hstart : HeightVia succ [] (0 : UInt32).toNat := HeightVia.nil
      obtain ⟨depth,memo',hfold,hvia,hmemo'⟩ := foldlM_deepest hcall hstart hmemo
      refine ⟨depth,memo'.insert node depth,?_,hvia.hasHeight,hmemo'.insert hvia.hasHeight⟩
      simp only [maxDepthDfs,hfind]
      rw [hfold]
      rfl

lemma depthsWithin_spec (hmemo : MemoOk succ memo)
    (hshort : ∀ node ∈ nodes, ∀ l, IsPath succ (node.taskId::l) → l.length < fuel ∧ l.length < 2^32)
    : ∃ b, depthsWithin succ fuel maxDepth nodes memo = some b ∧
      (b = true ↔ ∀ node ∈ nodes, ∀ l, IsPath succ (node.taskId::l) →
        l.length ≤ maxDepth.toNat) := by
  induction nodes generalizing memo with
  | nil => exact ⟨true,rfl,by simp⟩
  | cons node nodes ih =>
    obtain ⟨depth,memo',hcall,hheight,hmemo'⟩ :=
      maxDepthDfs_spec hmemo (hshort node mem_cons_self)
    obtain ⟨b,hrest,hb⟩ := ih hmemo' fun n hn => hshort n (mem_cons_of_mem _ hn)
    obtain ⟨l,hl,hlen⟩ := hheight.attained
    rw [depthsWithin,hcall]
    by_cases hdeep : maxDepth < depth
    · refine ⟨false,by simp [hdeep],by simp,fun h => ?_⟩
      have := h node mem_cons_self l hl
      rw [UInt32.lt_iff_toNat_lt] at hdeep
      omega
    · refine ⟨b,by simpa [hdeep] using hrest,?_⟩
      rw [hb,forall_mem_cons]
      exact ⟨fun h => ⟨fun l hl => (hheight.le l hl).trans (Nat.le_of_not_lt hdeep),h⟩,And.right⟩

end Depth

namespace ExecutionGraph

/-- A chain is a list of task ids in which each one precedes the next. -/
structure Valid (graph : ExecutionGraph) (cfg : Config) : Prop where
  nonempty : 1 ≤ graph.nodes.length
  bounded : graph.nodes.length ≤ cfg.maxNodes.toNat
  known : graph.DependenciesKnown
  acyclic : graph.Acyclic
  shallow : ∀ chain : List String, chain.IsChain graph.Precedes →
    chain.length-1 ≤ cfg.maxDepth.toNat

variable {graph : ExecutionGraph}

lemma isPath_adjacency :
    IsPath (targets graph.adjacency) points ↔ points.IsChain graph.Precedes := by
  simp only [IsPath,mem_targets_adjacency]

theorem shallow_iff (hknown : graph.DependenciesKnown) :
    (∀ node ∈ graph.nodes, ∀ l, IsPath (targets graph.adjacency) (node.taskId::l) →
      l.length ≤ limit) ↔
    ∀ chain : List String, chain.IsChain graph.Precedes → chain.length-1 ≤ limit := by
  simp only [isPath_adjacency]
  constructor
  · intro h chain hchain
    match chain with
    | [] => exact Nat.zero_le _
    | [_] => exact Nat.zero_le _
    | u::v::l =>
      obtain ⟨node,hnode,-,hdep⟩ := (isChain_cons_cons.mp hchain).1
      obtain ⟨first,hfirst,rfl⟩ := hknown node hnode u hdep
      exact h first hfirst (v::l) hchain
  · intro h node _ l hl
    exact h (node.taskId::l) hl

lemma path_length_lt (hacyclic : graph.Acyclic) (hnode : node ∈ graph.nodes)
    (hl : IsPath (targets graph.adjacency) (node.taskId::l)) :
    l.length < graph.nodes.length := by
  have hfirst : node.taskId ∈ graph.taskIds := mem_map_of_mem hnode
  have hrest : ∀ v ∈ l, v ∈ graph.taskIds :=
    List.IsChain.cons_induction (· ∈ graph.taskIds) l hl
      (fun _ _ huv _ => target_mem_taskIds (mem_edges.mpr (mem_targets_adjacency.mp huv))) hfirst
  have hacyclic' : ∀ v, ¬Relation.TransGen (fun u v => v ∈ targets graph.adjacency u) v v := by
    simp only [mem_targets_adjacency]
    exact hacyclic
  have hlen := IsPath.length_le hacyclic' hl (forall_mem_cons.mpr ⟨hfirst,hrest⟩)
  rw [taskIds,length_map] at hlen
  exact hlen

lemma short_paths (hacyclic : graph.Acyclic) {cfg : Config}
    (hbounded : graph.nodes.length ≤ cfg.maxNodes.toNat) (hfuel : graph.nodes.length < fuel) :
    ∀ node ∈ graph.nodes, ∀ l, IsPath (targets graph.adjacency) (node.taskId::l) →
      l.length < fuel ∧ l.length < 2^32 := by
  intro node hnode l hl
  have hlt := path_length_lt hacyclic hnode hl
  have hword := cfg.maxNodes.toNat_lt
  exact ⟨hlt.trans hfuel,by omega⟩

/-- A valid graph is accepted also where cycles are not looked for. -/
theorem Valid.validate (h : graph.Valid cfg)
    (hfuel : graph.nodes.length < fuel) : validate fuel graph cfg = some (.ok graph) := by
  have hempty : graph.nodes ≠ [] := length_pos_iff.mp h.nonempty
  obtain ⟨cyclic,hcycle,hcyclic⟩ := hasCycle_spec hfuel
  rw [hcyclic.mpr ⟨h.known,h.acyclic⟩] at hcycle
  obtain ⟨within,hwithin,hdepth⟩ :=
    depthsWithin_spec MemoOk.empty (short_paths h.acyclic h.bounded hfuel)
  rw [shallow_iff h.known] at hdepth
  rw [hdepth.mpr h.shallow] at hwithin
  rw [Compiler.validate,if_neg hempty,if_neg (Nat.not_lt.mpr h.bounded),hcycle,hwithin]
  cases cfg.rejectCycles with
  | true => rfl
  | false => rfl

end ExecutionGraph

/-- An answer to the graph is right: it is the graph itself if the graph is valid, an error if
not. -/
def Answers (graph : ExecutionGraph) (cfg : Config) (r : Result ExecutionGraph) : Prop :=
  ((∃ out, r = .ok out) ↔ graph.Valid cfg) ∧ ∀ out, r = .ok out → out = graph

lemma answers_error (e : Error) (h : ¬graph.Valid cfg) : Answers graph cfg (.error e) :=
  ⟨⟨fun ⟨_,hout⟩ => (by cases hout),fun hvalid => absurd hvalid h⟩,fun _ hout => by cases hout⟩

lemma answers_ok (h : graph.Valid cfg) : Answers graph cfg (.ok graph) :=
  ⟨⟨fun _ => h,fun _ => ⟨graph,rfl⟩⟩,fun _ hout => by cases hout; rfl⟩

/-- The validator always answers. It accepts exactly the valid graphs and hands them back as they
are. -/
theorem validate_accepts_exactly_valid (graph : ExecutionGraph) (cfg : Config)
    (hreject : cfg.rejectCycles = true) {fuel : ℕ} (hfuel : graph.nodes.length < fuel) :
    ∃ r, validate fuel graph cfg = some r ∧ ((∃ out, r = .ok out) ↔ graph.Valid cfg) ∧
      ∀ out, r = .ok out → out = graph := by
  simp only [validate,hreject]
  by_cases hempty : graph.nodes = []
  · exact ⟨_,if_pos hempty,answers_error _ fun h : graph.Valid cfg => by simpa [hempty] using h.nonempty⟩
  rw [if_neg hempty]
  by_cases hlarge : graph.nodes.length > cfg.maxNodes.toNat
  · exact ⟨_,if_pos hlarge,answers_error _ fun h => absurd h.bounded (Nat.not_le.mpr hlarge)⟩
  rw [if_neg hlarge]
  obtain ⟨cyclic,hcycle,hcyclic⟩ := ExecutionGraph.hasCycle_spec hfuel
  rw [hcycle]
  cases cyclic with
  | true =>
    refine ⟨_,rfl,answers_error _ fun h => ?_⟩
    cases hcyclic.mpr ⟨h.known,h.acyclic⟩
  | false =>
    obtain ⟨hknown,hacyclic⟩ := hcyclic.mp rfl
    have hshort := ExecutionGraph.short_paths hacyclic (Nat.le_of_not_lt hlarge) hfuel
    obtain ⟨within,hwithin,hdepth⟩ := depthsWithin_spec MemoOk.empty hshort
    rw [ExecutionGraph.shallow_iff hknown] at hdepth
    rw [Option.bind_eq_bind,hwithin]
    cases within with
    | true =>
      exact ⟨_,rfl,answers_ok
        ⟨length_pos_iff.mpr hempty,Nat.le_of_not_lt hlarge,hknown,hacyclic,hdepth.mp rfl⟩⟩
    | false =>
      refine ⟨_,rfl,answers_error _ fun h => ?_⟩
      cases hdepth.mpr h.shallow

theorem validate_accepts_pair :
    let graph : ExecutionGraph := ⟨"g","i",[⟨"a",.LS,[],""⟩,⟨"b",.PUT,["a"],""⟩],0⟩
    graph.Valid {} := by
  intro graph
  obtain ⟨r,hr,hvalid,-⟩ := validate_accepts_exactly_valid graph {} rfl
    (show graph.nodes.length < 3 by decide)
  refine hvalid.mp ⟨graph,?_⟩
  have hrun : validate 3 graph {} = some (.ok graph) := by decide +kernel
  exact Option.some.inj (hr.symm.trans hrun)

end SmoFramework.Compiler
