import Mathlib.Order.WellFoundedSet
import Mathlib.Tactic.Ring
import SmoFramework.Library.AssocMap
import SmoFramework.Library.FuelLoop

/-! Topological search with in-degree counters. Releasing `u` takes one off the counter of `v` for
every edge `(u,v)`; a vertex is handed out when its counter arrives at zero. The counters allow a
vertex to be released twice. The search with a queue hands out every vertex exactly when all sources
are vertices and there is no cycle. -/
namespace SmoFramework.Library.Kahn
open List AssocMap
variable {ι : Type*} [DecidableEq ι]

/-! Edges, counted with multiplicity. -/

/-- The edges that lead from the dependencies of some nodes to the nodes. -/
def edgesOf {α : Type*} (name : α → ι) (dependsOn : α → List ι) (nodes : List α) : List (ι × ι) :=
  nodes.flatMap (fun node => (dependsOn node).map (fun dep => (dep,name node)))

variable {α : Type*}

omit [DecidableEq ι] in
lemma mem_edgesOf {name : α → ι} {dependsOn : α → List ι} {nodes : List α}
    : (u,v) ∈ edgesOf name dependsOn nodes ↔
      ∃ node ∈ nodes, name node = v ∧ u ∈ dependsOn node := by
  simp only [edgesOf,mem_flatMap,mem_map,Prod.mk.injEq]
  constructor
  · rintro ⟨node,hnode,dep,hdep,rfl,rfl⟩
    exact ⟨node,hnode,rfl,hdep⟩
  · rintro ⟨node,hnode,rfl,hdep⟩
    exact ⟨node,hnode,u,hdep,rfl,rfl⟩

omit [DecidableEq ι] in
lemma target_mem_of_edgesOf {name : α → ι} {dependsOn : α → List ι} {nodes : List α}
    (he : e ∈ edgesOf name dependsOn nodes) : e.2 ∈ nodes.map name := by
  obtain ⟨node,hnode,hname,-⟩ := mem_edgesOf.mp he
  exact mem_map.mpr ⟨node,hnode,hname⟩

def inDegree (edges : List (ι × ι)) (v : ι) : ℕ := edges.countP (fun e => e.2 = v)

def freed (edges : List (ι × ι)) (released : List ι) (v : ι) : ℕ :=
  (released.map (fun u => edges.count (u,v))).sum

lemma inDegree_cons (e : ι × ι) (edges : List (ι × ι)) (v : ι) :
    inDegree (e::edges) v = inDegree edges v+(if e.2 = v then 1 else 0) := by
  simp [inDegree,countP_cons]

lemma freed_cons (e : ι × ι) (edges : List (ι × ι)) (released : List ι) (v : ι) :
    freed (e::edges) released v =
      freed edges released v+(if e.2 = v then released.count e.1 else 0) := by
  induction released with
  | nil => simp [freed]
  | cons u released ih =>
    have hcount : (e::edges).count (u,v) =
        edges.count (u,v)+(if e.2 = v then (if e.1 = u then 1 else 0) else 0) := by
      obtain ⟨a,b⟩ := e
      rw [count_cons]
      by_cases hb : b = v
      · by_cases ha : a = u
        · simp [hb,ha]
        · simp [hb,ha]
      · simp [hb]
    simp only [freed,map_cons,sum_cons] at ih ⊢
    rw [hcount,ih,count_cons]
    split_ifs with hv hu hu'
    · omega
    · simp_all
    · simp_all
    · omega
    · omega

lemma inDegree_le_freed {edges : List (ι × ι)}
    (h : ∀ u, (u,v) ∈ edges → u ∈ released) : inDegree edges v ≤ freed edges released v := by
  induction edges with
  | nil => exact Nat.zero_le _
  | cons e edges ih =>
    rw [inDegree_cons,freed_cons]
    have hrest := ih fun u hu => h u (mem_cons_of_mem _ hu)
    split_ifs with hv
    · have hmem : e.1 ∈ released := h e.1 (by rw [← hv]; exact mem_cons_self)
      have hpos := count_pos_iff.mpr hmem
      omega
    · omega

lemma freed_le_inDegree (honce : ∀ e ∈ edges, released.count e.1 ≤ 1) (v : ι) :
    freed edges released v ≤ inDegree edges v := by
  induction edges with
  | nil => simp [freed,inDegree]
  | cons e edges ih =>
    rw [inDegree_cons,freed_cons]
    obtain ⟨hone,hrest⟩ := forall_mem_cons.mp honce
    have hle := ih hrest
    split_ifs
    · omega
    · omega

lemma mem_of_inDegree_le_freed {edges : List (ι × ι)}
    (honce : ∀ e ∈ edges, released.count e.1 ≤ 1)
    (h : inDegree edges v ≤ freed edges released v) (hu : (u,v) ∈ edges) :
    u ∈ released := by
  induction edges with
  | nil => cases hu
  | cons e edges ih =>
    rw [inDegree_cons,freed_cons] at h
    obtain ⟨hone,hrest⟩ := forall_mem_cons.mp honce
    have hle := freed_le_inDegree hrest v
    rcases mem_cons.mp hu with rfl | hu
    · rw [if_pos rfl,if_pos rfl] at h
      change _ ≤ _+released.count u at h
      exact count_pos_iff.mp (by omega)
    · apply ih hrest ?_ hu
      split_ifs at h
      · omega
      · omega

/-! Counters. -/

def count (degree : AssocMap ι ℤ) (v : ι) : ℤ := (degree.find v).getD 0

lemma count_insert (degree : AssocMap ι ℤ) (v w : ι) (n : ℤ) :
    count (degree.insert v n) w = if w = v then n else count degree w := by
  unfold count
  rw [find_insert]
  split_ifs <;> rfl

/-- `if (--degree[v] == 0) queue.push(v)`. -/
def release (s : AssocMap ι ℤ × List ι) (v : ι) : AssocMap ι ℤ × List ι :=
  (s.1.insert v (count s.1 v-1),if count s.1 v-1 = 0 then s.2 ++ [v] else s.2)

lemma count_foldl_release (vs : List ι) (s : AssocMap ι ℤ × List ι) (v : ι) :
    count (vs.foldl release s).1 v = count s.1 v-vs.count v := by
  induction vs generalizing s with
  | nil => simp
  | cons w vs ih =>
    rw [foldl_cons,ih,release,count_insert,count_cons]
    by_cases hw : v = w
    · subst hw
      rw [if_pos rfl,if_pos (beq_self_eq_true v)]
      push_cast
      ring
    · rw [if_neg hw,if_neg (by simpa using Ne.symm hw),Nat.add_zero]

lemma foldl_release_queue (vs : List ι) (s : AssocMap ι ℤ × List ι) :
    ∃ new : List ι, (vs.foldl release s).2 = s.2 ++ new ∧
      ∀ v, new.count v = if 0 < count s.1 v ∧ count s.1 v ≤ vs.count v then 1 else 0 := by
  induction vs generalizing s with
  | nil =>
    refine ⟨[],by simp,fun v => ?_⟩
    rw [if_neg (by simp)]
    rfl
  | cons w vs ih =>
    obtain ⟨new,hqueue,hnew⟩ := ih (release s w)
    rw [foldl_cons,hqueue]
    refine ⟨(if count s.1 w-1 = 0 then [w] else []) ++ new,?_,fun v => ?_⟩
    · unfold release
      dsimp only
      split_ifs <;> simp
    · rw [count_append,hnew,release,count_insert,count_cons]
      by_cases hv : v = w
      · subst hv
        -- The counter of `v` itself has gone down by one.
        by_cases hone : count s.1 v-1 = 0
        · have hcount : count s.1 v = 1 := by omega
          simp [hcount]
        · simp only [hone,if_false,count_nil,Nat.zero_add,if_true,beq_self_eq_true]
          congr 1
          apply propext
          push_cast
          omega
      · have hsingle : (if count s.1 w-1 = 0 then [w] else []).count v = 0 := by
          split_ifs
          · exact count_eq_zero_of_not_mem (by simpa using hv)
          · rfl
        simp [hsingle,hv,Ne.symm hv]

/-! The tables are filled edge by edge. -/

variable (adj : AssocMap ι (List ι))

def targets (u : ι) : List ι := (adj.find u).getD []

def addEdge (e : ι × ι) : AssocMap ι (List ι) :=
  adj.insert e.1 (targets adj e.1 ++ [e.2])

/-- `degree[v]++`. -/
def countEdge (degree : AssocMap ι ℤ) (e : ι × ι) : AssocMap ι ℤ :=
  degree.insert e.2 (count degree e.2+1)

lemma count_targets_addEdge (e : ι × ι) (u v : ι) :
    (targets (addEdge adj e) u).count v = (targets adj u).count v+(if e = (u,v) then 1 else 0) := by
  obtain ⟨a,b⟩ := e
  by_cases ha : a = u
  · subst ha
    rw [targets,addEdge,find_insert,if_pos rfl,Option.getD_some,count_append]
    by_cases hb : b = v
    · simp [hb]
    · simp [hb]
  · rw [targets,addEdge,find_insert,if_neg (Ne.symm ha),← targets]
    simp [ha]

lemma count_targets_foldl (edges : List (ι × ι)) (adj : AssocMap ι (List ι)) (u v : ι) :
    (targets (edges.foldl addEdge adj) u).count v = (targets adj u).count v+edges.count (u,v) := by
  induction edges generalizing adj with
  | nil => simp
  | cons e edges ih =>
    rw [foldl_cons,ih,count_targets_addEdge,count_cons]
    simp only [beq_iff_eq]
    omega

lemma count_foldl_countEdge (edges : List (ι × ι)) (degree : AssocMap ι ℤ) (v : ι) :
    count (edges.foldl countEdge degree) v = count degree v+inDegree edges v := by
  induction edges generalizing degree with
  | nil => simp [inDegree]
  | cons e edges ih =>
    rw [foldl_cons,ih,countEdge,count_insert,inDegree_cons]
    by_cases hv : v = e.2
    · subst hv
      simp
      ring
    · simp [hv,Ne.symm hv]

lemma mem_keys_foldl_addEdge (edges : List (ι × ι)) (adj : AssocMap ι (List ι)) (u : ι) :
    u ∈ (edges.foldl addEdge adj).keys ↔ u ∈ adj.keys ∨ ∃ v, (u,v) ∈ edges :=
  (mem_keys_foldl_insert Prod.fst _ edges adj u).trans (or_congr_right (by simp))

lemma mem_keys_foldl_countEdge (edges : List (ι × ι)) (degree : AssocMap ι ℤ) (v : ι) :
    v ∈ (edges.foldl countEdge degree).keys ↔ v ∈ degree.keys ∨ ∃ u, (u,v) ∈ edges :=
  (mem_keys_foldl_insert Prod.snd _ edges degree v).trans (or_congr_right (by simp))

lemma perm_zeros {degree : AssocMap ι ℤ} {listing : List (ι × ℤ)}
    (h : listing.Perm degree.entries) : ((listing.filter (fun e => e.2 = 0)).map Prod.fst).Perm
      (degree.keys.filter (fun v => count degree v = 0)) := by
  refine ((h.filter _).map _).trans (List.Perm.of_eq ?_)
  rw [AssocMap.keys,filter_map]
  congr 1
  apply filter_congr
  rintro ⟨v,n⟩ he
  simp [count,mem_entries_iff.mp he]

/-- The counters after some releases, and the vertices handed out so far. -/
structure Tracks (edges : List (ι × ι)) (keys : List ι) (degree : AssocMap ι ℤ)
    (handed released : List ι) : Prop where
  degree_eq : ∀ v, count degree v = (inDegree edges v : ℤ)-freed edges released v
  handed_count : ∀ v, handed.count v = if v ∈ keys ∧ count degree v ≤ 0 then 1 else 0

variable {edges : List (ι × ι)} {keys : List ι} {degree : AssocMap ι ℤ} {handed released : List ι}

/-- Initially the vertices without sources are handed out. -/
lemma Tracks.initial (hnodup : keys.Nodup) (hdegree : ∀ v, count degree v = inDegree edges v)
    (hhanded : handed.Perm (keys.filter (fun v => count degree v = 0))) :
    Tracks edges keys degree handed [] := by
  refine ⟨fun v => by simp [hdegree,freed],fun v => ?_⟩
  rw [hhanded.count_eq]
  by_cases hv : v ∈ keys.filter (fun v => count degree v = 0)
  · rw [count_eq_one_of_mem (hnodup.filter _) hv]
    obtain ⟨hkey,hzero⟩ := mem_filter.mp hv
    rw [if_pos ⟨hkey,(of_decide_eq_true hzero).le⟩]
  · rw [count_eq_zero_of_not_mem hv,if_neg]
    rintro ⟨hkey,hle⟩
    have hnonneg : 0 ≤ count degree v := by
      rw [hdegree]
      exact Int.natCast_nonneg _
    exact hv (mem_filter.mpr ⟨hkey,decide_eq_true (le_antisymm hle hnonneg)⟩)

/-- Releasing a vertex keeps the counters right, whether or not it was released before. -/
lemma Tracks.release (h : Tracks edges keys degree handed released)
    (hkeys : ∀ e ∈ edges, e.2 ∈ keys) {succ : List ι} (queue : List ι)
    (hsucc : ∀ v, succ.count v = edges.count (u,v)) :
    ∃ new, (succ.foldl Kahn.release (degree,queue)).2 = queue ++ new ∧
      Tracks edges keys (succ.foldl Kahn.release (degree,queue)).1 (handed ++ new)
        (released ++ [u]) := by
  obtain ⟨new,hqueue,hnew⟩ := foldl_release_queue succ (degree,queue)
  have hcount : ∀ v, count (succ.foldl Kahn.release (degree,queue)).1 v =
      count degree v-edges.count (u,v) := by
    intro v
    rw [count_foldl_release,hsucc]
  refine ⟨new,hqueue,⟨fun v => ?_,fun v => ?_⟩⟩
  · rw [hcount,h.degree_eq]
    simp only [freed,map_append,sum_append,map_cons,map_nil,sum_singleton]
    push_cast
    ring
  · rw [count_append,h.handed_count,hnew,hsucc,hcount]
    by_cases hv : v ∈ keys
    · simp only [hv,true_and]
      split_ifs <;> omega
    · -- No edge leads to a vertex that is not a key, so its counter never moves.
      have hzero : edges.count (u,v) = 0 :=
        count_eq_zero_of_not_mem fun he => hv (hkeys _ he)
      simp only [hv,false_and,if_false,hzero]
      rw [if_neg]
      push_cast
      omega

lemma Tracks.mem_handed_iff (h : Tracks edges keys degree handed released) (v : ι) :
    v ∈ handed ↔ v ∈ keys ∧ count degree v ≤ 0 := by
  rw [← count_pos_iff,h.handed_count]
  split_ifs with hv
  · simpa using hv
  · simpa using hv

lemma Tracks.nodup (h : Tracks edges keys degree handed released) : handed.Nodup := by
  rw [nodup_iff_count_le_one]
  intro v
  rw [h.handed_count]
  split_ifs <;> omega

/-- A vertex is handed out at the latest when its last source is released. -/
lemma Tracks.mem_handed (h : Tracks edges keys degree handed released) {v : ι} (hv : v ∈ keys)
    (hsources : ∀ u, (u,v) ∈ edges → u ∈ released) : v ∈ handed := by
  have hle := inDegree_le_freed hsources
  have heq := h.degree_eq v
  exact (h.mem_handed_iff v).mpr ⟨hv,by omega⟩

lemma Tracks.mem_released (h : Tracks edges keys degree handed released)
    (honce : ∀ e ∈ edges, released.count e.1 ≤ 1) {u v : ι} (hv : v ∈ handed)
    (hu : (u,v) ∈ edges) : u ∈ released := by
  have hle := ((h.mem_handed_iff v).mp hv).2
  have heq := h.degree_eq v
  exact mem_of_inDegree_le_freed honce (by omega) hu

/-! The search. -/

def Before (edges : List (ι × ι)) (u v : ι) : Prop := (u,v) ∈ edges

omit [DecidableEq ι] in
lemma before_edgesOf (name : α → ι) (dependsOn : α → List ι) (nodes : List α) :
    Before (edgesOf name dependsOn nodes) =
      fun u v => ∃ node ∈ nodes, name node = v ∧ u ∈ dependsOn node := by
  funext u v
  exact propext mem_edgesOf

structure State (ι : Type*) where
  degree : AssocMap ι ℤ
  queue : List ι
  order : List ι := []

/-- One turn of the loop: the front of the queue is visited and released. -/
def visit (succ : ι → List ι) (s : State ι) : State ι :=
  match s.queue with
  | [] => s
  | u::queue =>
    ⟨((succ u).foldl release (s.degree,queue)).1,((succ u).foldl release (s.degree,queue)).2,
      s.order ++ [u]⟩

def run (succ : ι → List ι) (fuel : ℕ) (s : State ι) : Option (State ι) :=
  FuelLoop.while_ (fun s => !s.queue.isEmpty) (visit succ) fuel s

/-- Visited vertices are the released ones, visited or waiting ones have been handed out, and below
a visited one there is no endless descent. -/
structure Inv (edges : List (ι × ι)) (keys : List ι) (s : State ι) : Prop where
  tracks : Tracks edges keys s.degree (s.order ++ s.queue) s.order
  acc : ∀ v ∈ s.order, Acc (Before edges) v

variable {succ : ι → List ι} {s : State ι}

lemma Inv.order_nodup (h : Inv edges keys s) : s.order.Nodup :=
  h.tracks.nodup.sublist (sublist_append_left _ _)

lemma Inv.order_once (h : Inv edges keys s) : ∀ e ∈ edges, s.order.count e.1 ≤ 1 := fun e _ =>
  nodup_iff_count_le_one.mp h.order_nodup e.1

lemma Inv.order_subset (h : Inv edges keys s) : s.order ⊆ keys := fun v hv =>
  ((h.tracks.mem_handed_iff v).mp (mem_append_left _ hv)).1

lemma Inv.visit (h : Inv edges keys s) (hkeys : ∀ e ∈ edges, e.2 ∈ keys)
    (hsucc : ∀ u v, (succ u).count v = edges.count (u,v)) : Inv edges keys (visit succ s) := by
  obtain ⟨degree,queue,order⟩ := s
  cases queue with
  | nil => exact h
  | cons u queue =>
    obtain ⟨new,hqueue,htracks⟩ := h.tracks.release hkeys queue (hsucc u)
    constructor
    · unfold Kahn.visit
      dsimp only
      rw [hqueue]
      simpa using htracks
    · intro v hv
      rcases mem_append.mp hv with hv | hv
      · exact h.acc v hv
      · -- The sources of a vertex from the queue have all been visited.
        obtain rfl := mem_singleton.mp hv
        refine Acc.intro v fun w hw => h.acc w ?_
        exact h.tracks.mem_released h.order_once (by simp) hw

lemma run_spec (hnodup : keys.Nodup) (hkeys : ∀ e ∈ edges, e.2 ∈ keys)
    (hsucc : ∀ u v, (succ u).count v = edges.count (u,v))
    (hdegree : ∀ v, count degree v = inDegree edges v)
    (hqueue : queue.Perm (keys.filter (fun v => count degree v = 0))) (hfuel : keys.length < fuel) :
    ∃ t, run succ fuel ⟨degree,queue,[]⟩ = some t ∧ Inv edges keys t ∧
      ∀ v, v ∈ t.order ↔ v ∈ keys ∧ ∀ u, (u,v) ∈ edges → u ∈ t.order := by
  have hinit : Inv edges keys ⟨degree,queue,[]⟩ :=
    ⟨Tracks.initial hnodup hdegree hqueue,fun v hv => by cases hv⟩
  have hstep : ∀ s, Inv edges keys s → (!s.queue.isEmpty) = true →
      Inv edges keys (visit succ s) ∧
        keys.length-(visit succ s).order.length < keys.length-s.order.length := by
    intro s hs hc
    refine ⟨hs.visit hkeys hsucc,?_⟩
    obtain ⟨degree,queue,order⟩ := s
    cases queue with
    | nil => simp at hc
    | cons u queue =>
      have hsub : (order ++ u::queue) ⊆ keys := fun v hv => ((hs.tracks.mem_handed_iff v).mp hv).1
      have hlen := (hs.tracks.nodup.subperm hsub).length_le
      simp only [Kahn.visit,length_append,length_cons,length_nil] at hlen ⊢
      omega
  obtain ⟨t,hrun,hinv,hend⟩ := FuelLoop.while_measure (Inv edges keys)
    (fun s => keys.length-s.order.length) hstep hinit (by simpa using hfuel)
  have hempty : t.queue = [] := by simpa using hend
  have htracks := hinv.tracks
  rw [hempty,append_nil] at htracks
  refine ⟨t,hrun,hinv,fun v => ⟨fun hv => ⟨hinv.order_subset hv,fun u hu => ?_⟩,?_⟩⟩
  · exact htracks.mem_released hinv.order_once hv hu
  · rintro ⟨hv,hsources⟩
    exact htracks.mem_handed hv hsources

variable {r : ι → ι → Prop}

omit [DecidableEq ι] in
lemma not_rel_self_of_acc (h : Acc r v) : ¬r v v := by
  induction h with
  | intro v _ ih => exact fun hv => ih v hv hv

lemma acc_of_acyclic {field : List ι} (hfield : ∀ u v, r u v → u ∈ field)
    (hacyclic : ∀ v, ¬Relation.TransGen r v v) (v : ι) : Acc r v := by
  have hwf : WellFounded (fun u w : {x // x ∈ field} => Relation.TransGen r u.1 w.1) := by
    have : IsTrans {x // x ∈ field} (fun u w => Relation.TransGen r u.1 w.1) :=
      ⟨fun _ _ _ => Relation.TransGen.trans⟩
    have : Std.Irrefl (fun u w : {x // x ∈ field} => Relation.TransGen r u.1 w.1) :=
      ⟨fun u => hacyclic u.1⟩
    exact Finite.wellFounded_of_trans_of_irrefl _
  have hacc : ∀ u : {x // x ∈ field}, Acc r u.1 := by
    intro u
    induction u using hwf.induction with
    | _ u ih =>
      refine Acc.intro u.1 fun w hw => ih ⟨w,hfield w u.1 hw⟩ (Relation.TransGen.single hw)
  exact Acc.intro v fun u hu => hacc ⟨u,hfield u v hu⟩

variable {order : List ι}

lemma covers_iff (hkeys : ∀ e ∈ edges, e.2 ∈ keys)
    (hacc : ∀ v ∈ order, Acc (Before edges) v)
    (horder : ∀ v, v ∈ order ↔ v ∈ keys ∧ ∀ u, (u,v) ∈ edges → u ∈ order) :
    keys ⊆ order ↔ (∀ e ∈ edges, e.1 ∈ keys) ∧ ∀ v, ¬Relation.TransGen (Before edges) v v := by
  constructor
  · intro hall
    refine ⟨fun e he => ?_,fun v hv => ?_⟩
    · have hv := ((horder e.2).mp (hall (hkeys e he))).2 e.1 he
      exact ((horder e.1).mp hv).1
    · -- A vertex on a cycle has a source, so it is a key.
      obtain ⟨u,-,hu⟩ := Relation.TransGen.tail'_iff.mp hv
      have hwf := (hacc v (hall (hkeys _ hu))).transGen
      exact not_rel_self_of_acc hwf hv
  · rintro ⟨hsources,hacyclic⟩ v
    have hv := acc_of_acyclic (fun u w h => hsources (u,w) h) hacyclic v
    induction hv with
    | intro v _ ih =>
      intro hkey
      exact (horder v).mpr ⟨hkey,fun u hu => ih u hu (hsources _ hu)⟩

omit [DecidableEq ι] in
lemma length_eq_iff_subset {all : List ι} (horder : order.Nodup) (hall : all.Nodup)
    (hsub : order ⊆ all) : order.length = all.length ↔ all ⊆ order := by
  constructor
  · intro hlen
    exact ((horder.subperm hsub).perm_of_length_le hlen.ge).symm.subset
  · intro hback
    exact le_antisymm (horder.subperm hsub).length_le (hall.subperm hback).length_le

end SmoFramework.Library.Kahn
