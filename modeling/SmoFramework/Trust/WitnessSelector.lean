import SmoFramework.Library.FloatOrder
import SmoFramework.Library.StdSort
import SmoFramework.Trust.TrustManager

/-! The choice of a witness (`core/trust/witness`). -/
namespace SmoFramework.Trust
open Library Library.BigEndian Discovery List List.Vector FloatOrder

namespace WitnessSelector

structure Candidate where
  nodeId : NodeID := List.Vector.replicate 32 0
  online : Bool := false
  trust : Float := 0.0
  anchor : Bool := false

def eligible (requester responder : NodeID) (c : Candidate) : Bool :=
  !(c.nodeId = requester || c.nodeId = responder) && !c.anchor

variable (preferOnline : Bool)

/-- The comparison of the sort. Ids compare byte by byte. -/
def before (a b : Candidate) : Bool :=
  if preferOnline && a.online != b.online then a.online
  else if a.trust != b.trust then a.trust > b.trust
  else a.nodeId.toList < b.nodeId.toList

def select (sort : StdSort Candidate) (preferOnline : Bool) (requester responder : NodeID)
    (candidates : List Candidate) : Option NodeID :=
  let found := candidates.filter (eligible requester responder)
  if found.isEmpty then none
  else (sort.run (before preferOnline) found).head?.map Candidate.nodeId

def candidate (tm : TrustManager) (id : NodeID) (online : Bool) : Candidate where
  nodeId := id
  online := online
  anchor := tm.isTrustAnchor id
  trust := match tm.getScore id with
    | .ok score => score
    | .error _ => 0.0

def addOnline (tm : TrustManager) (out : List Candidate) (id : NodeID) : List Candidate :=
  if out.any (fun c => c.nodeId = id) then out else out ++ [candidate tm id true]

def candidatesFrom (tm : TrustManager) (online all : List NodeID) : List Candidate :=
  online.foldl (addOnline tm) (all.map fun id => candidate tm id (online.contains id))

/-! The order. -/

/-- Online first if that is preferred, then the higher trust, then the smaller id. -/
def Beats (a b : Candidate) : Prop :=
  preferOnline = true ∧ a.online = true ∧ b.online = false ∨
    (preferOnline = true → a.online = b.online) ∧
      (b.trust < a.trust ∨ (a.trust == b.trust) = true ∧ a.nodeId.toList < b.nodeId.toList)

def place (c : Candidate) : ℕ ×ₗ (ℤ ×ₗ ℤ ×ₗ ℤ)ᵒᵈ ×ₗ ℕ :=
  toLex (if preferOnline && !c.online then 1 else 0,
    toLex (OrderDual.toDual (FloatOrder.rank c.trust),ofBE c.nodeId.toList))

lemma place_lt_iff (preferOnline : Bool) (ha : a.trust.isNaN = false)
    (hb : b.trust.isNaN = false) :
    place preferOnline a < place preferOnline b ↔ Beats preferOnline a b := by
  have hid : a.nodeId.toList < b.nodeId.toList ↔ ofBE a.nodeId.toList < ofBE b.nodeId.toList :=
    lt_iff_ofBE_lt (by rw [toList_length,toList_length])
  unfold place Beats
  rw [Prod.Lex.toLex_lt_toLex,Prod.Lex.toLex_lt_toLex,lt_iff hb ha,beq_iff ha hb,
    hid,OrderDual.toDual_lt_toDual,OrderDual.toDual_inj]
  cases preferOnline <;> cases a.online <;> cases b.online <;> simp

lemma before_rest_iff {a b : Candidate} (ha : a.trust.isNaN = false) (hb : b.trust.isNaN = false) :
    (if a.trust != b.trust then decide (a.trust > b.trust)
      else decide (a.nodeId.toList < b.nodeId.toList)) = true ↔
      b.trust < a.trust ∨ (a.trust == b.trust) = true ∧ a.nodeId.toList < b.nodeId.toList := by
  cases heq : a.trust == b.trust with
  | false => simp [bne,heq]
  | true =>
    have hnot : ¬b.trust < a.trust := by
      rw [lt_iff hb ha,(beq_iff ha hb).mp heq]
      exact lt_irrefl _
    simp [bne,heq,hnot]

lemma before_iff {a b : Candidate} (ha : a.trust.isNaN = false)
    (hb : b.trust.isNaN = false) : before preferOnline a b = true ↔ Beats preferOnline a b := by
  unfold before Beats
  by_cases hsplit : (preferOnline && a.online != b.online) = true
  · rw [if_pos hsplit]
    rw [Bool.and_eq_true,bne_iff_ne] at hsplit
    cases honline : a.online with
    | false => simp_all
    | true => simp_all
  · rw [if_neg hsplit,before_rest_iff ha hb]
    rw [Bool.and_eq_true,bne_iff_ne,not_and,not_ne_iff] at hsplit
    constructor
    · exact fun h => .inr ⟨hsplit,h⟩
    · rintro (⟨hprefer,ha,hb⟩ | ⟨-,h⟩)
      · rw [hsplit hprefer,hb] at ha
        cases ha
      · exact h

variable {preferOnline}

lemma place_inj (h : place preferOnline a = place preferOnline b) : a.nodeId = b.nodeId := by
  have hnumber : ofBE a.nodeId.toList = ofBE b.nodeId.toList :=
    congrArg (fun p => (ofLex (ofLex p).2).2) h
  have hbytes := congrArg (toBE 32) hnumber
  have hlength : ∀ id : NodeID, toBE 32 (ofBE id.toList) = id.toList := fun id => by
    have hback := toBE_ofBE id.toList
    rwa [toList_length] at hback
  rw [hlength,hlength] at hbytes
  exact toList_injective hbytes

section
variable {sort sort' : StdSort Candidate} {preferOnline : Bool} {requester responder : NodeID}
  {candidates candidates' : List Candidate}

def Eligible (requester responder : NodeID) (c : Candidate) : Prop :=
  c.nodeId ≠ requester ∧ c.nodeId ≠ responder ∧ c.anchor = false

lemma mem_filter_iff : c ∈ candidates.filter (eligible requester responder) ↔
    c ∈ candidates ∧ Eligible requester responder c := by
  simp [mem_filter,eligible,Eligible,and_assoc]

lemma strictWeakOn (hnan : ∀ c ∈ candidates, c.trust.isNaN = false) :
    StrictWeakOn (before preferOnline) (candidates.filter (eligible requester responder)) :=
  .of_rank (place preferOnline) fun a ha b hb => by
    have ha := hnan a (mem_of_mem_filter ha)
    have hb := hnan b (mem_of_mem_filter hb)
    rw [before_iff preferOnline ha hb,place_lt_iff preferOnline ha hb]

lemma select_eq_none_iff (hnan : ∀ c ∈ candidates, c.trust.isNaN = false) :
    select sort preferOnline requester responder candidates = none ↔
      ∀ c ∈ candidates, ¬Eligible requester responder c := by
  have hempty : candidates.filter (eligible requester responder) = [] ↔
      ∀ c ∈ candidates, ¬Eligible requester responder c := by
    rw [eq_nil_iff_forall_not_mem]
    exact forall_congr' fun c => by rw [mem_filter_iff,not_and]
  rw [← hempty,select]
  split_ifs with hfound
  · simpa using hfound
  · rw [Option.map_eq_none_iff,head?_eq_none_iff]
    have hweak : StrictWeakOn (before preferOnline) (candidates.filter (eligible requester responder)) :=
      strictWeakOn hnan
    have hperm := sort.perm hweak
    rw [← length_eq_zero_iff,hperm.length_eq,length_eq_zero_iff]

lemma select_eq_some (hnan : ∀ c ∈ candidates, c.trust.isNaN = false) {id : NodeID}
    (h : select sort preferOnline requester responder candidates = some id) :
    ∃ c ∈ candidates, c.nodeId = id ∧ Eligible requester responder c ∧
      ∀ d ∈ candidates, Eligible requester responder d → ¬Beats preferOnline d c := by
  unfold select at h
  dsimp only at h
  split_ifs at h
  obtain ⟨c,hhead,rfl⟩ := Option.map_eq_some_iff.mp h
  obtain ⟨rest,hrun⟩ := head?_eq_some_iff.mp hhead
  obtain ⟨hc,hleast⟩ := sort.head_least (strictWeakOn hnan) hrun
  obtain ⟨hc,heligible⟩ := mem_filter_iff.mp hc
  refine ⟨c,hc,rfl,heligible,fun d hd hdeligible hbeats => ?_⟩
  have hnot := hleast d (mem_filter_iff.mpr ⟨hd,hdeligible⟩)
  rw [(before_iff preferOnline (hnan d hd) (hnan c hc)).mpr hbeats] at hnot
  cases hnot

lemma select_perm (hnan : ∀ c ∈ candidates, c.trust.isNaN = false)
    (hperm : candidates'.Perm candidates) :
    select sort' preferOnline requester responder candidates' =
      select sort preferOnline requester responder candidates := by
  have hnan' : ∀ c ∈ candidates', c.trust.isNaN = false := fun c hc => hnan c (hperm.subset hc)
  have hnone : select sort' preferOnline requester responder candidates' = none ↔
      select sort preferOnline requester responder candidates = none := by
    rw [select_eq_none_iff hnan,select_eq_none_iff hnan']
    exact forall_congr' fun c => by rw [hperm.mem_iff]
  cases hselect : select sort preferOnline requester responder candidates with
  | none => exact hnone.mpr hselect
  | some id =>
    obtain ⟨id',hselect'⟩ := Option.ne_none_iff_exists'.mp fun h => by
      rw [hnone.mp h] at hselect
      cases hselect
    obtain ⟨c,hc,rfl,heligible,hbest⟩ := select_eq_some hnan hselect
    obtain ⟨c',hc',rfl,heligible',hbest'⟩ := select_eq_some hnan' hselect'
    -- Neither of the two beats the other, so they have the same place.
    have hle := hbest c' (hperm.subset hc') heligible'
    have hle' := hbest' c (hperm.symm.subset hc) heligible
    rw [← place_lt_iff preferOnline (hnan' c' hc') (hnan c hc)] at hle
    rw [← place_lt_iff preferOnline (hnan c hc) (hnan' c' hc')] at hle'
    rw [hselect',place_inj (le_antisymm (not_lt.mp hle') (not_lt.mp hle))]

end

/-! The candidates. -/

section
variable {tm : TrustManager} {out : List Candidate} {ids : List NodeID}

lemma exists_mem_addOnline (id' id : NodeID) :
    (∃ c ∈ addOnline tm out id', c.nodeId = id) ↔ (∃ c ∈ out, c.nodeId = id) ∨ id = id' := by
  unfold addOnline
  split_ifs with hpresent
  · obtain ⟨d,hd,hname⟩ := any_eq_true.mp hpresent
    refine ⟨.inl,fun h => h.elim (fun h => h) fun heq => ⟨d,hd,?_⟩⟩
    rw [heq]
    exact of_decide_eq_true hname
  · simp only [mem_append,mem_singleton,or_and_right,exists_or,exists_eq_left]
    exact or_congr_right eq_comm

lemma exists_mem_foldl_addOnline (id : NodeID) :
    (∃ c ∈ ids.foldl (addOnline tm) out, c.nodeId = id) ↔ (∃ c ∈ out, c.nodeId = id) ∨ id ∈ ids := by
  induction ids generalizing out with
  | nil => simp
  | cons id' ids ih => rw [foldl_cons,ih,exists_mem_addOnline,mem_cons,or_assoc]

lemma mem_foldl_addOnline {P : Candidate → Prop} (hout : ∀ c ∈ out, P c)
    (hids : ∀ id ∈ ids, P (candidate tm id true)) : ∀ c ∈ ids.foldl (addOnline tm) out, P c := by
  induction ids generalizing out with
  | nil => exact hout
  | cons id ids ih =>
    obtain ⟨hid,hids⟩ := forall_mem_cons.mp hids
    refine ih (fun c hc => ?_) hids
    unfold addOnline at hc
    split_ifs at hc
    · exact hout c hc
    · rcases mem_append.mp hc with hc | hc
      · exact hout c hc
      · exact mem_singleton.mp hc ▸ hid

end

lemma candidatesFrom_spec (tm : TrustManager) (online all : List NodeID) :
    (∀ id, (∃ c ∈ candidatesFrom tm online all, c.nodeId = id) ↔ id ∈ all ∨ id ∈ online) ∧
    ∀ c ∈ candidatesFrom tm online all, c = candidate tm c.nodeId (online.contains c.nodeId) := by
  unfold candidatesFrom
  constructor
  · intro id
    rw [exists_mem_foldl_addOnline]
    simp [candidate]
  · refine mem_foldl_addOnline (fun c hc => ?_) fun id hid => ?_
    · obtain ⟨id,-,rfl⟩ := mem_map.mp hc
      rfl
    · change candidate tm id true = candidate tm id (online.contains id)
      rw [contains_iff_mem.mpr hid]

/-- The choice does not depend on the order of the candidates nor on the sort. There is none exactly
if every candidate is excluded; otherwise no other candidate beats it. -/
theorem select_best (sort sort' : StdSort Candidate) (preferOnline : Bool)
    (requester responder : NodeID) (candidates : List Candidate)
    (hnan : ∀ c ∈ candidates, c.trust.isNaN = false) :
    (∀ candidates' : List Candidate, candidates'.Perm candidates →
      select sort' preferOnline requester responder candidates' =
        select sort preferOnline requester responder candidates) ∧
    (select sort preferOnline requester responder candidates = none ↔
      ∀ c ∈ candidates, c.nodeId = requester ∨ c.nodeId = responder ∨ c.anchor = true) ∧
    (∀ id, select sort preferOnline requester responder candidates = some id →
      ∃ c ∈ candidates, c.nodeId = id ∧ Eligible requester responder c ∧
        ∀ d ∈ candidates, Eligible requester responder d → ¬Beats preferOnline d c) ∧
    ∀ (tm : TrustManager) (online all : List NodeID),
      (∀ id, (∃ c ∈ candidatesFrom tm online all, c.nodeId = id) ↔ id ∈ all ∨ id ∈ online) ∧
      ∀ c ∈ candidatesFrom tm online all,
        c.online = online.contains c.nodeId ∧ c.anchor = tm.isTrustAnchor c.nodeId := by
  refine ⟨fun _ hperm => select_perm hnan hperm,?_,fun id => select_eq_some hnan,
    fun tm online all => ?_⟩
  · rw [select_eq_none_iff hnan]
    refine forall₂_congr fun c _ => ?_
    rw [Eligible,not_and_or,not_and_or,not_ne_iff,not_ne_iff,Bool.not_eq_false]
  · obtain ⟨hids,hflags⟩ := candidatesFrom_spec tm online all
    refine ⟨hids,fun c hc => ?_⟩
    have hc := hflags c hc
    exact ⟨congrArg Candidate.online hc,congrArg Candidate.anchor hc⟩

/-- An anchor is passed over, and of two nodes with the same trust the one that is online is taken. -/
theorem select_best_online :
    let first : Candidate := { nodeId := TrustManager.zeroId, trust := 0.5 }
    let second : Candidate := { nodeId := TrustManager.pairedId, trust := 0.5, online := true }
    let anchor : Candidate := { nodeId := replicate 32 9, trust := 1.0, anchor := true, online := true }
    let requester : NodeID := replicate 32 7
    select default true requester requester [first,second,anchor] = some TrustManager.pairedId := by
  intro first second anchor requester
  obtain ⟨-,hnone,hsome,-⟩ := select_best default default true requester requester
    [first,second,anchor] (by decide +kernel)
  cases hselect : select default true requester requester [first,second,anchor] with
  | none => exact absurd (hnone.mp hselect first mem_cons_self) (by decide +kernel)
  | some id =>
    obtain ⟨c,hc,rfl,heligible,hbest⟩ := hsome id hselect
    have hsecond : Eligible requester requester second := by
      refine ⟨?_,?_,rfl⟩ <;> decide +kernel
    rcases mem_cons.mp hc with rfl | hc
    · exact absurd (.inl ⟨rfl,rfl,rfl⟩) (hbest second (by simp) hsecond)
    · rcases mem_cons.mp hc with rfl | hc
      · rfl
      · obtain rfl := mem_singleton.mp hc
        exact absurd heligible.2.2 (by decide)

end WitnessSelector
end SmoFramework.Trust
