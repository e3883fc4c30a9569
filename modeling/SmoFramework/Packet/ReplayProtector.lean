import Mathlib.Data.Finset.Card
import Mathlib.Data.List.DropRight
import Mathlib.Data.Vector.Basic
import SmoFramework.Library.BigEndian

/-! The replay protector of packets (`protocol/replay`): a time window, and a set of accepted nonces with
the queue in which they came. Over any run the queue holds the nonces accepted last. -/
namespace SmoFramework
open Library.BigEndian List

structure ReplayConfig where
  maxTimeDeltaMs : Int64 := 5000
  maxNonceCache : ℕ := 10000

structure ReplayProtector where
  cfg : ReplayConfig
  seen : Finset UInt64 := ∅
  fifo : List UInt64 := []

namespace ReplayProtector

abbrev Nonce := List.Vector UInt8 8

def nonceToU64 (nonce : Nonce) : UInt64 := nonce.toList.foldl shiftIn64 0

/-- `delta` at its comparison. The negation of the least value is that value again. -/
def timeDelta (timestamp now : Int64) : Int64 :=
  let delta := now-timestamp
  if delta < 0 then -delta else delta

/-- The eviction at capacity. There is no `front` of an empty queue. -/
def evict (p : ReplayProtector) : Option ReplayProtector :=
  if p.seen.card ≥ p.cfg.maxNonceCache then
    match p.fifo with
    | [] => none
    | oldest::fifo => some { p with seen := p.seen.erase oldest, fifo }
  else some p

structure Call where
  nonce : Nonce
  timestamp : Int64
  now : Int64

def accept (p : ReplayProtector) (call : Call) : Option (Bool × ReplayProtector) :=
  if timeDelta call.timestamp call.now > p.cfg.maxTimeDeltaMs then some (false,p)
  else
    let val := nonceToU64 call.nonce
    if val ∈ p.seen then some (false,p)
    else do
      let p ← p.evict
      some (true,{ p with seen := insert val p.seen, fifo := p.fifo ++ [val] })

def run (p : ReplayProtector) : List Call → Option (List Nonce × ReplayProtector)
  | [] => some ([],p)
  | call::calls => do
    let (accepted,p) ← p.accept call
    let (nonces,p) ← p.run calls
    some ((if accepted then [call.nonce] else []) ++ nonces,p)

/-! The queue against the nonces accepted so far. -/

lemma nonceToU64_injective : Function.Injective nonceToU64 := by
  intro a b h
  apply List.Vector.eq
  calc a.toList = write64 (nonceToU64 a) := (write64_read64 a.toList_length).symm
    _ = write64 (nonceToU64 b) := by rw [h]
    _ = b.toList := write64_read64 b.toList_length

/-- The set and the queue hold the same nonces, each once, and not more than allowed. -/
structure Consistent (p : ReplayProtector) : Prop where
  same : ∀ val, val ∈ p.seen ↔ val ∈ p.fifo
  nodup : p.fifo.Nodup
  bounded : p.fifo.length ≤ p.cfg.maxNonceCache

/-- The queue is the end of the history. -/
structure Tracks (p : ReplayProtector) (accepted : List Nonce) : Prop extends p.Consistent where
  fifo : p.fifo = (accepted.rtake p.cfg.maxNonceCache).map nonceToU64

section
variable {p : ReplayProtector} {accepted : List Nonce}

lemma Consistent.card (h : p.Consistent) : p.seen.card = p.fifo.length := by
  have hseen : p.seen = p.fifo.toFinset := Finset.ext fun val => by
    rw [mem_toFinset]
    exact h.same val
  rw [hseen]
  exact toFinset_card_of_nodup h.nodup

lemma Tracks.mem_seen (h : p.Tracks accepted) (nonce : Nonce) :
    nonceToU64 nonce ∈ p.seen ↔ nonce ∈ accepted.rtake p.cfg.maxNonceCache := by
  rw [h.same,h.fifo]
  exact mem_map_of_injective nonceToU64_injective

lemma length_rtake {α : Type*} (l : List α) (n : ℕ) : (l.rtake n).length = min n l.length := by
  rw [rtake,length_drop]
  omega

lemma Tracks.whole (h : p.Tracks accepted) (hroom : p.fifo.length < p.cfg.maxNonceCache) :
    p.fifo = accepted.map nonceToU64 := by
  have hlen := congrArg length h.fifo
  rw [length_map,length_rtake] at hlen
  have hstart : accepted.length-p.cfg.maxNonceCache = 0 := by omega
  rw [h.fifo,rtake,hstart,drop_zero]

/-- With room for one nonce at least, eviction always finds one, and leaves the nonces that are one
place nearer to the end. -/
theorem Tracks.evict (h : p.Tracks accepted) (hcap : 1 ≤ p.cfg.maxNonceCache) :
    ∃ q, p.evict = some q ∧ q.cfg = p.cfg ∧ q.Consistent ∧ q.fifo ⊆ p.fifo ∧
      q.fifo = (accepted.rtake (p.cfg.maxNonceCache-1)).map nonceToU64 := by
  unfold ReplayProtector.evict
  rw [h.card]
  by_cases hfull : p.fifo.length ≥ p.cfg.maxNonceCache
  · rw [if_pos hfull]
    cases hfifo : p.fifo with
    | nil =>
      rw [hfifo] at hfull
      exact absurd hfull (by simp; omega)
    | cons oldest fifo =>
      have hnodup := h.nodup
      have hbounded := h.bounded
      rw [hfifo] at hnodup hbounded
      refine ⟨_,rfl,rfl,⟨fun val => ?_,(nodup_cons.mp hnodup).2,?_⟩,?_,?_⟩
      · rw [Finset.mem_erase,h.same,hfifo,mem_cons]
        constructor
        · rintro ⟨hne,hval⟩
          exact hval.resolve_left hne
        · intro hval
          exact ⟨fun heq => (nodup_cons.mp hnodup).1 (heq ▸ hval),Or.inr hval⟩
      · exact (Nat.le_succ _).trans hbounded
      · exact subset_cons_self _ _
      · have htail := congrArg tail h.fifo
        rw [hfifo,tail_cons,← map_tail,rtake,tail_drop] at htail
        have hlen := congrArg length h.fifo
        rw [length_map,length_rtake] at hlen
        have hdrop : accepted.length-p.cfg.maxNonceCache+1 = accepted.length-(p.cfg.maxNonceCache-1) := by
          omega
        rw [htail,rtake,hdrop]
  · rw [if_neg hfull]
    refine ⟨p,rfl,rfl,h.toConsistent,List.Subset.refl _,?_⟩
    have hwhole := h.whole (not_le.mp hfull)
    have hlen := congrArg length hwhole
    rw [length_map] at hlen
    have hstart : accepted.length-(p.cfg.maxNonceCache-1) = 0 := by omega
    rw [hwhole,rtake,hstart,drop_zero]

lemma Tracks.remember (h : p.Tracks accepted) (hcap : 1 ≤ p.cfg.maxNonceCache)
    (hnew : nonceToU64 nonce ∉ p.seen) : ∃ q, p.evict = some q ∧ q.cfg = p.cfg ∧
      Tracks { q with seen := insert (nonceToU64 nonce) q.seen, fifo := q.fifo ++ [nonceToU64 nonce] }
        (accepted ++ [nonce]) := by
  obtain ⟨q,hevict,hcfg,hq,hsub,hfifo⟩ := h.evict hcap
  have hout : nonceToU64 nonce ∉ q.fifo := fun hmem => hnew ((h.same _).mpr (hsub hmem))
  have hcap' : p.cfg.maxNonceCache = p.cfg.maxNonceCache-1+1 := by omega
  have hend : q.fifo ++ [nonceToU64 nonce] =
      ((accepted ++ [nonce]).rtake p.cfg.maxNonceCache).map nonceToU64 := by
    rw [hcap',rtake_concat_succ,map_append,hfifo]
    rfl
  refine ⟨q,hevict,hcfg,⟨fun val => ?_,?_,?_⟩,?_⟩
  · rw [Finset.mem_insert,hq.same,mem_append,mem_singleton,or_comm]
  · exact nodup_append.mpr ⟨hq.nodup,nodup_singleton _,fun a ha b hb => by
      rw [mem_singleton.mp hb]
      exact fun heq => hout (heq ▸ ha)⟩
  · rw [hcfg,hend,length_map,length_rtake]
    exact Nat.min_le_left _ _
  · rw [hcfg]
    exact hend

end

/-! The time window. -/

def Call.difference (call : Call) : ℤ := call.now.toInt-call.timestamp.toInt

def Call.Represented (call : Call) : Prop := -2^63 ≤ call.difference ∧ call.difference < 2^63

variable {call : Call}

lemma toInt_timeDelta (h : call.Represented) :
    (timeDelta call.timestamp call.now).toInt =
      if call.difference = -2^63 then -2^63 else |call.difference| := by
  obtain ⟨hlow,hhigh⟩ := h
  have hsub : (call.now-call.timestamp).toInt = call.difference := by
    rw [Int64.toInt_sub]
    change call.difference.bmod (2^64) = call.difference
    exact Int.bmod_eq_of_le (by omega) (by omega)
  have hneg : call.now-call.timestamp < 0 ↔ call.difference < 0 := by
    rw [Int64.lt_iff_toInt_lt,hsub]
    rfl
  unfold timeDelta
  dsimp only
  by_cases hlt : call.difference < 0
  · rw [if_pos (hneg.mpr hlt),Int64.toInt_neg,hsub,abs_of_neg hlt]
    split_ifs with hleast
    · rw [hleast]
      rfl
    · exact Int.bmod_eq_of_le (by omega) (by omega)
  · rw [if_neg (hneg.not.mpr hlt),hsub,abs_of_nonneg (not_lt.mp hlt),if_neg (by omega)]

lemma timeDelta_le_iff_of_ne (h : call.Represented) (hleast : call.difference ≠ -2^63)
    {max : Int64} : ¬timeDelta call.timestamp call.now > max ↔ |call.difference| ≤ max.toInt := by
  rw [gt_iff_lt,Int64.lt_iff_toInt_lt,toInt_timeDelta h,not_lt,if_neg hleast]

lemma timeDelta_le_iff (h : call.Represented) {max : Int64} (hmax : 0 ≤ max) :
    ¬timeDelta call.timestamp call.now > max ↔
      call.difference = -2^63 ∨ |call.difference| ≤ max.toInt := by
  have hmax' : 0 ≤ max.toInt := Int64.le_iff_toInt_le.mp hmax
  by_cases hleast : call.difference = -2^63
  · rw [gt_iff_lt,Int64.lt_iff_toInt_lt,toInt_timeDelta h,if_pos hleast]
    simp only [hleast,true_or,iff_true]
    omega
  · rw [timeDelta_le_iff_of_ne h hleast,or_iff_right hleast]

/-! Runs. -/

variable {p : ReplayProtector}

/-- What a call answers, and what the history is behind it. -/
theorem Tracks.answer (h : p.Tracks accepted)
    (hcap : 1 ≤ p.cfg.maxNonceCache) (call : Call) :
    ∃ b q, p.accept call = some (b,q) ∧ q.cfg = p.cfg ∧
      q.Tracks (accepted ++ if b then [call.nonce] else []) ∧
      (b = true ↔ ¬timeDelta call.timestamp call.now > p.cfg.maxTimeDeltaMs ∧
        call.nonce ∉ accepted.rtake p.cfg.maxNonceCache) := by
  unfold ReplayProtector.accept
  rw [← h.mem_seen]
  by_cases hlate : timeDelta call.timestamp call.now > p.cfg.maxTimeDeltaMs
  · rw [if_pos hlate]
    exact ⟨false,p,rfl,rfl,by simpa using h,by simp [hlate]⟩
  rw [if_neg hlate]
  dsimp only
  by_cases hseen : nonceToU64 call.nonce ∈ p.seen
  · rw [if_pos hseen]
    exact ⟨false,p,rfl,rfl,by simpa using h,by simp [hseen]⟩
  · rw [if_neg hseen]
    obtain ⟨q,hevict,hcfg,hq⟩ := h.remember hcap hseen
    rw [hevict]
    exact ⟨true,_,rfl,hcfg,hq,by simp [hseen,hlate]⟩

lemma Tracks.run (h : p.Tracks accepted)
    (hcap : 1 ≤ p.cfg.maxNonceCache) (calls : List Call) :
    ∃ nonces q, p.run calls = some (nonces,q) ∧ q.cfg = p.cfg ∧ q.Tracks (accepted ++ nonces) := by
  induction calls generalizing p accepted with
  | nil => exact ⟨[],p,rfl,rfl,by simpa using h⟩
  | cons call calls ih =>
    obtain ⟨b,q,haccept,hcfg,hq,-⟩ := h.answer hcap call
    obtain ⟨nonces,r,hrun,hcfg',hr⟩ := ih hq (hcfg ▸ hcap)
    refine ⟨(if b then [call.nonce] else []) ++ nonces,r,?_,hcfg'.trans hcfg,?_⟩
    · rw [ReplayProtector.run,haccept]
      change (q.run calls >>= _) = _
      rw [hrun]
      rfl
    · rwa [← append_assoc]

variable (cfg : ReplayConfig)

def fresh : ReplayProtector := { cfg }

lemma fresh_tracks : (fresh cfg).Tracks [] where
  same val := by simp [fresh]
  nodup := nodup_nil
  bounded := Nat.zero_le _
  fifo := by simp [fresh]

variable (before : List Call)

/-- The call behind the run says what it should, and set and queue agree before and after it. -/
def Exact (call : Call) : Prop :=
  ∃ accepted p b q, (fresh cfg).run before = some (accepted,p) ∧ p.Consistent ∧
    p.accept call = some (b,q) ∧ q.Consistent ∧
    (b = true ↔ |call.difference| ≤ cfg.maxTimeDeltaMs.toInt ∧
      call.nonce ∉ accepted.rtake cfg.maxNonceCache)

def remembered : List Nonce :=
  match (fresh cfg).run before with
  | none => []
  | some (accepted,_) => accepted.rtake cfg.maxNonceCache

lemma exact_iff {cfg : ReplayConfig} (hcap : 1 ≤ cfg.maxNonceCache) (hmax : 0 ≤ cfg.maxTimeDeltaMs)
    {before : List Call} {call : Call} (hcall : call.Represented) :
    Exact cfg before call ↔ (call.difference = -2^63 → call.nonce ∈ remembered cfg before) := by
  obtain ⟨accepted,p,hrun,hcfg,hp⟩ := (fresh_tracks cfg).run hcap before
  change p.cfg = cfg at hcfg
  obtain ⟨b,q,haccept,-,hq,hb⟩ := hp.answer (hcfg ▸ hcap) call
  have hrem : remembered cfg before = accepted.rtake cfg.maxNonceCache := by
    rw [remembered,hrun]
  rw [nil_append,hcfg,← hrem,timeDelta_le_iff hcall hmax] at hb
  have hexact : Exact cfg before call ↔ (b = true ↔
      |call.difference| ≤ cfg.maxTimeDeltaMs.toInt ∧ call.nonce ∉ remembered cfg before) := by
    constructor
    · rintro ⟨accepted',p',b',q',hrun',-,haccept',-,hb'⟩
      obtain ⟨rfl,rfl⟩ := Prod.mk.inj (Option.some.inj (hrun.symm.trans hrun'))
      obtain ⟨rfl,rfl⟩ := Prod.mk.inj (Option.some.inj (haccept.symm.trans haccept'))
      rwa [hrem]
    · intro h
      rw [hrem] at h
      exact ⟨accepted,p,b,q,hrun,hp.toConsistent,haccept,hq.toConsistent,h⟩
  rw [hexact,hb]
  have hleast : call.difference = -2^63 → ¬|call.difference| ≤ cfg.maxTimeDeltaMs.toInt := fun h => by
    have hlt := cfg.maxTimeDeltaMs.toInt_lt
    rw [h]
    norm_num
    omega
  constructor
  · intro h heq
    by_contra hnew
    exact hleast heq (h.mp ⟨Or.inl heq,hnew⟩).1
  · intro h
    constructor
    · rintro ⟨hpass,hnew⟩
      exact ⟨hpass.resolve_left fun heq => hnew (h heq),hnew⟩
    · rintro ⟨hin,hnew⟩
      exact ⟨Or.inr hin,hnew⟩

/-- In a run without overflowing subtractions every call is exact if and only if no call whose nonce is
not remembered has the difference that cannot be negated. -/
theorem run_exact_iff (cfg : ReplayConfig) (hcap : 1 ≤ cfg.maxNonceCache)
    (hmax : 0 ≤ cfg.maxTimeDeltaMs) (calls : List Call) (hcalls : ∀ call ∈ calls, call.Represented) :
    (∀ before call, before ++ [call] <+: calls → Exact cfg before call) ↔
      ∀ before call, before ++ [call] <+: calls → call.difference = -2^63 →
        call.nonce ∈ remembered cfg before := by
  refine forall_congr' fun before => forall_congr' fun call => imp_congr_right fun hbegin => ?_
  exact exact_iff hcap hmax
    (hcalls call (hbegin.subset (mem_append_right _ (mem_singleton_self _))))

def zeroNonce : Nonce := List.Vector.replicate 8 0

def otherNonce : Nonce := ⟨List.replicate 7 0 ++ [1],rfl⟩

/-- With room for one nonce: a packet, the same again, one that displaces it, and the first again. -/
theorem run_exact_displaced : let packet : Call := ⟨zeroNonce,0,0⟩
    let before : List Call := [packet,packet,⟨otherNonce,0,0⟩]
    ((fresh ⟨5000,1⟩).run before).map Prod.fst = some [zeroNonce,otherNonce] ∧
      Exact ⟨5000,1⟩ before packet := by
  intro packet before
  have hzero : ∀ call ∈ before ++ [packet], call.difference = 0 := by decide
  refine ⟨by decide,(run_exact_iff ⟨5000,1⟩ (by decide) (by decide) (before ++ [packet]) ?_).mpr ?_
    before packet (prefix_refl _)⟩
  · intro call hcall
    simp [Call.Represented,hzero call hcall]
  · intro before' call hbegin hleast
    rw [hzero call (hbegin.subset (mem_append_right _ (mem_singleton_self _)))] at hleast
    exact absurd hleast (by decide)

/-- A packet from the far future passes the window. -/
theorem far_future_accepted : let call : Call := ⟨zeroNonce,Int64.maxValue,-1⟩
    call.Represented ∧ ((fresh {}).accept call).map Prod.fst = some true ∧
      |call.difference| = 2^63 ∧ ¬Exact {} [] call := by
  intro call
  have hcall : call.Represented := by
    simp +decide [call,Call.Represented,Call.difference]
  refine ⟨hcall,by decide,by decide,fun h => ?_⟩
  have hmem := (exact_iff (by decide) (by decide) hcall).mp h (by decide)
  simp [remembered,ReplayProtector.run] at hmem

/-! What is forgotten. -/

lemma mem_rtake_of_lt (accepted since : List Nonce) (nonce : Nonce) (h : since.length < n) :
    nonce ∈ (accepted ++ [nonce] ++ since).rtake n := by
  have hstart : (accepted ++ [nonce] ++ since).length-n ≤ accepted.length := by
    simp only [length_append,length_singleton]
    omega
  rw [rtake,append_assoc,drop_append_of_le_length (by simpa using hstart)]
  exact mem_append_right _ (mem_append_left _ (mem_singleton_self _))

lemma rtake_append_of_le (accepted since : List Nonce) (h : n ≤ since.length) :
    (accepted ++ since).rtake n = since.rtake n := by
  have hstart : (accepted ++ since).length-n = accepted.length+(since.length-n) := by
    rw [length_append]
    omega
  rw [rtake,hstart,drop_append,rtake]
  simp

/-- A nonce that was accepted is not accepted again before as many others as the cache holds have been.
After that, a packet inside the window passes. -/
theorem accepted_again (cfg : ReplayConfig) (hcap : 1 ≤ cfg.maxNonceCache) (before between : List Call)
    (first again : Call) (hnonce : again.nonce = first.nonce) :
    ∃ accepted p b q since r b' s, (fresh cfg).run before = some (accepted,p) ∧
      p.accept first = some (b,q) ∧ q.run between = some (since,r) ∧ r.accept again = some (b',s) ∧
      (b = true → b' = true → cfg.maxNonceCache ≤ since.length) ∧
      (b = true → first.nonce ∉ since → again.Represented → again.difference ≠ -2^63 → (b' = true ↔
        |again.difference| ≤ cfg.maxTimeDeltaMs.toInt ∧ cfg.maxNonceCache ≤ since.length)) := by
  obtain ⟨accepted,p,hbefore,hcfg,hp⟩ := (fresh_tracks cfg).run hcap before
  change p.cfg = cfg at hcfg
  obtain ⟨b,q,hfirst,hcfg',hq,-⟩ := hp.answer (hcfg ▸ hcap) first
  obtain ⟨since,r,hbetween,hcfg'',hr⟩ := hq.run (hcfg' ▸ hcfg ▸ hcap) between
  have hr_cfg : r.cfg = cfg := hcfg''.trans (hcfg'.trans hcfg)
  obtain ⟨b',s,hagain,-,-,hb'⟩ := hr.answer (hr_cfg ▸ hcap) again
  rw [hr_cfg,hnonce] at hb'
  refine ⟨accepted,p,b,q,since,r,b',s,hbefore,hfirst,hbetween,hagain,?_,?_⟩
  · rintro rfl rfl
    by_contra hfew
    exact (hb'.mp rfl).2 (mem_rtake_of_lt _ _ _ (not_le.mp hfew))
  · rintro rfl hsince hcall hleast
    rw [hb',timeDelta_le_iff_of_ne hcall hleast]
    refine and_congr_right fun _ => ⟨fun hgone => ?_,fun hmany hmem => hsince ?_⟩
    · by_contra hfew
      exact hgone (mem_rtake_of_lt _ _ _ (not_le.mp hfew))
    · rw [rtake_append_of_le _ _ hmany] at hmem
      exact mem_of_mem_drop hmem

/-- With room for two nonces, a packet is rejected when it comes again after one other. -/
theorem accepted_again_soon : ∃ accepted p b q since r b' s,
    (fresh ⟨5000,2⟩).run [] = some (accepted,p) ∧ p.accept ⟨zeroNonce,0,0⟩ = some (b,q) ∧
    q.run [⟨otherNonce,0,0⟩] = some (since,r) ∧ r.accept ⟨zeroNonce,0,0⟩ = some (b',s) ∧
    b = true ∧ b' = false := by
  obtain ⟨accepted,p,b,q,since,r,b',s,hbefore,hfirst,hbetween,hagain,honly,-⟩ :=
    accepted_again ⟨5000,2⟩ (by decide) [] [⟨otherNonce,0,0⟩] ⟨zeroNonce,0,0⟩ ⟨zeroNonce,0,0⟩ rfl
  obtain ⟨rfl,rfl⟩ := Prod.mk.inj (Option.some.inj hbefore)
  have hb : ((fresh ⟨5000,2⟩).accept ⟨zeroNonce,0,0⟩).map Prod.fst = some true := by decide
  have hsince : ((fresh ⟨5000,2⟩).accept ⟨zeroNonce,0,0⟩).bind (fun x =>
      (x.2.run [⟨otherNonce,0,0⟩]).map (fun y => y.1.length)) = some 1 := by decide
  rw [hfirst] at hb hsince
  rw [Option.bind_some,hbetween] at hsince
  have hb : b = true := Option.some.inj hb
  have hsince : since.length = 1 := Option.some.inj hsince
  refine ⟨[],_,b,q,since,r,b',s,hbefore,hfirst,hbetween,hagain,hb,Bool.eq_false_iff.mpr fun hb' => ?_⟩
  have hfull : 2 ≤ since.length := honly hb hb'
  omega

/-- With room for one nonce, a packet passes twice with another one in between, all at one time. -/
theorem forgotten_accepted : let packet : Call := ⟨zeroNonce,0,0⟩
    let other : Call := ⟨otherNonce,0,0⟩
    ((fresh ⟨5000,1⟩).run [packet,other,packet]).map Prod.fst =
      some [packet.nonce,other.nonce,packet.nonce] := by
  decide

end ReplayProtector
end SmoFramework
