import SmoFramework.Sync.MembershipSync

/-! Applying a batch again, and two nodes that send each other their pending events
(`GossipEngine::set_membership_sync`, `send_gossip_to_peer`). -/
namespace SmoFramework.Sync
open Library Discovery MembershipEventType List

namespace MembershipEvent
open MembershipTable

/-! The table. -/

/-- The part of a record that upserts have set. -/
structure Overlay where
  nodeId : NodeID
  state : PeerState
  lastSeen : Int64
  endpoint : Option Endpoint

def Overlay.on (o : Overlay) (record : PeerRecord) : PeerRecord :=
  { record with
    nodeId := o.nodeId
    state := o.state
    lastSeen := o.lastSeen
    endpoint := o.endpoint.getD record.endpoint }

lemma Overlay.on_on (o : Overlay) (record : PeerRecord) : o.on (o.on record) = o.on record := by
  unfold Overlay.on
  cases o.endpoint <;> rfl

variable (ev : MembershipEvent)

def overlay (endpoint : Option Endpoint) : Overlay where
  nodeId := ev.nodeId
  state := ev.stateOf
  lastSeen := ev.timestampNs
  endpoint := if ev.HasEndpoint then some ev.endpoint else endpoint

lemma merged_eq (cell : Option PeerRecord) :
    ev.merged cell = (ev.overlay none).on (cell.getD {}) := by
  unfold merged overlay Overlay.on
  by_cases h : ev.HasEndpoint
  · simp [h]
  · simp [h]

lemma merged_on (o : Overlay) (record : PeerRecord) :
    ev.merged (some (o.on record)) = (ev.overlay o.endpoint).on record := by
  unfold merged overlay Overlay.on
  by_cases h : ev.HasEndpoint
  · simp [h]
  · simp [h]

lemma foldl_cellStep_cases (key : UInt64) (events : List MembershipEvent) :
    (∀ cell, events.foldl (cellStep key) cell = cell) ∨
    (∃ result, ∀ cell, events.foldl (cellStep key) cell = result) ∨
    ∃ o : Overlay, ∀ cell, events.foldl (cellStep key) cell = some (o.on (cell.getD {})) := by
  induction events using reverseRecOn with
  | nil => exact Or.inl fun _ => rfl
  | append_singleton events ev ih =>
    simp only [foldl_append,foldl_cons,foldl_nil]
    by_cases hkey : toKey ev.nodeId = key
    · by_cases hup : ev.Upserts
      · have hstep : ∀ cell, cellStep key cell ev = some (ev.merged cell) := by
          intro cell
          rw [cellStep,if_pos hkey,if_pos hup]
        rcases ih with h | ⟨result,h⟩ | ⟨o,h⟩
        · exact Or.inr (Or.inr ⟨ev.overlay none,fun cell => by rw [h,hstep,merged_eq]⟩)
        · exact Or.inr (Or.inl ⟨_,fun cell => by rw [h,hstep]⟩)
        · exact Or.inr (Or.inr ⟨ev.overlay o.endpoint,fun cell => by rw [h,hstep,merged_on]⟩)
      · by_cases hremove : ev.type = peerRemoved
        · refine Or.inr (Or.inl ⟨none,fun cell => ?_⟩)
          rw [cellStep,if_pos hkey,if_neg hup,if_pos hremove]
        · have hstep : ∀ cell, cellStep key cell ev = cell := by
            intro cell
            rw [cellStep,if_pos hkey,if_neg hup,if_neg hremove]
          simpa only [hstep] using ih
    · have hstep : ∀ cell, cellStep key cell ev = cell := by
        intro cell
        rw [cellStep,if_neg hkey]
      simpa only [hstep] using ih

lemma foldl_cellStep_twice (key : UInt64) (events : List MembershipEvent)
    (cell : Option PeerRecord) : events.foldl (cellStep key) (events.foldl (cellStep key) cell) =
      events.foldl (cellStep key) cell := by
  rcases foldl_cellStep_cases key events with h | ⟨result,h⟩ | ⟨o,h⟩
  · rw [h]
  · rw [h,h]
  · rw [h,h,Option.getD_some,o.on_on]

end MembershipEvent

namespace MembershipSync
open MembershipEvent MembershipTable

/-! The log. -/

lemma sequence_receiveAll (clock : ℕ → Int64) (events : List MembershipEvent)
    (s : MembershipSync) : (receiveAll clock events s).sequence =
      s.sequence+UInt64.ofNat events.length := by
  induction events generalizing clock s with
  | nil => simp [receiveAll]
  | cons ev events ih =>
    rw [receiveAll,ih,length_cons,UInt64.ofNat_add]
    change s.sequence+1+_ = _
    grind

lemma log_emit_ne_nil (s : MembershipSync) (now : Int64) (ev : MembershipEvent) :
    (s.emit now ev).eventLog ≠ [] := by
  intro h
  have hrev := reverse_pushBack s.bounded { ev with timestampNs := now, sequence := s.sequence+1 }
  change (s.emit now ev).eventLog.reverse = _ at hrev
  rw [h] at hrev
  cases hrev

lemma log_receiveAll_ne_nil (h : events ≠ []) (clock : ℕ → Int64)
    (s : MembershipSync) : (receiveAll clock events s).eventLog ≠ [] := by
  induction events generalizing clock s with
  | nil => exact absurd rfl h
  | cons ev events ih =>
    cases events with
    | nil => exact log_emit_ne_nil _ _ _
    | cons ev' events =>
      rw [receiveAll]
      exact ih (cons_ne_nil _ _) _ _

variable {s : MembershipSync}

/-- The newest event of a log that is not empty carries the counter's value. -/
theorem exists_newest (h : s.eventLog ≠ []) :
    ∃ ev rest, s.eventLog.reverse = ev::rest ∧ ev.sequence = s.sequence := by
  obtain ⟨ev,rest,hrev⟩ := exists_cons_of_ne_nil (mt reverse_eq_nil_iff.mp h)
  refine ⟨ev,rest,hrev,?_⟩
  have hnum := s.numbered 0 ev (by rw [hrev]; rfl)
  simpa using hnum

lemma newest_mem_pendingEvents (hrev : s.eventLog.reverse = ev::rest) (hev : since < ev.sequence) :
    ev ∈ s.pendingEvents since := by
  rw [pendingEvents,hrev,takeWhile_cons_of_pos (by simpa using hev),mem_reverse]
  exact mem_cons_self

lemma pendingEvents_eq_nil (h : s.sequence ≤ since) :
    s.pendingEvents since = [] := by
  by_cases hlog : s.eventLog = []
  · rw [pendingEvents,hlog]
    rfl
  · obtain ⟨ev,rest,hrev,hseq⟩ := exists_newest hlog
    rw [pendingEvents,hrev,takeWhile_cons_of_neg]
    · rfl
    · rw [hseq]
      simpa using h

lemma pred_lt {v : UInt64} (h : v ≠ 0) : v-1 < v := by
  have hpos : v.toNat ≠ 0 := fun h' => h (UInt64.toNat_inj.mp h')
  have hlt := v.toNat_lt
  rw [UInt64.lt_iff_toNat_lt,UInt64.toNat_sub,UInt64.toNat_one]
  omega

lemma length_decodeEvents_lt (data : Bytes) : (decodeEvents data).length < 2^32 := by
  rw [decodeEvents,length_map]
  exact (length_readFrames_le _ _).trans_lt (UInt32.toNat_lt _)

lemma adds_nothing_iff (s : MembershipSync) (clock : ℕ → Int64) (data : Bytes) :
    (∀ since, (s.applyEvents clock data).2.pendingEvents since ⊆ s.pendingEvents since) ↔
      decodeEvents data = [] ∨ (s.applyEvents clock data).2.sequence = 0 := by
  constructor
  · intro h
    by_contra hno
    obtain ⟨hne,hseq⟩ := not_or.mp hno
    have hcount := sequence_receiveAll clock (decodeEvents data) s
    obtain ⟨ev,rest,hrev,hev⟩ := exists_newest (log_receiveAll_ne_nil hne clock s)
    set after := receiveAll clock (decodeEvents data) s
    have hlast : after.sequence-1 < ev.sequence := (pred_lt hseq).trans_eq hev.symm
    -- The newest event would have to be one of the old log, but their numbers lie before it.
    have hold : ev ∈ s.eventLog := by
      have hmem := h (after.sequence-1) (newest_mem_pendingEvents hrev hlast)
      rw [pendingEvents,mem_reverse] at hmem
      exact mem_reverse.mp ((takeWhile_sublist _).subset hmem)
    obtain ⟨i,hi,hget⟩ := getElem_of_mem (mem_reverse.mpr hold)
    have hnum := s.numbered i ev (by rw [getElem?_eq_getElem hi,hget])
    have hlen := s.bounded
    have hfew := length_decodeEvents_lt data
    have hpos := length_pos_iff.mpr hne
    rw [length_reverse] at hi
    have hzero : UInt64.ofNat ((decodeEvents data).length+i) = 0 := by
      rw [UInt64.ofNat_add]
      grind
    have hmod := congrArg UInt64.toNat hzero
    rw [UInt64.toNat_ofNat',UInt64.toNat_zero] at hmod
    unfold kMaxEventLog at hlen
    omega
  · rintro (hnil | hseq)
    · rw [applyEvents,hnil]
      exact fun since => List.Subset.refl _
    · intro since
      rw [pendingEvents_eq_nil]
      · exact nil_subset _
      · rw [hseq]
        exact UInt64.zero_le

lemma lookup_reapply {clock clock' : ℕ → Int64} (h : AllAccepted (decodeEvents data) s.table)
    (h' : AllAccepted (decodeEvents data) (s.applyEvents clock data).2.table) (id : NodeID) :
    ((s.applyEvents clock data).2.applyEvents clock' data).2.table.lookup id =
      (s.applyEvents clock data).2.table.lookup id := by
  apply lookup_of_find
  have honce : (s.applyEvents clock data).2.table = (decodeEvents data).foldl applyTo s.table :=
    table_receiveAll _ _ _
  have htwice : ((s.applyEvents clock data).2.applyEvents clock' data).2.table =
      (decodeEvents data).foldl applyTo (s.applyEvents clock data).2.table := table_receiveAll _ _ _
  rw [htwice,find_applyAll h',honce,find_applyAll h,foldl_cellStep_twice]

end MembershipSync

/-! Two nodes. -/

/-- A node with the number up to which it has sent its events (`local_sequence_`). -/
structure GossipNode where
  sync : MembershipSync := .fresh
  localSequence : UInt64 := 0

namespace GossipNode
open MembershipSync MembershipEvent

variable (n : GossipNode)

def pending : List MembershipEvent := n.sync.pendingEvents n.localSequence

def send : Bytes × GossipNode :=
  (serializeEvents n.pending,
    { n with localSequence := (n.pending.getLast?.map MembershipEvent.sequence).getD n.localSequence })

variable (clock : ℕ → Int64)

def hear (message : Bytes) : GossipNode :=
  { n with sync := (n.sync.applyEvents clock message).2 }

variable (pair : GossipNode × GossipNode)

/-- The first node sends, the second one hears it and sends next. -/
def turn : GossipNode × GossipNode :=
  (pair.2.hear clock pair.1.send.1,pair.1.send.2)

def turns (clocks : ℕ → ℕ → Int64) : ℕ → GossipNode × GossipNode → GossipNode × GossipNode
  | 0, pair => pair
  | n+1, pair => turns (fun i => clocks (i+1)) n (turn (clocks 0) pair)

/-- No number has been sent that was not given out. -/
def Sane : Prop := n.localSequence.toNat ≤ n.sync.sequence.toNat

lemma length_pending_le : n.pending.length ≤ kMaxEventLog := by
  rw [pending,pendingEvents,length_reverse]
  refine ((takeWhile_sublist _).length_le).trans ?_
  rw [length_reverse]
  exact n.sync.bounded

lemma sane_send {n : GossipNode} (h : n.Sane) : n.send.2.Sane := by
  unfold Sane send pending pendingEvents
  rw [getLast?_reverse,head?_takeWhile]
  by_cases hlog : n.sync.eventLog = []
  · rw [hlog]
    exact h
  · obtain ⟨ev,rest,hrev,hseq⟩ := exists_newest hlog
    rw [hrev,head?_cons]
    by_cases hnew : ev.sequence > n.localSequence
    · rw [Option.filter_some,if_pos (decide_eq_true hnew)]
      exact (congrArg UInt64.toNat hseq).le
    · rw [Option.filter_some,if_neg (by simpa using hnew)]
      exact h

variable {a b : GossipNode}

lemma pending_hear (ha : a.pending ≠ []) (hb : b.Sane)
    (hroom : b.sync.sequence.toNat+kMaxEventLog < 2^64) (clock : ℕ → Int64) :
    (b.hear clock a.send.1).pending ≠ [] ∧ (b.hear clock a.send.1).Sane ∧
      (b.hear clock a.send.1).sync.sequence.toNat ≤ b.sync.sequence.toNat+kMaxEventLog := by
  have hmax := length_pending_le a
  have hle := length_decodeEvents_le a.pending
  have hne : decodeEvents (serializeEvents a.pending) ≠ [] :=
    decodeEvents_ne_nil ha (hmax.trans_lt (by decide))
  have hpos := length_pos_iff.mpr hne
  have hseq : (b.hear clock a.send.1).sync.sequence.toNat =
      b.sync.sequence.toNat+(decodeEvents (serializeEvents a.pending)).length := by
    change (receiveAll clock (decodeEvents (serializeEvents a.pending)) b.sync).sequence.toNat = _
    rw [sequence_receiveAll,UInt64.toNat_add,UInt64.toNat_ofNat']
    omega
  unfold Sane at hb
  obtain ⟨ev,rest,hrev,hev⟩ := exists_newest (log_receiveAll_ne_nil hne clock b.sync)
  have hnew : b.localSequence < ev.sequence := by
    rw [hev,UInt64.lt_iff_toNat_lt]
    exact ((Nat.lt_add_of_pos_right hpos).trans_le' hb).trans_eq hseq.symm
  refine ⟨ne_nil_of_mem (newest_mem_pendingEvents hrev hnew),?_,by omega⟩
  change b.localSequence.toNat ≤ _
  omega

variable (clocks : ℕ → ℕ → Int64)

lemma pending_turns (n : ℕ) (ha : a.pending ≠ []) (hsa : a.Sane)
    (hsb : b.Sane) (hrooma : a.sync.sequence.toNat+kMaxEventLog*n < 2^64)
    (hroomb : b.sync.sequence.toNat+kMaxEventLog*n < 2^64) :
    (turns clocks n (a,b)).1.pending ≠ [] := by
  induction n generalizing clocks a b with
  | zero => exact ha
  | succ n ih =>
    rw [Nat.mul_succ] at hrooma hroomb
    obtain ⟨hpending,hsane,hseq⟩ := pending_hear ha hsb (by omega) (clocks 0)
    have hspeaks : (b.hear (clocks 0) a.send.1).sync.sequence.toNat+kMaxEventLog*n < 2^64 := by omega
    have hlistens : a.send.2.sync.sequence.toNat+kMaxEventLog*n < 2^64 := by
      change a.sync.sequence.toNat+_ < _
      omega
    exact ih _ hpending hsane (sane_send hsa) hspeaks hlistens

lemma turn_of_pending_nil (h : a.pending = []) (clock : ℕ → Int64) (b : GossipNode) :
    turn clock (a,b) = (b,a) := by
  have hsend : a.send = (serializeEvents [],a) := by
    unfold send
    rw [h]
    rfl
  unfold turn
  rw [hsend]
  rfl

def Quiet : Prop := pair.1.pending = [] ∧ pair.2.pending = []

lemma quiet_turns_iff (n : ℕ) (hsa : a.Sane) (hsb : b.Sane)
    (hrooma : a.sync.sequence.toNat+kMaxEventLog*n < 2^64)
    (hroomb : b.sync.sequence.toNat+kMaxEventLog*n < 2^64) :
    Quiet (turns clocks n (a,b)) ↔ Quiet (a,b) := by
  induction n generalizing clocks a b with
  | zero => rfl
  | succ n ih =>
    by_cases ha : a.pending = []
    · -- Nothing was said, the other one is next.
      rw [Nat.mul_succ] at hrooma hroomb
      rw [turns,turn_of_pending_nil ha,ih _ hsb hsa (by omega) (by omega)]
      exact and_comm
    · exact iff_of_false (fun h => pending_turns clocks _ ha hsa hsb hrooma hroomb h.1)
        fun h => ha h.1

variable (before after : MembershipSync)

def SameTable : Prop :=
  ∀ id, after.table.lookup id = before.table.lookup id

/-- Nothing is pending that was not pending before. -/
def AddsNothing : Prop :=
  ∀ since, after.pendingEvents since ⊆ before.pendingEvents since

/-- Nothing becomes pending when a batch is applied again only if it brings no event or the counter
comes round to zero with it. If the counter does not come round, everything stays as it is only if the
batch brings no event. The table alone stays as it is if no upsert is refused for want of room. Two
nodes come to rest only if they were at rest. -/
theorem reapply_iff (s : MembershipSync) (clock clock' : ℕ → Int64) (data : Bytes) :
    let once := (s.applyEvents clock data).2
    let twice := (once.applyEvents clock' data).2
    let count := UInt64.ofNat (decodeEvents data).length
    (AddsNothing once twice ↔ decodeEvents data = [] ∨ s.sequence+count+count = 0) ∧
    (s.sequence.toNat+2*(decodeEvents data).length < 2^64 →
      (SameTable once twice ∧ AddsNothing once twice ↔ decodeEvents data = [])) ∧
    (AllAccepted (decodeEvents data) s.table → AllAccepted (decodeEvents data) once.table →
      SameTable once twice) ∧
    ∀ (clocks : ℕ → ℕ → Int64) (n : ℕ) (a b : GossipNode), a.Sane → b.Sane →
      a.sync.sequence.toNat+kMaxEventLog*n < 2^64 → b.sync.sequence.toNat+kMaxEventLog*n < 2^64 →
      (Quiet (turns clocks n (a,b)) ↔ Quiet (a,b)) := by
  intro once twice count
  have hcount : twice.sequence = s.sequence+count+count :=
    (sequence_receiveAll _ _ _).trans (congrArg (·+count) (sequence_receiveAll _ _ _))
  have hadds : AddsNothing once twice ↔ decodeEvents data = [] ∨ s.sequence+count+count = 0 :=
    hcount ▸ adds_nothing_iff once clock' data
  refine ⟨hadds,fun hroom => ?_,lookup_reapply,fun clocks n _ _ => quiet_turns_iff clocks n⟩
  have hround : s.sequence+count+count = 0 → decodeEvents data = [] := by
    intro hzero
    have hnat := congrArg UInt64.toNat hzero
    simp only [count,UInt64.toNat_add,UInt64.toNat_ofNat',UInt64.toNat_zero] at hnat
    exact length_eq_zero_iff.mp (by omega)
  rw [hadds,or_iff_left_of_imp hround]
  refine ⟨And.right,fun hnil => ⟨lookup_reapply ?_ ?_,hnil⟩⟩
  · rw [hnil]
    trivial
  · rw [hnil]
    trivial

def online : Bytes := serializeEvents [cameOnline]

def heardOnce : MembershipSync := (fresh.applyEvents (fun _ => 0) online).2

def otherId : NodeID := List.Vector.replicate 32 1

def replaced : Bytes :=
  serializeEvents [{ type := peerAdded, nodeId := otherId },
    { type := peerRemoved, nodeId := MembershipTable.firstId }]

def crowded : MembershipSync :=
  (MembershipSync.applyEvents { fresh with table := { capacity := 1 } } (fun _ => 0) online).2

/-- The second application of one event makes it pending again, that of two changes a table that had
no room at first. -/
theorem reapplied_goes_on : (let twice := (heardOnce.applyEvents (fun _ => 0) online).2
     decodeEvents online = [cameOnline] ∧ heardOnce.pendingEvents 1 = [] ∧
       twice.pendingEvents 1 = [{ cameOnline with timestampNs := 0, sequence := 2 }]) ∧
    (let once := (crowded.applyEvents (fun _ => 0) replaced).2
     let twice := (once.applyEvents (fun _ => 0) replaced).2
     observed once.table otherId = none ∧ observed twice.table otherId = some ⟨.online,{},0⟩) ∧
    ∀ n, 1+kMaxEventLog*n < 2^64 →
      (turns (fun _ _ => 0) n ({ sync := heardOnce },{})).1.pending ≠ [] := by
  refine ⟨⟨?_,?_,?_⟩,⟨?_,?_⟩,fun n hn => ?_⟩
  · decide +kernel
  · decide +kernel
  · decide +kernel
  · decide +kernel
  · decide +kernel
  · have hseq : heardOnce.sequence.toNat = 1 := by decide +kernel
    have hroom : (0 : ℕ)+kMaxEventLog*n < 2^64 := by omega
    exact pending_turns _ n (by decide +kernel) (Nat.zero_le _) (Nat.zero_le _) (hseq ▸ hn) hroom

end GossipNode
end SmoFramework.Sync
