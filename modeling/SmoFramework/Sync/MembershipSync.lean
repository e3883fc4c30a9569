import SmoFramework.Library.OrderFree
import SmoFramework.Sync.MembershipEvent

/-! `MembershipSync`: events from other nodes change the membership table and are emitted again with a
time and a number of their own. The subscribers are left out, they change nothing here. -/
namespace SmoFramework.Sync
open Library Discovery MembershipEventType List

/-! What one event does to the table. -/

namespace MembershipEvent

variable (ev : MembershipEvent)

def Upserts : Prop :=
  ev.type = peerAdded ∨ ev.type = peerUpdated ∨ ev.type = stateChange

instance (ev : MembershipEvent) : Decidable ev.Upserts := inferInstanceAs (Decidable (_ ∨ _ ∨ _))

def stateOf : PeerState :=
  if ev.type = stateChange then (if ev.newState ≠ .unknown then ev.newState else .online) else .online

def HasEndpoint : Prop := ev.endpoint.port ≠ 0 ∧ ev.endpoint.host ≠ []

instance (ev : MembershipEvent) : Decidable ev.HasEndpoint := inferInstanceAs (Decidable (_ ∧ _))

/-- The record that is upserted, made from the one in the table if there is one. -/
def merged (existing : Option PeerRecord) : PeerRecord :=
  let record := existing.getD {}
  { record with
    nodeId := ev.nodeId
    state := ev.stateOf
    lastSeen := ev.timestampNs
    endpoint := if ev.HasEndpoint then ev.endpoint else record.endpoint }

/-- The results of `upsert` and `remove` are dropped. -/
def applyTo (t : MembershipTable) (ev : MembershipEvent) : MembershipTable :=
  if ev.Upserts then (t.upsert (ev.merged (t.records.find (MembershipTable.toKey ev.nodeId)))).2
  else if ev.type = peerRemoved then (t.remove ev.nodeId).2
  else t

end MembershipEvent

/-! The state. -/

def kMaxEventLog : ℕ := 1000

/-- The log is numbered without gaps up to the counter and never longer than its bound. -/
structure MembershipSync where
  table : MembershipTable := {}
  sequence : UInt64 := 0
  eventLog : List MembershipEvent := []
  numbered : ∀ i ev, eventLog.reverse[i]? = some ev → ev.sequence = sequence-UInt64.ofNat i := by simp
  bounded : eventLog.length ≤ kMaxEventLog := by decide

/-- The log after `push_back`, with its first entry erased if it has become too long. -/
def pushBack (log : List MembershipEvent) (event : MembershipEvent) : List MembershipEvent :=
  if (log ++ [event]).length > kMaxEventLog then (log ++ [event]).tail else log ++ [event]

lemma reverse_pushBack (h : log.length ≤ kMaxEventLog)
    (event : MembershipEvent) :
    (pushBack log event).reverse = (event::log.reverse).take kMaxEventLog := by
  have hlen : (log ++ [event]).length = log.length+1 := length_append
  have hrev : (log ++ [event]).reverse = event::log.reverse := reverse_concat
  unfold pushBack
  split_ifs with hfull
  · have hlast : ((event::log.reverse).length-1) = kMaxEventLog := by
      rw [length_cons,length_reverse]
      omega
    rw [← dropLast_reverse,hrev,dropLast_eq_take,hlast]
  · rw [hrev,take_of_length_le]
    rw [length_cons,length_reverse]
    omega

namespace MembershipSync

def fresh : MembershipSync := {}

variable (s : MembershipSync) (now : Int64)

def emit (event : MembershipEvent) : MembershipSync where
  table := s.table
  sequence := s.sequence+1
  eventLog := pushBack s.eventLog { event with timestampNs := now, sequence := s.sequence+1 }
  numbered := by
    intro i ev hev
    rw [reverse_pushBack s.bounded,List.getElem?_take] at hev
    split_ifs at hev
    cases i with
    | zero =>
      cases hev
      simp
    | succ i =>
      rw [s.numbered i ev hev,Nat.succ_eq_add_one,UInt64.ofNat_add]
      grind
  bounded := by
    rw [← List.length_reverse,reverse_pushBack s.bounded]
    exact List.length_take_le _ _

def receive (ev : MembershipEvent) : MembershipSync :=
  emit { s with table := ev.applyTo s.table } now ev

/-- The turns of the loop, with the times at which they emit. -/
def receiveAll (clock : ℕ → Int64) : List MembershipEvent → MembershipSync → MembershipSync
  | [], s => s
  | ev::events, s => receiveAll (fun i => clock (i+1)) events (s.receive (clock 0) ev)

variable (clock : ℕ → Int64)

def applyEvents (data : Bytes) :
    Result Unit × MembershipSync := (.ok (),receiveAll clock (decodeEvents data) s)

/-- The newest events down to the first one with a number that is not above the given one. -/
def pendingEvents (since : UInt64) : List MembershipEvent :=
  (s.eventLog.reverse.takeWhile fun ev => ev.sequence > since).reverse

variable (batches : List ((ℕ → Int64) × Bytes))

/-- Batches arrive one after the other, each with the times at which its events are emitted. -/
def deliver : MembershipSync :=
  batches.foldl (fun s batch => (s.applyEvents batch.1 batch.2).2) s

def arrivals : List MembershipEvent :=
  batches.flatMap fun batch => decodeEvents batch.2

lemma table_receiveAll (events : List MembershipEvent) (s : MembershipSync) :
    (receiveAll clock events s).table = events.foldl MembershipEvent.applyTo s.table := by
  induction events generalizing clock s with
  | nil => rfl
  | cons ev events ih => exact ih _ _

lemma table_deliver :
    (s.deliver batches).table = (arrivals batches).foldl MembershipEvent.applyTo s.table := by
  induction batches generalizing s with
  | nil => rfl
  | cons batch batches ih =>
    rw [arrivals,flatMap_cons,foldl_append,← table_receiveAll batch.1]
    exact ih _

end MembershipSync

/-! The entry of one key. -/

namespace MembershipEvent
open MembershipTable

/-- The event can change the table. -/
def Changes (ev : MembershipEvent) : Prop := ev.Upserts ∨ ev.type = peerRemoved

def cellStep (key : UInt64) (cell : Option PeerRecord) (ev : MembershipEvent) : Option PeerRecord :=
  if toKey ev.nodeId = key then
    if ev.Upserts then some (ev.merged cell)
    else if ev.type = peerRemoved then none
    else cell
  else cell

/-- The upsert of the event is not refused for want of room. -/
def Accepted (t : MembershipTable) (ev : MembershipEvent) : Prop :=
  ev.Upserts → t.records.contains (toKey ev.nodeId) = true ∨ t.count < t.capacity

def AllAccepted : List MembershipEvent → MembershipTable → Prop
  | [], _ => True
  | ev::events, t => ev.Accepted t ∧ AllAccepted events (applyTo t ev)

lemma find_applyTo (h : ev.Accepted t)
    (key : UInt64) : (applyTo t ev).records.find key = cellStep key (t.records.find key) ev := by
  unfold applyTo cellStep
  by_cases hup : ev.Upserts
  · rw [if_pos hup,if_pos hup,find_upsert (h hup)]
    by_cases hkey : toKey ev.nodeId = key
    · subst hkey
      rw [if_pos rfl]
      exact if_pos rfl
    · rw [if_neg hkey]
      exact if_neg (Ne.symm hkey)
  · rw [if_neg hup,if_neg hup]
    by_cases hremove : ev.type = peerRemoved
    · rw [if_pos hremove,if_pos hremove,find_remove]
      exact if_congr eq_comm rfl rfl
    · rw [if_neg hremove,if_neg hremove,ite_self]

lemma find_applyAll
    (h : AllAccepted events t) (key : UInt64) : (events.foldl applyTo t).records.find key =
      events.foldl (cellStep key) (t.records.find key) := by
  induction events generalizing t with
  | nil => rfl
  | cons ev events ih =>
    rw [foldl_cons,foldl_cons,ih h.2,find_applyTo h.1]

end MembershipEvent

/-! What is compared of two tables. -/

structure Seen where
  state : PeerState
  endpoint : Endpoint
  lastSeen : Int64
  deriving DecidableEq

def seen (cell : Option PeerRecord) : Option Seen :=
  cell.map fun record => ⟨record.state,record.endpoint,record.lastSeen⟩

/-- Presence, state, endpoint and time of a node. -/
def observed (t : MembershipTable) (id : NodeID) : Option Seen :=
  match t.lookup id with
  | .ok record => seen (some record)
  | .error _ => none

lemma observed_eq (t : MembershipTable) (id : NodeID) :
    observed t id = seen (t.records.find (MembershipTable.toKey id)) := by
  unfold observed MembershipTable.lookup
  cases t.records.find (MembershipTable.toKey id) with
  | none => rfl
  | some record => rfl

namespace MembershipEvent
open MembershipTable

def seenStep (key : UInt64) (cell : Option Seen) (ev : MembershipEvent) : Option Seen :=
  if toKey ev.nodeId = key then
    if ev.Upserts then some {
      state := ev.stateOf
      endpoint := if ev.HasEndpoint then ev.endpoint else (cell.map Seen.endpoint).getD {}
      lastSeen := ev.timestampNs }
    else if ev.type = peerRemoved then none
    else cell
  else cell

lemma seen_cellStep (key : UInt64) (cell : Option PeerRecord) (ev : MembershipEvent) :
    seen (cellStep key cell ev) = seenStep key (seen cell) ev := by
  unfold cellStep seenStep
  by_cases hkey : toKey ev.nodeId = key
  · rw [if_pos hkey,if_pos hkey]
    by_cases hup : ev.Upserts
    · rw [if_pos hup,if_pos hup]
      cases cell <;> rfl
    · rw [if_neg hup,if_neg hup]
      by_cases hremove : ev.type = peerRemoved
      · rw [if_pos hremove,if_pos hremove]
        rfl
      · rw [if_neg hremove,if_neg hremove]
  · rw [if_neg hkey,if_neg hkey]

lemma seen_foldl (key : UInt64) (cell : Option PeerRecord) (events : List MembershipEvent) :
    seen (events.foldl (cellStep key) cell) = events.foldl (seenStep key) (seen cell) :=
  (foldl_hom seen fun cell ev => (seen_cellStep key cell ev).symm).symm

lemma observed_applyAll
    (h : AllAccepted events t) (id : NodeID) : observed (events.foldl applyTo t) id =
      events.foldl (seenStep (toKey id)) (observed t id) := by
  rw [observed_eq,observed_eq,find_applyAll h,seen_foldl]

/-! Events that may come in any order. -/

/-- Two events for one entry that leave the same behind in both orders. -/
def Compatible (x y : MembershipEvent) : Prop :=
  x.Changes → y.Changes → toKey x.nodeId = toKey y.nodeId →
    x.type = peerRemoved ∧ y.type = peerRemoved ∨
    x.Upserts ∧ y.Upserts ∧ x.stateOf = y.stateOf ∧ x.timestampNs = y.timestampNs ∧
      (x.HasEndpoint → y.HasEndpoint → x.endpoint = y.endpoint)

section
variable {key : UInt64} {cell : Option Seen} {ev x y : MembershipEvent}

lemma not_upserts_of_removed (h : ev.type = peerRemoved) : ¬ev.Upserts := by
  rw [Upserts,h]
  decide

lemma seenStep_self (h : ev.Changes → toKey ev.nodeId ≠ key) : seenStep key cell ev = cell := by
  unfold seenStep
  by_cases hkey : toKey ev.nodeId = key
  · obtain ⟨hup,hremove⟩ := not_or.mp fun hc => h hc hkey
    rw [if_pos hkey,if_neg hup,if_neg hremove]
  · rw [if_neg hkey]

lemma seenStep_removed (hkey : toKey ev.nodeId = key) (h : ev.type = peerRemoved) :
    seenStep key cell ev = none := by
  rw [seenStep,if_pos hkey,if_neg (not_upserts_of_removed h),if_pos h]

lemma seenStep_upserts (hkey : toKey ev.nodeId = key) (h : ev.Upserts) :
    seenStep key cell ev = some {
      state := ev.stateOf
      endpoint := if ev.HasEndpoint then ev.endpoint else (cell.map Seen.endpoint).getD {}
      lastSeen := ev.timestampNs } := by
  rw [seenStep,if_pos hkey,if_pos h]

lemma commutes_of_compatible (h : Compatible x y) (key : UInt64) :
    OrderFree.Commutes (seenStep key) x y := by
  intro cell
  by_cases hx : x.Changes → toKey x.nodeId ≠ key
  · rw [seenStep_self hx,seenStep_self hx]
  by_cases hy : y.Changes → toKey y.nodeId ≠ key
  · rw [seenStep_self hy,seenStep_self hy]
  simp only [Classical.not_imp,not_not] at hx hy
  obtain ⟨hcx,hkx⟩ := hx
  obtain ⟨hcy,hky⟩ := hy
  rcases h hcx hcy (hkx.trans hky.symm) with ⟨hrx,hry⟩ | ⟨hux,huy,hstate,htime,hend⟩
  · rw [seenStep_removed hky hry,seenStep_removed hkx hrx]
  · simp only [seenStep_upserts hkx hux,seenStep_upserts hky huy,hstate,htime,Option.map_some,
      Option.getD_some,Option.some.injEq,Seen.mk.injEq,true_and,and_true]
    by_cases hex : x.HasEndpoint
    · by_cases hey : y.HasEndpoint
      · simp [hex,hey,hend hex hey]
      · simp [hex,hey]
    · simp [hex]

lemma clashes_of_not_compatible (h : ¬Compatible x y) :
    OrderFree.Clashes (seenStep (toKey x.nodeId)) x y := by
  intro cell heq
  simp only [Compatible,Classical.not_imp,not_or] at h
  obtain ⟨hcx,hcy,hkey,hremoved,hupserts⟩ := h
  rcases hcx with hux | hrx
  · rcases hcy with huy | hry
    · simp only [seenStep_upserts rfl hux,seenStep_upserts hkey.symm huy,Option.map_some,
        Option.getD_some,Option.some.injEq,Seen.mk.injEq] at heq
      refine hupserts ⟨hux,huy,heq.1.symm,heq.2.2.symm,fun hex hey => ?_⟩
      simpa [hex,hey] using heq.2.1.symm
    · simp [seenStep_removed hkey.symm hry,seenStep_upserts rfl hux] at heq
  · rcases hcy with huy | hry
    · simp [seenStep_removed rfl hrx,seenStep_upserts hkey.symm huy] at heq
    · exact hremoved ⟨hrx,hry⟩

lemma foldl_seenStep_none {events : List MembershipEvent}
    (h : ∀ ev ∈ events, ev.Changes → toKey ev.nodeId = key → ev.type = peerRemoved) :
    events.foldl (seenStep key) none = none := by
  induction events with
  | nil => rfl
  | cons ev events ih =>
    obtain ⟨hev,hevents⟩ := forall_mem_cons.mp h
    have hstep : seenStep key none ev = none := by
      by_cases hself : ev.Changes → toKey ev.nodeId ≠ key
      · exact seenStep_self hself
      · simp only [Classical.not_imp,not_not] at hself
        exact seenStep_removed hself.2 (hev hself.1 hself.2)
    rw [foldl_cons,hstep]
    exact ih hevents

/-! Room. -/

lemma allAccepted_append :
    AllAccepted (events ++ events') t ↔
      AllAccepted events t ∧ AllAccepted events' (events.foldl applyTo t) := by
  induction events generalizing t with
  | nil => simp [AllAccepted]
  | cons ev events ih => simp only [cons_append,AllAccepted,ih,foldl_cons,and_assoc]

lemma count_applyTo_le (t : MembershipTable) (ev : MembershipEvent) :
    (applyTo t ev).count ≤ t.count+1 ∧ (applyTo t ev).capacity = t.capacity := by
  unfold applyTo
  split_ifs
  · unfold upsert
    split_ifs
    · exact ⟨Nat.le_succ _,rfl⟩
    · exact ⟨AssocMap.length_insert_le _ _ _,rfl⟩
  · unfold remove
    cases t.records.find (toKey ev.nodeId) with
    | none => exact ⟨Nat.le_succ _,rfl⟩
    | some record => exact ⟨Nat.le_succ_of_le (AssocMap.length_erase_le _ _),rfl⟩
  · exact ⟨Nat.le_succ _,rfl⟩

lemma allAccepted_of_room (h : t.count+events.length ≤ t.capacity) : AllAccepted events t := by
  induction events generalizing t with
  | nil => trivial
  | cons ev events ih =>
    rw [length_cons] at h
    obtain ⟨hcount,hcapacity⟩ := count_applyTo_le t ev
    exact ⟨fun _ => Or.inr (by omega),ih (by omega)⟩

end
end MembershipEvent

/-! Convergence. -/

namespace MembershipSync
open MembershipEvent MembershipTable

/-- No event changes what the table shows if an event with a later time has acted on its entry. -/
def KeepsLater (t : MembershipTable) (events : List MembershipEvent) : Prop :=
  ∀ pre ev post, events = pre ++ ev::post →
    (∃ later ∈ pre, later.Changes ∧ toKey later.nodeId = toKey ev.nodeId ∧
      ev.timestampNs < later.timestampNs) →
    ∀ id, observed (applyTo (pre.foldl applyTo t) ev) id = observed (pre.foldl applyTo t) id

lemma keepsLater_of_compatible {t : MembershipTable}
    (h : ∀ x ∈ events, ∀ y ∈ events, Compatible x y) (hacc : AllAccepted events t) :
    KeepsLater t events := by
  rintro pre ev post rfl ⟨later,hlater,hchanges,hkey,htime⟩ id
  obtain ⟨hpre,hev,-⟩ := allAccepted_append.mp hacc
  have hstep : observed (applyTo (pre.foldl applyTo t) ev) id =
      seenStep (toKey id) (observed (pre.foldl applyTo t) id) ev :=
    observed_applyAll (show AllAccepted [ev] _ from ⟨hev,trivial⟩) id
  rw [hstep]
  by_cases hself : ev.Changes → toKey ev.nodeId ≠ toKey id
  · exact seenStep_self hself
  simp only [Classical.not_imp,not_not] at hself
  obtain ⟨hcev,hid⟩ := hself
  have hmem : ∀ e ∈ pre, e ∈ pre ++ ev::post := fun e he => mem_append_left _ he
  rcases h later (hmem later hlater) ev (by simp) hchanges hcev hkey with ⟨hrl,hrev⟩ | ⟨-,-,-,heq,-⟩
  · -- Everything that touches the entry removes it.
    have hall : ∀ e ∈ pre, e.Changes → toKey e.nodeId = toKey id → e.type = peerRemoved := by
      intro e he hce hke
      rcases h e (hmem e he) later (hmem later hlater) hce hchanges
        (hke.trans (hid.symm.trans hkey.symm)) with ⟨hre,-⟩ | ⟨-,hul,-⟩
      · exact hre
      · exact absurd hul (not_upserts_of_removed hrl)
    obtain ⟨p,q,rfl⟩ := append_of_mem hlater
    rw [observed_applyAll hpre,foldl_append,foldl_cons,seenStep_removed (hkey.trans hid) hrl,
      foldl_seenStep_none fun e he => hall e (mem_append_right _ (mem_cons_of_mem _ he)),
      seenStep_removed hid hrev]
  · rw [heq] at htime
    exact (Int64.lt_irrefl htime).elim

lemma exists_arrivals (h : ∀ ev ∈ events, ∃ single, decodeEvents single = [ev]) :
    ∃ batches, arrivals batches = events := by
  induction events with
  | nil => exact ⟨[],rfl⟩
  | cons ev events ih =>
    obtain ⟨⟨single,hsingle⟩,hevents⟩ := forall_mem_cons.mp h
    obtain ⟨batches,hbatches⟩ := ih hevents
    refine ⟨(fun _ => 0,single)::batches,?_⟩
    rw [arrivals,flatMap_cons,hsingle]
    exact congrArg (ev::·) hbatches

/-- Two nodes that get the same events in any order and any batches end with the same table, without
older events undoing later ones, exactly if every two of the events are compatible. -/
theorem converges_iff (batches : List ((ℕ → Int64) × Bytes)) :
    (∀ (a b : MembershipSync) (toA toB : List ((ℕ → Int64) × Bytes)), a.table = b.table →
      (arrivals toA).Perm (arrivals batches) → (arrivals toB).Perm (arrivals batches) →
      AllAccepted (arrivals toA) a.table → AllAccepted (arrivals toB) b.table →
      (∀ id, observed (a.deliver toA).table id = observed (b.deliver toB).table id) ∧
        KeepsLater a.table (arrivals toA)) ↔
      ∀ x ∈ arrivals batches, ∀ y ∈ arrivals batches, Compatible x y := by
  constructor
  · intro h x hx y hy
    by_contra hno
    -- The two events come last, in their two orders, to two nodes with enough room.
    obtain ⟨l,l',hl,hl',hne⟩ := OrderFree.exists_foldl_ne hx hy (clashes_of_not_compatible hno) none
    have hsingle : ∀ ev ∈ arrivals batches, ∃ single, decodeEvents single = [ev] := by
      intro ev hev
      obtain ⟨batch,-,hbatch⟩ := mem_flatMap.mp hev
      exact exists_single hbatch
    obtain ⟨toA,rfl⟩ := exists_arrivals fun ev hev => hsingle ev (hl.subset hev)
    obtain ⟨toB,rfl⟩ := exists_arrivals fun ev hev => hsingle ev (hl'.subset hev)
    let node : MembershipSync := { table := { capacity := (arrivals batches).length } }
    have hroom : ∀ {events : List MembershipEvent}, events.Perm (arrivals batches) →
        AllAccepted events node.table := fun hperm =>
      allAccepted_of_room ((Nat.zero_add _).trans_le hperm.length_eq.le)
    have hsame := (h node node toA toB rfl hl hl' (hroom hl) (hroom hl')).1 x.nodeId
    rw [table_deliver,table_deliver,observed_applyAll (hroom hl),observed_applyAll (hroom hl')] at hsame
    exact hne hsame
  · intro h a b toA toB htable hA hB haccA haccB
    constructor
    · intro id
      rw [table_deliver,table_deliver,observed_applyAll haccA,observed_applyAll haccB,htable]
      exact OrderFree.foldl_eq (fun x hx y hy => commutes_of_compatible (h x hx y hy) _) hA hB _
    · exact keepsLater_of_compatible
        (fun x hx y hy => h x (hA.subset hx) y (hA.subset hy)) haccA

def wentOffline : MembershipEvent :=
  { type := stateChange, nodeId := firstId, timestampNs := 1, newState := .offline }

def cameOnline : MembershipEvent :=
  { type := stateChange, nodeId := firstId, timestampNs := 2, newState := .online }

/-- The event that arrives last decides, and the older one undoes the later one. -/
theorem last_arrival_decides :
    let afterBatch := fun events => ((fresh.applyEvents (fun _ => 0) (serializeEvents events)).2).table
    decodeEvents (serializeEvents [wentOffline,cameOnline]) = [wentOffline,cameOnline] ∧
      decodeEvents (serializeEvents [cameOnline,wentOffline]) = [cameOnline,wentOffline] ∧
      observed (afterBatch [wentOffline,cameOnline]) firstId = some ⟨.online,{},2⟩ ∧
      observed (afterBatch [cameOnline]) firstId = some ⟨.online,{},2⟩ ∧
      observed (afterBatch [cameOnline,wentOffline]) firstId = some ⟨.offline,{},1⟩ := by
  refine ⟨?_,?_,?_,?_,?_⟩ <;> decide +kernel

end MembershipSync
end SmoFramework.Sync
