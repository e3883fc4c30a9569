import SmoFramework.Discovery.HealthMonitor

/-! The heartbeat service (`core/network/udp/heartbeat`). It pings the peers that are online, lets the health
monitor look for missing answers, and takes the answers in. No datagram leaves it yet. The state-change
callback is outside: its calls are listed, and it does not touch the membership table. -/
namespace SmoFramework.Network
open Library Discovery MembershipTable

structure HeartbeatConfig where
  pingIntervalMs : UInt32 := 5000
  pingTimeoutMs : UInt32 := 3000
  maxMisses : UInt32 := 3

structure HeartbeatService where
  config : HeartbeatConfig := {}
  membership : MembershipTable := {}
  health : HealthMonitor := {}
  running : Bool := false
  lastPingNs : Int64 := 0
  sequence : UInt64 := 0
  /-- Whether a callback is set. -/
  onStateChange : Bool := false

structure PongMsg where
  timestamp : Int64 := 0

structure StateChange where
  nodeId : NodeID
  state : PeerState
  misses : Int32

/-- A 32-bit number of milliseconds in nanoseconds, without overflow. -/
def nanoseconds (ms : UInt32) : Int64 := ms.toUInt64.toInt64*1000000

/-- `rtt_ms` in the microseconds that a record keeps. A negative time, which C++ does not convert, gives
zero. -/
def rttMicros (rttNs : Int64) : UInt64 := (rttNs.toFloat/1000000.0*1000.0).toUInt64

namespace HeartbeatService
section Model
variable (order : Iteration UInt64) (s : HeartbeatService)

def start : HeartbeatService := { s with running := true }

def stop : HeartbeatService := { s with running := false }

variable (nowNs : Int64)

def sendPingAll : HeartbeatService :=
  (s.membership.peersWithState order .online).foldl (fun s rec =>
    if rec.endpoint.port = 0 then s
    else { s with
      sequence := s.sequence+1
      health := s.health.recordPing rec.nodeId nowNs }) s

def checkHealth : HeartbeatService × List StateChange :=
  let r := s.health.tick order s.membership nowNs (nanoseconds s.config.pingTimeoutMs)
    s.config.maxMisses.toInt32
  let s := { s with health := r.1, membership := r.2 }
  (s,(s.membership.peers order).filterMap fun rec =>
    if s.health.state rec.nodeId ≠ rec.state ∧ s.onStateChange then
      some ⟨rec.nodeId,s.health.state rec.nodeId,s.health.pingMisses rec.nodeId⟩
    else none)

def tick : HeartbeatService × List StateChange :=
  if ¬s.running then (s,[])
  else
    let s := if nowNs-s.lastPingNs ≥ nanoseconds s.config.pingIntervalMs then
        { s.sendPingAll order nowNs with lastPingNs := nowNs }
      else s
    s.checkHealth order nowNs

def handlePong (sender : Endpoint) (msg : PongMsg) (nowNs : Int64) : HeartbeatService :=
  match (s.membership.peersWithState order .online).find? (fun rec =>
      rec.endpoint.host = sender.host ∧ rec.endpoint.port = sender.port) with
  | none => s
  | some rec =>
    let s := { s with health := s.health.recordPong rec.nodeId nowNs }
    match s.membership.lookup rec.nodeId with
    | .error _ => s
    | .ok updated => { s with membership := (s.membership.upsert
        { updated with rttMicros := rttMicros (nowNs-msg.timestamp) }).2 }

inductive Op
  | start
  | stop
  | tick (nowNs : Int64)
  | handlePong (sender : Endpoint) (msg : PongMsg) (nowNs : Int64)

def apply : Op → HeartbeatService
  | .start => s.start
  | .stop => s.stop
  | .tick nowNs => (s.tick order nowNs).1
  | .handlePong sender msg nowNs => s.handlePong order sender msg nowNs

def run (ops : List Op) : HeartbeatService := ops.foldl (apply order) s

end Model
variable {order : Iteration UInt64}

/-- The peer is suspect or offline. -/
def Down (id : NodeID) (t : MembershipTable) : Prop :=
  ∃ rec, t.lookup id = .ok rec ∧ (rec.state = .suspect ∨ rec.state = .offline)

variable {id : NodeID} {t : MembershipTable}

lemma down_iff : Down id t ↔
    ∃ rec, t.records.find (MembershipTable.toKey id) = some rec ∧
      (rec.state = .suspect ∨ rec.state = .offline) := by
  unfold Down lookup
  cases t.records.find (toKey id) with
  | none => simp
  | some rec => simp

variable {rec new : PeerRecord} {key : UInt64}

/-- A known record is replaced by one that does not bring the peer back. -/
theorem Down.upsert (hkeyed : t.Keyed)
    (hfind : t.records.find key = some rec) (hid : new.nodeId = rec.nodeId)
    (hstate : new.state = rec.state ∨ new.state = .suspect ∨ new.state = .offline) (h : Down id t) :
    Down id (t.upsert new).2 := by
  have hkey : toKey new.nodeId = key := hid ▸ hkeyed key rec hfind
  have hknown : t.records.contains (toKey new.nodeId) = true := by
    rw [hkey,AssocMap.contains,hfind]
    rfl
  rw [down_iff] at h ⊢
  rw [find_upsert (.inl hknown),hkey]
  split_ifs with hsame
  · refine ⟨new,rfl,?_⟩
    obtain ⟨old,hold,hdown⟩ := h
    rw [hsame,hfind] at hold
    obtain rfl := Option.some.inj hold
    exact hstate.elim (fun heq => heq ▸ hdown) fun hnew => hnew
  · exact h

lemma missedState_eq (misses maxMisses : Int32) :
    HealthMonitor.missedState misses maxMisses = .suspect ∨
      HealthMonitor.missedState misses maxMisses = .offline := by
  unfold HealthMonitor.missedState
  split_ifs
  · exact .inr rfl
  · exact .inl rfl

structure StaysDown (id : NodeID) (t : MembershipTable) : Prop where
  keyed : t.Keyed
  down : Down id t

lemma StaysDown.upsert (h : StaysDown id t)
    (hfind : t.records.find key = some rec) (hid : new.nodeId = rec.nodeId)
    (hstate : new.state = rec.state ∨ new.state = .suspect ∨ new.state = .offline) :
    StaysDown id (t.upsert new).2 :=
  ⟨h.keyed.upsert new,h.down.upsert h.keyed hfind hid hstate⟩

lemma StaysDown.healthTick (h : StaysDown id t) (m : HealthMonitor) (now timeout : Int64)
    (maxMisses : Int32) : StaysDown id (m.tick order t now timeout maxMisses).2 := by
  unfold HealthMonitor.tick
  generalize order.list m.pings.entries = entries
  induction entries generalizing m t with
  | nil => exact h
  | cons e entries ih =>
    have hentry : StaysDown id (HealthMonitor.tickEntry now timeout maxMisses (m,t) e).2 := by
      unfold HealthMonitor.tickEntry
      split_ifs
      · exact h
      · cases hfind : t.records.find e.1 with
        | none => exact h
        | some rec => exact h.upsert hfind rfl (.inr (missedState_eq _ _))
      · exact h
    exact ih hentry _

lemma membership_sendPingAll (s : HeartbeatService) (nowNs : Int64) :
    (s.sendPingAll order nowNs).membership = s.membership := by
  unfold sendPingAll
  generalize s.membership.peersWithState order .online = found
  induction found generalizing s with
  | nil => rfl
  | cons rec found ih =>
    rw [List.foldl_cons]
    split_ifs
    · exact ih s
    · exact ih _

variable {s : HeartbeatService}

lemma StaysDown.tick (h : StaysDown id s.membership) (nowNs : Int64) :
    StaysDown id (s.tick order nowNs).1.membership := by
  have hpinged : StaysDown id (s.sendPingAll order nowNs).membership :=
    (membership_sendPingAll s nowNs).symm ▸ h
  unfold HeartbeatService.tick
  split_ifs
  · exact hpinged.healthTick _ _ _ _
  · exact h.healthTick _ _ _ _
  · exact h

lemma StaysDown.handlePong (h : StaysDown id s.membership) (sender : Endpoint) (msg : PongMsg)
    (nowNs : Int64) : StaysDown id (s.handlePong order sender msg nowNs).membership := by
  unfold HeartbeatService.handlePong
  split
  · exact h
  · rename_i rec _
    dsimp only
    unfold lookup
    cases hfind : s.membership.records.find (toKey rec.nodeId) with
    | none => exact h
    | some updated => exact h.upsert hfind rfl (.inl rfl)

lemma StaysDown.run (h : StaysDown id s.membership) (ops : List Op) :
    StaysDown id (s.run order ops).membership := by
  induction ops generalizing s with
  | nil => exact h
  | cons op ops ih =>
    refine ih ?_
    cases op with
    | start => exact h
    | stop => exact h
    | tick nowNs => exact h.tick nowNs
    | handlePong sender msg nowNs => exact h.handlePong sender msg nowNs

/-- Whatever the table has been through, the service never makes a suspect peer online again, neither when
its answer comes in nor with the ticks that follow. -/
theorem suspect_never_online (order : Iteration UInt64) (capacity : ℕ)
    (entries : List MembershipTable.Op) (s : HeartbeatService)
    (hmembership : s.membership = MembershipTable.run { capacity } entries) (id : NodeID)
    (rec : PeerRecord) (hlookup : s.membership.lookup id = .ok rec) (hsuspect : rec.state = .suspect)
    (ops : List Op) :
    ∃ rec', (s.run order ops).membership.lookup id = .ok rec' ∧ rec'.state ≠ .online := by
  have hdown : StaysDown id s.membership :=
    ⟨hmembership ▸ keyed_run capacity entries,rec,hlookup,.inl hsuspect⟩
  obtain ⟨rec',hlookup',hstate⟩ := (hdown.run ops).down
  refine ⟨rec',hlookup',fun honline => ?_⟩
  rw [honline] at hstate
  rcases hstate with hstate | hstate
  · cases hstate
  · cases hstate

def onePeer (state : PeerState) : HeartbeatService := {
  membership := MembershipTable.run {} [.upsert { endpoint := { port := 7777 }, state }]
  running := true }

theorem suspect_never_online_onePeer :
    ∃ rec, ((onePeer .suspect).run default [.handlePong { port := 7777 } {} 1,.tick 2]).membership.lookup
      MembershipTable.firstId = .ok rec ∧ rec.state ≠ .online :=
  suspect_never_online default 1000 [.upsert { endpoint := { port := 7777 }, state := .suspect }]
    (onePeer .suspect) rfl firstId _ rfl rfl _

/-- The answer comes half a second after the ping was missed, and after the next tick the peer is
suspect still. -/
theorem late_pong_leaves_suspect :
    let s := (onePeer .online).run default [.tick 5000000000,.tick 9000000000]
    let t := s.run default
      [.handlePong { port := 7777 } { timestamp := 5000000000 } 9500000000,.tick 10000000000]
    (s.membership.lookup firstId).toOption.map PeerRecord.state = some .suspect ∧
      (t.membership.lookup firstId).toOption.map PeerRecord.state = some .suspect ∧
      t.health.pingMisses firstId = s.health.pingMisses firstId := by
  decide +kernel

end HeartbeatService
end SmoFramework.Network
