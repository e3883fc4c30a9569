import SmoFramework.Discovery.Gossip
import SmoFramework.Sync.MembershipGossip

/-! The sending side of the gossip engine (`core/discovery/gossip`): how a payload is put together,
and a cycle that sends it to one endpoint after the other. The choice of the endpoints, the header
around a payload and the counters are left out. -/
namespace SmoFramework.Sync
open Library Library.LittleEndian Discovery List Applying
open Cbor (View)

inductive DeltaType
  | membership | crl | policy | manifest | routing | contracts
  deriving DecidableEq, Repr

def DeltaType.toByte : DeltaType → UInt8
  | .membership => 0
  | .crl => 1
  | .policy => 2
  | .manifest => 3
  | .routing => 4
  | .contracts => 5

/-! The payload. -/

/-- `assemble_gossip_payload`, from the membership data, what the providers return and what is queued. -/
def assembleGossipPayload (membership : Bytes) (provided queued : List (UInt8 × Bytes)) : Bytes :=
  let out := if membership ≠ [] then Discovery.segment DeltaType.membership.toByte membership else []
  let out := provided.foldl
    (fun out kv => if kv.2 = [] then out else out ++ Discovery.segment kv.1 kv.2) out
  queued.foldl (fun out kv => out ++ Discovery.segment kv.1 kv.2) out

def emitted (membership : Bytes) (provided queued : List (UInt8 × Bytes)) : List (UInt8 × Bytes) :=
  (if membership ≠ [] then [(DeltaType.membership.toByte,membership)] else []) ++
    (provided.filter (·.2 ≠ []) ++ queued)

lemma message_append (segments segments' : List (UInt8 × Bytes)) :
    message (segments ++ segments') = message segments ++ message segments' := flatMap_append

lemma foldl_provided (provided : List (UInt8 × Bytes)) (out : Bytes) :
    provided.foldl (fun out kv => if kv.2 = [] then out else out ++ Discovery.segment kv.1 kv.2) out =
      out ++ message (provided.filter (·.2 ≠ [])) := by
  induction provided generalizing out with
  | nil => exact (append_nil out).symm
  | cons kv provided ih =>
    rw [foldl_cons,ih]
    by_cases h : kv.2 = []
    · simp [h]
    · simp [h,message]

lemma foldl_queued (queued : List (UInt8 × Bytes)) (out : Bytes) :
    queued.foldl (fun out kv => out ++ Discovery.segment kv.1 kv.2) out = out ++ message queued := by
  induction queued generalizing out with
  | nil => exact (append_nil out).symm
  | cons kv queued ih => simp [ih,message]

lemma assembleGossipPayload_eq (membership : Bytes) (provided queued : List (UInt8 × Bytes)) :
    assembleGossipPayload membership provided queued =
      message (emitted membership provided queued) := by
  unfold assembleGossipPayload emitted
  rw [foldl_queued,foldl_provided,message_append,message_append,← append_assoc]
  by_cases h : membership = []
  · simp [h,message]
  · simp [h,message]

/-! The receiver. -/

/-- `delta_handlers_` of a receiver: what a handler does with the bytes that it is shown. -/
abbrev DeltaHandlers (σ : Type*) := UInt8 → Option (Bytes → σ → Result Unit × σ)

namespace DeltaHandlers
variable {σ : Type*}

def find (handlers : DeltaHandlers σ) (received : Bytes) : Handlers σ := fun dt state =>
  (handlers dt).map fun handler view => handler (contents received view) state

def Succeed (handlers : DeltaHandlers σ) : Prop :=
  ∀ dt handler, handlers dt = some handler → ∀ payload state, (handler payload state).1 = .ok ()

def handled (handlers : DeltaHandlers σ) (segments : List (UInt8 × Bytes)) : List (UInt8 × Bytes) :=
  segments.filter fun s => (handlers s.1).isSome

def invoke (handlers : DeltaHandlers σ) (state : σ) (s : UInt8 × Bytes) : σ :=
  match handlers s.1 with
  | none => state
  | some handler => (handler s.2 state).2

variable {handlers : DeltaHandlers σ}

lemma deliver_find (h : handlers.Succeed) (received : Bytes) (parts : List (UInt8 × View))
    (state : σ) (calls : List View) : ∃ views, deliver (handlers.find received) parts state calls =
        (.ok (),(handlers.handled (parts.map fun p => (p.1,contents received p.2))).foldl
          handlers.invoke state,calls ++ views) ∧
      views.map (contents received) =
        (handlers.handled (parts.map fun p => (p.1,contents received p.2))).map Prod.snd := by
  induction parts generalizing state calls with
  | nil => exact ⟨[],by simp [deliver,handled],rfl⟩
  | cons p parts ih =>
    obtain ⟨dt,view⟩ := p
    have hfind : handlers.find received dt state =
        (handlers dt).map fun handler view => handler (contents received view) state := rfl
    rw [deliver,hfind]
    cases hdt : handlers dt with
    | none =>
      obtain ⟨views,hdeliver,hviews⟩ := ih state calls
      refine ⟨views,?_,?_⟩
      · simpa [handled,hdt] using hdeliver
      · simpa [handled,hdt] using hviews
    | some handler =>
      have hok := h dt handler hdt (contents received view) state
      obtain ⟨views,hdeliver,hviews⟩ :=
        ih (handler (contents received view) state).2 (calls ++ [view])
      refine ⟨view::views,?_,?_⟩
      · have hcall : handler (contents received view) state =
            (.ok (),(handler (contents received view) state).2) := Prod.ext hok rfl
        rw [Option.map_some]
        dsimp only
        rw [hcall]
        dsimp only
        rw [hdeliver]
        simp [handled,hdt,invoke]
      · simpa [handled,hdt] using hviews

lemma applyGossip_find (h : handlers.Succeed)
    (hshort : ∀ s ∈ segments, 5+s.2.length < 2^32) (state : σ) : let received := message segments
    ∃ views,
      applyGossip (handlers.find received) received (segments.length+1) state =
        some (.ok (),(handlers.handled segments).foldl handlers.invoke state,views) ∧
      views.map (contents received) = (handlers.handled segments).map Prod.snd ∧
      ∃ l, FuelLoop.while_ (running received)
          (body (handlers.find received) received) (segments.length+1) { state } = some l ∧
        l.answer = none ∧ l.off = received.length := by
  intro received
  obtain ⟨views,hdeliver,hviews⟩ := deliver_find h received (payloads 0 segments) state []
  have hcontents : (payloads 0 segments).map (fun p => (p.1,contents received p.2)) = segments :=
    contents_payloads segments []
  rw [hcontents] at hdeliver hviews
  have happly := applyGossip_message (handlers.find received) hshort state
  have hwhile := while_message (handlers.find received) hshort [] state []
  rw [hdeliver] at happly
  rw [nil_append,length_nil,hdeliver] at hwhile
  obtain ⟨l,hwhile,hleft,hend⟩ := hwhile
  refine ⟨views,happly,hviews,l,hwhile,?_⟩
  rcases hend with hend | ⟨e,hanswer⟩
  · exact hend
  · rw [hanswer] at hleft
    cases hleft

lemma short_emitted
    (hmembership : membership.length < 2^32-5) (hprovided : ∀ s ∈ provided, s.2.length < 2^32-5)
    (hqueued : ∀ s ∈ queued, s.2.length < 2^32-5) :
    ∀ s ∈ emitted membership provided queued, 5+s.2.length < 2^32 := by
  intro s hs
  rcases mem_append.mp hs with hs | hs
  · split_ifs at hs with hne
    · rw [mem_singleton.mp hs]
      dsimp only
      omega
    · cases hs
  · rcases mem_append.mp hs with hs | hs
    · have := hprovided s (mem_of_mem_filter hs)
      omega
    · have := hqueued s hs
      omega

/-- Every payload that a peer assembles from segments that are short enough is read to its end, and the
handlers get, one after the other, the bytes of the segments whose types they are for. -/
theorem applyGossip_assembled (handlers : DeltaHandlers σ) (h : handlers.Succeed) (membership : Bytes)
    (provided queued : List (UInt8 × Bytes)) (hmembership : membership.length < 2^32-5)
    (hprovided : ∀ s ∈ provided, s.2.length < 2^32-5)
    (hqueued : ∀ s ∈ queued, s.2.length < 2^32-5) (state : σ) :
    let received := assembleGossipPayload membership provided queued
    let invoked := handlers.handled (emitted membership provided queued)
    ∃ fuel views,
      applyGossip (handlers.find received) received fuel state =
        some (.ok (),invoked.foldl handlers.invoke state,views) ∧
      views.map (contents received) = invoked.map Prod.snd ∧
      ∃ l, FuelLoop.while_ (running received)
          (body (handlers.find received) received) fuel { state } = some l ∧
        l.answer = none ∧ l.off = received.length := by
  intro received invoked
  have hreceived : received = message (emitted membership provided queued) :=
    assembleGossipPayload_eq membership provided queued
  obtain ⟨views,happly,hviews,hend⟩ :=
    applyGossip_find h (short_emitted hmembership hprovided hqueued) state
  rw [hreceived]
  exact ⟨_,views,happly,hviews,hend⟩

def logging : DeltaHandlers (List (UInt8 × Bytes)) := fun dt =>
  if dt ≤ 1 then some fun payload log => (.ok (),log ++ [(dt,payload)]) else none

lemma logging_succeed : logging.Succeed := by
  intro dt handler h payload log
  unfold logging at h
  split_ifs at h
  cases h
  rfl

/-- Membership data, two providers of which one has nothing, and a queued delta without a handler. -/
theorem applyGossip_assembled_logged :
    let received := assembleGossipPayload [7] [(1,[8,9]),(2,[])] [(3,[4])]
    ∃ fuel views, applyGossip (logging.find received) received fuel [] =
        some (.ok (),[(0,[7]),(1,[8,9])],views) ∧
      views.map (contents received) = [[7],[8,9]] := by
  obtain ⟨fuel,views,happly,hviews,-⟩ := applyGossip_assembled logging logging_succeed [7]
    [(1,[8,9]),(2,[])] [(3,[4])] (by decide) (by decide) (by decide) []
  exact ⟨fuel,views,happly,hviews⟩

end DeltaHandlers

/-! The engine. -/

/-- A queued delta is not empty. -/
structure GossipEngine where
  table : MembershipTable := {}
  membershipSync : Option MembershipSync := none
  localSequence : UInt64 := 0
  gossipIntervalNs : Int64 := 5000000000
  lastGossip : Int64 := 0
  running : Bool := false
  /-- `udp_listener_` is set. -/
  udpListener : Bool := false
  pendingDeltas : AssocMap UInt8 Bytes := AssocMap.empty
  nonempty : ∀ d ∈ pendingDeltas.entries, d.2 ≠ [] := by simp [AssocMap.empty]

structure Sending where
  endpoint : Endpoint
  /-- `tcp_connect_to`. -/
  connects : Bool := true
  /-- `version_handshake_client`. -/
  agrees : Bool := true
  /-- What the providers return, in the order in which they are asked. -/
  provided : List (UInt8 × Bytes) := []
  /-- `write_field` or `send_to`. -/
  writes : Bool := true

structure Sent where
  endpoint : Endpoint
  payload : Bytes
  segments : List (UInt8 × Bytes)
  made : payload = message segments

namespace GossipEngine

def fresh : GossipEngine := {}

variable (e : GossipEngine)

def queueDelta (type : DeltaType) (data : Bytes) : GossipEngine :=
  if h : data = [] then e
  else { e with
    pendingDeltas := e.pendingDeltas.insert type.toByte data
    nonempty := by
      intro d hd
      have hfind := AssocMap.mem_entries_iff.mp hd
      rw [AssocMap.find_insert] at hfind
      split_ifs at hfind with htype
      · cases hfind
        exact h
      · exact e.nonempty d (AssocMap.mem_entries_iff.mpr hfind) }

def pendingEvents : List MembershipEvent :=
  match e.membershipSync with
  | none => []
  | some sync => sync.pendingEvents e.localSequence

def listing (t : MembershipTable) : Bytes :=
  let peers := (t.records.entries.map Prod.snd).filter fun record => record.state ≠ .offline
  put32 (UInt32.ofNat peers.length) ++ peers.flatMap fun record => 1::record.nodeId.toList

/-- `pending_updates`, since what was last sent. -/
def pendingUpdates : Bytes :=
  match e.membershipSync with
  | none => listing e.table
  | some _ => serializeEvents e.pendingEvents

def acknowledge : GossipEngine :=
  { e with
    localSequence := (e.pendingEvents.getLast?.map MembershipEvent.sequence).getD e.localSequence
    pendingDeltas := AssocMap.empty
    nonempty := by simp [AssocMap.empty] }

variable (s : Sending)

def assembled : Sent where
  endpoint := s.endpoint
  payload := assembleGossipPayload e.pendingUpdates s.provided e.pendingDeltas.entries
  segments := emitted e.pendingUpdates s.provided e.pendingDeltas.entries
  made := assembleGossipPayload_eq _ _ _

def transmit : Option Sent × GossipEngine :=
  if (e.assembled s).payload = [] then (none,e)
  else if s.writes then (some (e.assembled s),e.acknowledge)
  else (none,e)

def sendGossipToPeer : Option Sent × GossipEngine :=
  if s.endpoint.host = [] ∨ s.endpoint.port = 0 then (none,e)
  else if s.connects = false then (none,e)
  else if s.agrees = false then (none,e)
  else e.transmit s

def sendGossipToPeerUdp : Option Sent × GossipEngine :=
  if s.endpoint.host = [] ∨ s.endpoint.port = 0 then (none,e) else e.transmit s

def udp : Bytes := [0x75,0x64,0x70]

def send : Option Sent × GossipEngine :=
  if s.endpoint.scheme = udp ∧ e.udpListener then e.sendGossipToPeerUdp s else e.sendGossipToPeer s

def fanout : List Sending → GossipEngine → List Sent × GossipEngine
  | [], e => ([],e)
  | s::sendings, e =>
    let sent := e.send s
    let rest := fanout sendings sent.2
    (sent.1.toList ++ rest.1,rest.2)

def tick (now : Int64) (sendings : List Sending) : List Sent × GossipEngine :=
  if e.running = false then ([],e)
  else if now-e.lastGossip < e.gossipIntervalNs then ([],e)
  else fanout sendings { e with lastGossip := now }

/-! What the payloads of a cycle contain. -/

def LetsThrough (listener : Bool) (s : Sending) : Prop :=
  s.endpoint.host ≠ [] ∧ s.endpoint.port ≠ 0 ∧
    (s.endpoint.scheme = udp ∧ listener ∨ s.connects ∧ s.agrees) ∧ s.writes

instance (listener : Bool) (s : Sending) : Decidable (LetsThrough listener s) :=
  inferInstanceAs (Decidable (_ ∧ _ ∧ _ ∧ _))

/-- All that was queued and all events that were pending are among the segments. -/
def Complete (segments : List (UInt8 × Bytes)) : Prop :=
  (∀ d ∈ e.pendingDeltas.entries, d ∈ segments) ∧ ∀ ev ∈ e.pendingEvents, ∃ batch,
    (DeltaType.membership.toByte,serializeEvents batch) ∈ segments ∧ ev ∈ batch

def standing : Bytes :=
  match e.membershipSync with
  | none => listing e.table
  | some _ => serializeEvents []

/-- The providers return at this send what was queued and what was pending. -/
def Supplied : Prop :=
  (∀ d ∈ e.pendingDeltas.entries, d ∈ s.provided ∨ d = (DeltaType.membership.toByte,e.standing)) ∧
    ∀ ev ∈ e.pendingEvents, ∃ batch,
      (DeltaType.membership.toByte,serializeEvents batch) ∈ s.provided ∧ ev ∈ batch

section
variable (e : GossipEngine) (s : Sending)

lemma pendingUpdates_ne_nil : e.pendingUpdates ≠ [] := by
  have hcount : ∀ (count : UInt32) (rest : Bytes), put32 count ++ rest ≠ [] := by
    intro count rest hnil
    have hlen := congrArg length hnil
    rw [length_append,length_put32] at hlen
    cases hlen.symm.trans (Nat.add_comm _ _)
  unfold pendingUpdates
  cases e.membershipSync with
  | none => exact hcount _ _
  | some sync => exact hcount _ _

lemma mem_segments : d ∈ (e.assembled s).segments ↔
    d = (DeltaType.membership.toByte,e.pendingUpdates) ∨ (d ∈ s.provided ∧ d.2 ≠ []) ∨
      d ∈ e.pendingDeltas.entries := by
  simp [assembled,emitted,e.pendingUpdates_ne_nil]

lemma payload_ne_nil : (e.assembled s).payload ≠ [] := by
  have hmem := (e.mem_segments s).mpr (Or.inl rfl)
  rw [(e.assembled s).made]
  intro hnil
  have hseg := flatMap_eq_nil_iff.mp hnil _ hmem
  cases hseg

lemma send_eq : e.send s =
    if LetsThrough e.udpListener s then (some (e.assembled s),e.acknowledge) else (none,e) := by
  unfold send sendGossipToPeer sendGossipToPeerUdp transmit
  rw [if_neg (e.payload_ne_nil s)]
  by_cases haddress : s.endpoint.host = [] ∨ s.endpoint.port = 0
  · have hno : ¬LetsThrough e.udpListener s := fun h => haddress.elim h.1 h.2.1
    rw [if_pos haddress,if_pos haddress,ite_self,if_neg hno]
  · obtain ⟨hhost,hport⟩ := not_or.mp haddress
    rw [if_neg haddress,if_neg haddress]
    by_cases hudp : s.endpoint.scheme = udp ∧ e.udpListener
    · have hwrites : LetsThrough e.udpListener s ↔ s.writes := by
        simp [LetsThrough,hhost,hport,hudp]
      rw [if_pos hudp]
      simp only [hwrites]
    · have htcp : LetsThrough e.udpListener s ↔ (s.connects ∧ s.agrees) ∧ s.writes := by
        simp [LetsThrough,hhost,hport,hudp]
      rw [if_neg hudp]
      simp only [htcp]
      cases s.connects <;> cases s.agrees <;> simp

lemma pendingEvents_acknowledge : e.acknowledge.pendingEvents = [] := by
  unfold pendingEvents acknowledge
  dsimp only
  cases hsync : e.membershipSync with
  | none => rfl
  | some sync =>
    dsimp only
    have hpending : e.pendingEvents = sync.pendingEvents e.localSequence := by
      rw [pendingEvents,hsync]
    rw [hpending]
    by_cases hnil : sync.pendingEvents e.localSequence = []
    · rw [hnil]
      exact hnil
    · have hlog : sync.eventLog ≠ [] := by
        intro hlog
        rw [MembershipSync.pendingEvents,hlog] at hnil
        exact hnil rfl
      obtain ⟨ev,rest,hrev,hseq⟩ := MembershipSync.exists_newest hlog
      have hlast : (sync.pendingEvents e.localSequence).getLast? = some ev := by
        rw [MembershipSync.pendingEvents,hrev] at hnil ⊢
        rw [getLast?_reverse,head?_takeWhile,head?_cons]
        by_cases hnew : ev.sequence > e.localSequence
        · exact if_pos (decide_eq_true hnew)
        · rw [takeWhile_cons_of_neg (by simpa using hnew)] at hnil
          exact absurd rfl hnil
      rw [hlast]
      exact MembershipSync.pendingEvents_eq_nil (UInt64.le_of_eq hseq.symm)

lemma acknowledge_acknowledge : e.acknowledge.acknowledge = e.acknowledge := by
  have hpending := e.pendingEvents_acknowledge
  rw [acknowledge]
  simp only [hpending]
  rfl

lemma pendingUpdates_acknowledge : e.acknowledge.pendingUpdates = e.standing := by
  unfold pendingUpdates standing
  rw [e.pendingEvents_acknowledge]
  rfl

lemma complete_assembled : e.Complete (e.assembled s).segments := by
  refine ⟨fun d hd => (e.mem_segments s).mpr (Or.inr (Or.inr hd)),fun ev hev => ?_⟩
  refine ⟨e.pendingEvents,(e.mem_segments s).mpr (Or.inl ?_),hev⟩
  unfold pendingUpdates
  cases hsync : e.membershipSync with
  | none =>
    rw [pendingEvents,hsync] at hev
    cases hev
  | some sync => rfl

lemma serializeEvents_ne (h : ev ∈ batch) :
    serializeEvents batch ≠ serializeEvents [] := by
  intro heq
  obtain ⟨first,rest,rfl⟩ := exists_cons_of_ne_nil (ne_nil_of_mem h)
  have hlen := congrArg length heq
  simp only [serializeEvents,flatMap_cons,flatMap_nil,length_append,length_put32,
    Frame.write,length_cons,length_nil] at hlen
  omega

lemma complete_acknowledge_iff :
    e.Complete (e.acknowledge.assembled s).segments ↔ e.Supplied s := by
  have hmem : ∀ d, d ∈ (e.acknowledge.assembled s).segments ↔
      d = (DeltaType.membership.toByte,e.standing) ∨ (d ∈ s.provided ∧ d.2 ≠ []) := by
    intro d
    rw [mem_segments,pendingUpdates_acknowledge]
    have hempty : d ∉ e.acknowledge.pendingDeltas.entries := not_mem_nil
    simp only [hempty,or_false]
  unfold Complete Supplied
  refine and_congr (forall₂_congr fun d hd => ?_) (forall₂_congr fun ev hev => exists_congr fun batch => ?_)
  · have hne := e.nonempty d hd
    rw [hmem,or_comm,and_iff_left hne]
  · rw [hmem]
    refine and_congr_left fun hbatch => ?_
    have hdata : serializeEvents batch ≠ e.standing := by
      unfold standing
      cases hsync : e.membershipSync with
      | none =>
        rw [pendingEvents,hsync] at hev
        cases hev
      | some sync => exact serializeEvents_ne hbatch
    have hne : serializeEvents batch ≠ [] := fun hnil => by
      have hlen := congrArg length hnil
      simp [serializeEvents] at hlen
    simp [hdata,hne]

end

variable (sendings : List Sending)

lemma fanout_acknowledge (e : GossipEngine) :
    (fanout sendings e.acknowledge).1 =
      (sendings.filter fun s => LetsThrough e.udpListener s).map e.acknowledge.assembled := by
  induction sendings with
  | nil => rfl
  | cons s sendings ih =>
    have hsend : e.acknowledge.send s = if LetsThrough e.udpListener s then
        (some (e.acknowledge.assembled s),e.acknowledge) else (none,e.acknowledge) := by
      rw [send_eq,acknowledge_acknowledge]
      rfl
    rw [fanout,hsend]
    by_cases h : LetsThrough e.udpListener s
    · simp [h,ih]
    · simp [h,ih]

lemma fanout_eq (e : GossipEngine) : (fanout sendings e).1 =
    match sendings.filter fun s => LetsThrough e.udpListener s with
    | [] => []
    | s::rest => e.assembled s::rest.map e.acknowledge.assembled := by
  induction sendings with
  | nil => rfl
  | cons s sendings ih =>
    rw [fanout,send_eq]
    by_cases h : LetsThrough e.udpListener s
    · simp [h,fanout_acknowledge]
    · simpa [h] using ih

/-- A cycle that runs sends to the endpoints that the network lets it reach. All of them get everything
that was queued and pending exactly if the providers return it at every send but the first. -/
theorem tick_complete_iff (e : GossipEngine) (now : Int64) (sendings : List Sending)
    (hrunning : e.running = true) (hdue : ¬now-e.lastGossip < e.gossipIntervalNs) :
    let reached := sendings.filter fun s => LetsThrough e.udpListener s
    (e.tick now sendings).1.map Sent.endpoint = reached.map Sending.endpoint ∧
      ((∀ sent ∈ (e.tick now sendings).1, e.Complete sent.segments) ↔
        ∀ s ∈ reached.tail, e.Supplied s) := by
  intro reached
  have htick : (e.tick now sendings).1 = match reached with
      | [] => []
      | s::rest => e.assembled s::rest.map e.acknowledge.assembled := by
    rw [tick,if_neg (by simp [hrunning]),if_neg hdue]
    exact fanout_eq sendings { e with lastGossip := now }
  rw [htick]
  cases reached with
  | nil => exact ⟨rfl,by simp⟩
  | cons s rest =>
    constructor
    · rw [map_cons,map_cons,map_map]
      rfl
    · rw [forall_mem_cons,forall_mem_map,tail_cons]
      simp only [complete_acknowledge_iff,e.complete_assembled s,true_and]

def busy : GossipEngine :=
  { fresh with membershipSync := some GossipNode.heardOnce, running := true }.queueDelta .crl [1]

def peer : Sending := { endpoint := { host := [0x61], port := 1 } }

def otherPeer : Sending := { endpoint := { host := [0x62], port := 1 } }

def lostPeer : Sending := { endpoint := { host := [0x63], port := 1 }, connects := false }

/-- With one reachable peer everything arrives. -/
theorem tick_complete_alone : busy.running = true ∧
    ∀ sent ∈ (busy.tick 5000000000 [lostPeer,peer]).1, busy.Complete sent.segments := by
  have hreached : ([lostPeer,peer].filter fun s => LetsThrough busy.udpListener s).tail = [] := rfl
  refine ⟨rfl,(tick_complete_iff busy 5000000000 [lostPeer,peer] rfl (by decide)).2.mpr ?_⟩
  rw [hreached]
  exact fun s hs => absurd hs not_mem_nil

/-- The second of two peers gets an empty batch of events and no delta. -/
theorem second_goes_without : busy.pendingDeltas.entries = [(1,[1])] ∧
    busy.pendingEvents = [{ MembershipSync.cameOnline with timestampNs := 0, sequence := 1 }] ∧
    (busy.tick 5000000000 [peer,otherPeer]).1.map (fun sent => (sent.endpoint,sent.segments)) =
      [(peer.endpoint,[(0,serializeEvents busy.pendingEvents),(1,[1])]),
        (otherPeer.endpoint,[(0,serializeEvents [])])] := by
  refine ⟨?_,?_,?_⟩ <;> decide +kernel

end GossipEngine
end SmoFramework.Sync
