import SmoFramework.Discovery.MembershipTable

/-! Which peers have answered their pings (`HealthMonitor`). As in the membership table, a peer is known by
eight bytes of its id. -/
namespace SmoFramework.Discovery
open Library List AssocMap

structure PingRecord where
  sentAt : Int64
  misses : Int32
  deriving DecidableEq

structure HealthMonitor where
  pings : AssocMap UInt64 PingRecord := AssocMap.empty

namespace HealthMonitor
open MembershipTable (toKey firstId)

def recordPing (m : HealthMonitor) (id : NodeID) (now : Int64) : HealthMonitor :=
  match m.pings.find (toKey id) with
  | none => ⟨m.pings.insert (toKey id) ⟨now,1⟩⟩
  | some prec => ⟨m.pings.insert (toKey id) ⟨now,prec.misses+1⟩⟩

def recordPong (m : HealthMonitor) (id : NodeID) (now : Int64) : HealthMonitor :=
  ⟨m.pings.insert (toKey id) ⟨now,0⟩⟩

def missedState (misses maxMisses : Int32) : PeerState :=
  if misses ≥ maxMisses then .offline else .suspect

/-- One turn of the loop over `pings_`. The id that is looked up begins with the key; its other bytes are
not read. -/
def tickEntry (now timeout : Int64) (maxMisses : Int32) (s : HealthMonitor × MembershipTable)
    (e : UInt64 × PingRecord) : HealthMonitor × MembershipTable :=
  if e.2.misses = 0 then s
  else if ¬(now-e.2.sentAt > timeout) then s
  else
    let prec : PingRecord := ⟨now,e.2.misses+1⟩
    let m : HealthMonitor := ⟨s.1.pings.insert e.1 prec⟩
    match s.2.records.find e.1 with
    | none => (m,s.2)
    | some rec => (m,(s.2.upsert { rec with
        state := missedState prec.misses maxMisses
        pingMisses := prec.misses }).2)

/-- The loop changes the entry that it is at and no other, so the entries can be listed before. -/
def tick (order : Iteration UInt64) (m : HealthMonitor) (table : MembershipTable)
    (now timeout : Int64) (maxMisses : Int32) : HealthMonitor × MembershipTable :=
  (order.list m.pings.entries).foldl (tickEntry now timeout maxMisses) (m,table)

def state (m : HealthMonitor) (id : NodeID) : PeerState :=
  match m.pings.find (toKey id) with
  | none => .unknown
  | some prec => if prec.misses ≥ 3 then .offline else if prec.misses > 0 then .suspect else .online

def pingMisses (m : HealthMonitor) (id : NodeID) : Int32 :=
  match m.pings.find (toKey id) with
  | none => 0
  | some prec => prec.misses

/-! Runs. Every tick is handed a table, which may be another one each time. -/

inductive Event
  | ping (id : NodeID) (now : Int64)
  | pong (id : NodeID) (now : Int64)
  | tick (table : MembershipTable) (now : Int64) (maxMisses : Int32)

def Event.time : Event → Int64
  | .ping _ now => now
  | .pong _ now => now
  | .tick _ now _ => now

section
variable (order : Iteration UInt64) (timeout : Int64)

def apply (m : HealthMonitor) : Event → HealthMonitor
  | .ping id now => m.recordPing id now
  | .pong id now => m.recordPong id now
  | .tick table now maxMisses => (m.tick order table now timeout maxMisses).1

variable (events : List Event)

def run : HealthMonitor := events.foldl (apply order timeout) {}

def Event.Due (id : NodeID) (t : Int64) : Event → Prop
  | .ping id' _ => id' = id
  | .pong _ _ => False
  | .tick _ now _ => t.toInt+timeout.toInt < now.toInt

/-- Every ping is answered before the next ping of that peer and before a tick after the timeout. -/
def Answered : Prop :=
  ∀ before id t between e after, events = before ++ .ping id t::(between ++ e::after) →
    e.Due timeout id t → ∃ t', t ≤ t' ∧ .pong id t' ∈ between

def Far : Prop :=
  ∀ e ∈ events, -2^62 ≤ e.time.toInt ∧ e.time.toInt < 2^62

end

variable {order : Iteration UInt64} {timeout : Int64} {m : HealthMonitor} {events : List Event}

lemma find_recordPing (m : HealthMonitor) (id : NodeID) (now : Int64) (key : UInt64) :
    ∃ misses, (m.recordPing id now).pings.find key =
      if key = toKey id then some ⟨now,misses⟩ else m.pings.find key := by
  unfold recordPing
  cases m.pings.find (toKey id) with
  | none => exact ⟨1,find_insert _ _ _ _⟩
  | some prec => exact ⟨prec.misses+1,find_insert _ _ _ _⟩

/-- A peer that has been pinged and not heard from has its ping among the events, and nothing of its key
comes after. -/
def Tracked (events : List Event) (m : HealthMonitor) : Prop :=
  ∀ key prec, m.pings.find key = some prec → prec.misses ≠ 0 →
    ∃ before id between, events = before ++ .ping id prec.sentAt::between ∧ toKey id = key ∧
      ∀ id' t, .pong id' t ∈ between → toKey id' ≠ key

lemma Tracked.append (h : Tracked events m)
    (hfind : m.pings.find key = some prec) (hmisses : prec.misses ≠ 0)
    (hpong : ∀ id t, e = .pong id t → toKey id ≠ key) :
    ∃ before id between, events ++ [e] = before ++ .ping id prec.sentAt::between ∧ toKey id = key ∧
      ∀ id' t, .pong id' t ∈ between → toKey id' ≠ key := by
  obtain ⟨before,id,between,rfl,hkey,hbetween⟩ := h key prec hfind hmisses
  refine ⟨before,id,between ++ [e],by simp,hkey,fun id' t hmem => ?_⟩
  rcases mem_append.mp hmem with hmem | hmem
  · exact hbetween id' t hmem
  · exact hpong id' t (mem_singleton.mp hmem).symm

lemma Tracked.ping (h : Tracked events m) (id : NodeID) (now : Int64) :
    Tracked (events ++ [.ping id now]) (m.recordPing id now) := by
  intro key prec hfind hmisses
  obtain ⟨misses,heq⟩ := find_recordPing m id now key
  rw [heq] at hfind
  split_ifs at hfind with hkey
  · obtain rfl := Option.some.inj hfind
    exact ⟨events,id,[],rfl,hkey.symm,fun _ _ hmem => by cases hmem⟩
  · exact h.append hfind hmisses fun _ _ heq => by cases heq

lemma Tracked.pong (h : Tracked events m) (id : NodeID) (now : Int64) :
    Tracked (events ++ [.pong id now]) (m.recordPong id now) := by
  intro key prec hfind hmisses
  rw [recordPong,find_insert] at hfind
  split_ifs at hfind with hkey
  · obtain rfl := Option.some.inj hfind
    exact absurd rfl hmisses
  · refine h.append hfind hmisses fun id' t heq => ?_
    cases heq
    exact Ne.symm hkey

lemma expired_iff (hnow : -2^62 ≤ now.toInt ∧ now.toInt < 2^62)
    (hsent : -2^62 ≤ sentAt.toInt ∧ sentAt.toInt < 2^62) :
    now-sentAt > timeout ↔ sentAt.toInt+timeout.toInt < now.toInt := by
  have hsub : (now-sentAt).toInt = now.toInt-sentAt.toInt := by
    rw [Int64.toInt_sub]
    exact Int.bmod_eq_of_le (by omega) (by omega)
  rw [gt_iff_lt,Int64.lt_iff_toInt_lt]
  omega

lemma Tracked.tick_eq (h : Tracked events m) {after : List Event}
    (hanswered : Answered timeout (events ++ .tick table now maxMisses::after))
    (hfar : Far (events ++ .tick table now maxMisses::after)) :
    m.tick order table now timeout maxMisses = (m,table) := by
  have hentry : ∀ e ∈ m.pings.entries, tickEntry now timeout maxMisses (m,table) e = (m,table) := by
    intro e he
    by_cases hmisses : e.2.misses = 0
    · exact if_pos hmisses
    -- An expired entry would be a ping whose pong came before this tick, and that pong cleared it.
    have hrecent : ¬(now-e.2.sentAt > timeout) := fun hexpired => by
      obtain ⟨before,id,between,rfl,hkey,hbetween⟩ := h e.1 e.2 (mem_entries_iff.mp he) hmisses
      have hlate := (expired_iff (hfar (.tick table now maxMisses) (by simp))
        (hfar (.ping id e.2.sentAt) (by simp))).mp hexpired
      obtain ⟨t,-,hpong⟩ := hanswered before id e.2.sentAt between (.tick table now maxMisses) after
        (by simp) hlate
      exact hbetween id t hpong hkey
    rw [tickEntry,if_neg hmisses,if_pos hrecent]
  have hfold : ∀ es : List (UInt64 × PingRecord), (∀ e ∈ es, e ∈ m.pings.entries) →
      es.foldl (tickEntry now timeout maxMisses) (m,table) = (m,table) := by
    intro es
    induction es with
    | nil => exact fun _ => rfl
    | cons e es ih =>
      intro hes
      rw [foldl_cons,hentry e (hes e mem_cons_self)]
      exact ih fun e he => hes e (mem_cons_of_mem _ he)
  exact hfold _ fun e he => (order.perm m.pings.entries).mem_iff.mp he

lemma Answered.of_append (h : Answered timeout (events ++ events')) :
    Answered timeout events := by
  intro before id t between e after heq
  exact h before id t between e (after ++ events') (by rw [heq]; simp)

lemma run_append (events : List Event) (e : Event) :
    run order timeout (events ++ [e]) = apply order timeout (run order timeout events) e := by
  rw [run,foldl_append]
  rfl

lemma run_tracked (hanswered : Answered timeout events) (hfar : Far events) :
    Tracked events (run order timeout events) := by
  induction events using reverseRecOn with
  | nil =>
    intro key prec hfind
    cases hfind
  | append_singleton events e ih =>
    have htracked := ih hanswered.of_append fun e he => hfar e (mem_append_left _ he)
    rw [run_append]
    cases e with
    | ping id now => exact htracked.ping id now
    | pong id now => exact htracked.pong id now
    | tick table now maxMisses =>
      intro key prec hfind hmisses
      rw [apply,htracked.tick_eq hanswered hfar] at hfind
      exact htracked.append hfind hmisses fun _ _ heq => by cases heq

/-- If every ping is answered in time, no tick touches the table that it is given. -/
theorem answered_run_keeps_table (order : Iteration UInt64) (timeout : Int64) (events : List Event)
    (hanswered : Answered timeout events) (hfar : Far events) :
    ∀ before table now maxMisses after, events = before ++ .tick table now maxMisses::after →
      ((run order timeout before).tick order table now timeout maxMisses).2 = table := by
  rintro before table now maxMisses after rfl
  have htracked : Tracked before (run order timeout before) :=
    run_tracked hanswered.of_append fun e he => hfar e (mem_append_left _ he)
  rw [htracked.tick_eq hanswered hfar]

/-- A ping at the time 0 is answered at the time 5; the timeout is 10. -/
theorem answered_ping_keeps_table :
    let table := MembershipTable.run {} [.upsert { state := .online }]
    let m := HealthMonitor.run default 10 [.ping firstId 0,.tick table 3 3,.pong firstId 5]
    (m.tick default table 100 10 3).2 = table := by
  intro table m
  refine answered_run_keeps_table default 10
    [.ping firstId 0,.tick table 3 3,.pong firstId 5,.tick table 100 3] ?_ ?_
    [.ping firstId 0,.tick table 3 3,.pong firstId 5] table 100 3 [] rfl
  · intro before id t between e after heq hdue
    rcases before with _ | ⟨_,_ | ⟨_,_ | ⟨_,_ | ⟨_,before⟩⟩⟩⟩
    · obtain ⟨rfl,rfl⟩ : firstId = id ∧ 0 = t := by simpa using (cons.inj heq).1
      rcases between with _ | ⟨_,_ | ⟨_,between⟩⟩
      · obtain rfl := (cons.inj (cons.inj heq).2).1
        exact absurd (show (0 : ℤ)+10 < 3 from hdue) (by decide)
      · obtain rfl := (cons.inj (cons.inj (cons.inj heq).2).2).1
        cases hdue
      · obtain rfl := (cons.inj (cons.inj (cons.inj heq).2).2).1
        exact ⟨5,by decide,by simp⟩
    all_goals simp at heq
  · simp only [Far]
    decide

end HealthMonitor
end SmoFramework.Discovery
