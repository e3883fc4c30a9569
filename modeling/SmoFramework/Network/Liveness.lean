import SmoFramework.Network.Delivery
import SmoFramework.Session.Expiry

/-! Dispatch over runs of the session table: which sessions a packet can still speak for. The run
remembers which stored sessions were past their expiry at the last tick. -/
namespace SmoFramework.Network
open Library SessionManager AssocMap OpcodeRegistry

variable (reg : OpcodeRegistry) (aead : Aead) (blake3 : Blake3)

inductive TableOp
  | openSession (session : Session)
  | transition (id : Id16) (event : SessionEvent) (now : Int64)
  | close (id : Id16) (now : Int64)
  | renew (id : Id16) (now : Int64) (ttl : UInt64)
  | tick (now : Int64)
  | collectGarbage
  | packet (c : Call)

/-- The table, and the keys that were past their expiry at the last tick. -/
structure World where
  manager : SessionManager
  past : UInt64 → Bool := fun _ => false

def TableOp.apply (w : World) : TableOp → World
  -- A session that is opened now was not there at the last tick.
  | .openSession s => ⟨(w.manager.openSession s).2,fun k => w.past k && w.manager.sessions.contains k⟩
  | .transition id event now => { w with manager := (w.manager.transition id event now).2 }
  | .close id now => { w with manager := (w.manager.close id now).2 }
  | .renew id now ttl => { w with manager := w.manager.renew id now ttl }
  | .tick now => ⟨w.manager.tick now,fun k => (w.manager.sessions.find k).any fun s => s.expiresAt ≤ now⟩
  | .collectGarbage => { w with manager := w.manager.collectGarbage }
  | .packet c => { w with manager := (c.dispatch reg aead blake3 w.manager).manager }

def runTable (crl : Option (String → Result Bool)) (ops : List TableOp) : World :=
  ops.foldl (TableOp.apply reg aead blake3) { manager := { crl } }

/-- The session a packet names is closed, or was past its expiry at the last tick. -/
def World.Dead (w : World) (id : Id16) : Prop :=
  ∃ s, w.manager.lookup id = some s ∧ (s.state = .closed ∨ w.past (toKey id) = true)

instance (w : World) (id : Id16) : Decidable (w.Dead id) :=
  decidable_of_iff ((w.manager.lookup id).any fun s => s.state = .closed ∨ w.past (toKey id) = true)
    (by simp [World.Dead,Option.any_eq_true])

variable (m : SessionManager)

def NoClosed : Prop := ∀ k s, m.sessions.find k = some s → s.state ≠ .closed

/-- Closed sessions are collected before anything else happens, and no tick finds an active
session past its expiry. -/
def CarefulStep (w : World) (op : TableOp) : Prop :=
  op = .collectGarbage ∨ (NoClosed w.manager ∧ ∀ now, op = .tick now → ∀ k s,
    w.manager.sessions.find k = some s → s.state = .active → now < s.expiresAt)

def Careful : World → List TableOp → Prop
  | _,[] => True
  | w,op::ops => CarefulStep w op ∧ Careful (op.apply reg aead blake3 w) ops

/-- Every stored session that was past its expiry at the last tick is closed. -/
def PastClosed (w : World) : Prop :=
  ∀ k s, w.manager.sessions.find k = some s → w.past k = true → s.state = .closed

variable {reg aead blake3} {w : World} {op : TableOp}

lemma contains_put {m : SessionManager} {id : Id16} {old : Session}
    (hold : m.lookup id = some old) (new : Session) (k : UInt64) :
    (m.put id new).sessions.contains k = m.sessions.contains k := by
  rw [contains,contains,find_put]
  split_ifs with hk
  · rw [hk,← lookup,hold]
    rfl
  · rfl

lemma contains_transition (id : Id16) (event : SessionEvent) (now : Int64)
    (k : UInt64) : (m.transition id event now).2.sessions.contains k = m.sessions.contains k := by
  cases hl : m.lookup id with
  | none => simp [transition,hl]
  | some s => simp only [transition,hl,contains_put hl]

lemma contains_renew (id : Id16) (now : Int64) (ttl : UInt64) (k : UInt64) :
    (m.renew id now ttl).sessions.contains k = m.sessions.contains k := by
  cases hl : m.lookup id with
  | none => simp [renew,hl]
  | some s => simp only [renew,hl,contains_put hl]

lemma contains_dispatch (c : Call) (k : UInt64) :
    (c.dispatch reg aead blake3 m).manager.sessions.contains k = m.sessions.contains k := by
  rcases dispatch_cases c.dispatcher c.ctx c.received m with ⟨pkt,op,s,o,hadm,heq⟩ | ⟨-,e,heq⟩
  · rw [Call.dispatch,heq,deliver_manager,contains_put hadm.stored]
  · rw [Call.dispatch,heq]

lemma past_of_apply (hop : ∀ now, op ≠ .tick now)
    (hpast : (op.apply reg aead blake3 w).past k = true)
    (hin : (op.apply reg aead blake3 w).manager.sessions.contains k = true) :
    w.past k = true ∧ w.manager.sessions.contains k = true := by
  cases op with
  | openSession s => exact Bool.and_eq_true_iff.mp hpast
  | transition id event now => exact ⟨hpast,(contains_transition _ id event now k).symm.trans hin⟩
  | close id now => exact ⟨hpast,(contains_transition _ id .close now k).symm.trans hin⟩
  | renew id now ttl => exact ⟨hpast,(contains_renew _ id now ttl k).symm.trans hin⟩
  | tick now => exact absurd rfl (hop now)
  | collectGarbage =>
    refine ⟨hpast,?_⟩
    simp only [TableOp.apply,collectGarbage,contains,find_filterValues] at hin
    exact Option.isSome_of_isSome_filter _ _ hin
  | packet c => exact ⟨hpast,(contains_dispatch _ c k).symm.trans hin⟩

lemma PastClosed.apply (h : PastClosed w) (hcare : CarefulStep w op) :
    PastClosed (op.apply reg aead blake3 w) := by
  intro k s' hfind hpast
  rcases hcare with rfl | ⟨hno,htick⟩
  · simp only [TableOp.apply,collectGarbage,find_filterValues,Option.filter_eq_some_iff] at hfind
    exact h k s' hfind.1 hpast
  by_cases hop : ∃ now, op = .tick now
  · obtain ⟨now,rfl⟩ := hop
    simp only [TableOp.apply,tick,find_mapValues,Option.map_eq_some_iff] at hfind
    obtain ⟨s,hs,rfl⟩ := hfind
    have hexp : s.expiresAt ≤ now := by simpa [TableOp.apply,hs] using hpast
    refine tickSession_closed hexp fun hactive => ?_
    exact Int64.not_lt.mpr hexp (htick now rfl k s hs hactive)
  · -- A past session would have been stored, and closed, before the step.
    obtain ⟨hp,hin⟩ := past_of_apply (fun now e => hop ⟨now,e⟩) hpast
      (by rw [contains,hfind]; rfl)
    obtain ⟨s,hs⟩ := Option.isSome_iff_exists.mp hin
    exact absurd (h k s hs hp) (hno k s hs)

lemma careful_append (ops : List TableOp) : Careful reg aead blake3 w (ops ++ [op]) ↔
    Careful reg aead blake3 w ops ∧ CarefulStep (ops.foldl (TableOp.apply reg aead blake3) w) op := by
  induction ops generalizing w with
  | nil => simp [Careful]
  | cons o ops ih => simp [Careful,ih,and_assoc]

lemma PastClosed.run (h : PastClosed w)
    (hcare : Careful reg aead blake3 w ops) :
    PastClosed (ops.foldl (TableOp.apply reg aead blake3) w) := by
  induction ops generalizing w with
  | nil => exact h
  | cons o ops ih => exact ih (h.apply hcare.1) hcare.2

lemma Careful.not_dead {crl : Option (String → Result Bool)}
    (hcare : Careful reg aead blake3 { manager := { crl } } (ops ++ [.packet c])) (id : Id16) :
    ¬(runTable reg aead blake3 crl ops).Dead id := by
  obtain ⟨hops,hstep⟩ := (careful_append ops).mp hcare
  have hempty : PastClosed { manager := { crl } } := fun k s hfind _ => by cases hfind
  have hpast := hempty.run hops
  obtain ⟨hno,-⟩ := hstep.resolve_left (by simp)
  rintro ⟨s,hlook,hclosed | hp⟩
  · exact hno _ s hlook hclosed
  · exact hno _ s hlook (hpast _ s hlook hp)

/-! Nothing between the lookup and the handler looks at the session's state: an empty packet that
a peer seals for any stored session gets through. -/

lemma exists_delivery (hreg : reg.Reachable) {id : Id16} (hid : id ≠ Id16.zero) {s : Session}
    (hlook : w.manager.lookup id = some s) {sequence : UInt64}
    (hfresh : s.securityState.rxWindow.isAcceptable sequence = true) :
    ∃ c opened, (Call.dispatch reg aead blake3 c w.manager).delivered = some opened ∧
      opened.header.sessionId = id := by
  have hseq : sequence ≠ 0 := by
    rintro rfl
    simp [Session.ReplayWindow.isAcceptable] at hfresh
  have hkey : otherContext.rxKey.material.length = XChaCha20Provider.kKeySize := rfl
  obtain ⟨framed,op,hspeaks⟩ := speaksFor_any aead blake3 hreg hkey hid sequence hseq
  obtain ⟨opened,hopened,hdel⟩ := (hspeaks acceptAll w.manager s hlook hfresh).2 ⟨rfl,rfl⟩
  exact ⟨⟨acceptAll,otherContext,.ok framed⟩,opened,hdel,hopened⟩

/-- After any run of the table, a handler is reached only for live sessions exactly when no dead
session still takes a sequence; and it is so in every run whose steps are careful. -/
theorem dispatch_live_iff (reg : OpcodeRegistry) (hreg : reg.Reachable) (aead : Aead)
    (blake3 : Blake3) (crl : Option (String → Result Bool)) (ops : List TableOp) :
    ((∀ (c : Call) opened,
        (c.dispatch reg aead blake3 (runTable reg aead blake3 crl ops).manager).delivered = some opened →
        ¬(runTable reg aead blake3 crl ops).Dead opened.header.sessionId) ↔
      ∀ id s sequence, id ≠ Id16.zero →
        (runTable reg aead blake3 crl ops).manager.lookup id = some s →
        s.securityState.rxWindow.isAcceptable sequence = true →
        s.state ≠ .closed ∧ (runTable reg aead blake3 crl ops).past (toKey id) = false) ∧
    ∀ (c : Call) opened, Careful reg aead blake3 { manager := { crl } } (ops ++ [.packet c]) →
      (c.dispatch reg aead blake3 (runTable reg aead blake3 crl ops).manager).delivered = some opened →
      ¬(runTable reg aead blake3 crl ops).Dead opened.header.sessionId := by
  refine ⟨⟨?_,?_⟩,fun c opened hcare _ => hcare.not_dead _⟩
  · intro hall id s sequence hid hlook hfresh
    obtain ⟨c,opened,hdel,rfl⟩ := exists_delivery hreg hid hlook hfresh
    have hlive := hall c opened hdel
    refine ⟨fun hclosed => hlive ⟨s,hlook,.inl hclosed⟩,?_⟩
    exact Bool.eq_false_iff.mpr fun hp => hlive ⟨s,hlook,.inr hp⟩
  · rintro hlive c opened hdel ⟨s,hlook,hdead⟩
    obtain ⟨pkt,op,session,hadm,-⟩ := dispatch_delivered.mp hdel
    obtain ⟨framed,-,hparse⟩ := hadm.parsed
    obtain ⟨hacc,rfl⟩ := packetFromBuffer_ok_iff.mp hparse
    rw [hadm.opened_header] at hlook hdead
    obtain rfl : s = session := Option.some.inj (hlook.symm.trans hadm.stored)
    obtain ⟨hopen,hpast⟩ := hlive _ s _ (isZeroSession_eq_false.mp hacc.session) hlook hadm.fresh
    rcases hdead with hclosed | hp
    · exact hopen hclosed
    · exact Bool.noConfusion (hp.symm.trans hpast)

def sessionUntil (state : SessionState) (expiresAt : Int64) : Session :=
  { id := List.Vector.replicate 16 1, state, expiresAt }

def sealedCall : Call := ⟨acceptAll,otherContext,.ok sealedWire⟩

def sampleRun (ops : List TableOp) : World := runTable .initial sumAead zeroHash none ops

lemma careful_sample : Careful .initial sumAead zeroHash { manager := { crl := none } }
    [.openSession (sessionUntil .active 30),.tick 20,.packet sealedCall] := by
  have hall : ∀ {m : SessionManager} {p : Session → Prop}, (∀ e ∈ m.sessions.entries, p e.2) →
      ∀ k s, m.sessions.find k = some s → p s :=
    fun h k s hf => h (k,s) (mem_entries_of_find hf)
  refine ⟨.inr ⟨hall (by decide),by simp⟩,.inr ⟨hall (by decide +kernel),?_⟩,
    .inr ⟨hall (by decide +kernel),by simp⟩,trivial⟩
  rintro now ⟨rfl⟩
  exact hall (by decide +kernel)

theorem dispatch_live_open : ∃ opened, (sealedCall.dispatch .initial sumAead zeroHash
      (sampleRun [.openSession (sessionUntil .active 30),.tick 20]).manager).delivered = some opened ∧
    ¬(sampleRun [.openSession (sessionUntil .active 30),.tick 20]).Dead opened.header.sessionId := by
  have hdel : (sealedCall.dispatch .initial sumAead zeroHash
      (sampleRun [.openSession (sessionUntil .active 30),.tick 20]).manager).delivered.isSome = true := by
    decide +kernel
  obtain ⟨opened,hopened⟩ := Option.isSome_iff_exists.mp hdel
  exact ⟨opened,hopened,(dispatch_live_iff .initial .initial sumAead zeroHash none _).2 sealedCall
    opened careful_sample hopened⟩

def ReachesDead (ops : List TableOp) : Prop :=
  ∃ opened, (sealedCall.dispatch .initial sumAead zeroHash (sampleRun ops).manager).delivered =
    some opened ∧ (sampleRun ops).Dead opened.header.sessionId

instance (ops : List TableOp) : Decidable (ReachesDead ops) :=
  decidable_of_iff ((sealedCall.dispatch .initial sumAead zeroHash (sampleRun ops).manager).delivered.any
    fun opened => (sampleRun ops).Dead opened.header.sessionId)
    (by simp [ReachesDead,Option.any_eq_true])

/-- A closed session stays in the table, and a tick leaves an expired active one as it is. -/
theorem dispatch_dead_session :
    ReachesDead [.openSession (sessionUntil .established 30),.close (List.Vector.replicate 16 1) 10] ∧
      ReachesDead [.openSession (sessionUntil .active 30),.tick 40] := by
  decide +kernel

end SmoFramework.Network
