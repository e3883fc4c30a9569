import SmoFramework.Network.Dispatcher

/-! Replay protection over whole sequences of dispatch calls. The calls may come from any number
of connections and find any session table. -/
namespace SmoFramework.Network
open Library SessionManager

variable (reg : OpcodeRegistry) (aead : Aead) (blake3 : Blake3)

structure Call where
  dispatcher : PacketDispatcher
  ctx : SessionCryptoContext
  received : Result Bytes

def Call.dispatch (c : Call) (m : SessionManager) : Dispatched :=
  dispatchPacketSession reg aead blake3 c.dispatcher c.ctx c.received m

def callLogged (r : SessionManager × List (UInt64 × UInt64)) (c : Call) :
    SessionManager × List (UInt64 × UInt64) :=
  let out := c.dispatch reg aead blake3 r.1
  (out.manager,match out.delivered with
    | none => r.2
    | some pkt => (toKey pkt.header.sessionId,pkt.header.nonce)::r.2)

def runCalls (m : SessionManager) (calls : List Call) : SessionManager × List (UInt64 × UInt64) :=
  calls.foldl (callLogged reg aead blake3) (m,[])

/-- The window of the session stored under a key rejects a sequence. -/
def Rejects (m : SessionManager) (key sequence : UInt64) : Prop :=
  ∃ s, m.sessions.find key = some s ∧ s.securityState.rxWindow.isAcceptable sequence = false

inductive FailsEarly (c : Call) (m : SessionManager) : Prop
  | receive {e : Error} (h : c.received = .error e)
  | parse {framed : Bytes} {e : Error} (h : c.received = .ok framed)
      (hparse : packetFromBuffer reg framed = .error e)
  | route {framed : Bytes} {pkt : Packet} (h : c.received = .ok framed)
      (hparse : packetFromBuffer reg framed = .ok pkt)
      (hroute : PacketRoute.fromPacketRoute reg pkt.header.ns pkt.header.messageId = none)
  | lookup {framed : Bytes} {pkt : Packet} (h : c.received = .ok framed)
      (hparse : packetFromBuffer reg framed = .ok pkt)
      (hlookup : m.lookup pkt.header.sessionId = none)
  | precheck {framed : Bytes} {pkt : Packet} {s : Session} (h : c.received = .ok framed)
      (hparse : packetFromBuffer reg framed = .ok pkt)
      (hlookup : m.lookup pkt.header.sessionId = some s)
      (hcheck : s.securityState.rxWindow.isAcceptable pkt.header.nonce = false)
  | opening {framed : Bytes} {pkt opened : Packet} {e : Error} (h : c.received = .ok framed)
      (hparse : packetFromBuffer reg framed = .ok pkt)
      (hopen : packetOpenData aead blake3 pkt c.ctx.rxKey = (.error e,opened))

variable {reg aead blake3} {m : SessionManager} {c : Call}

lemma FailsEarly.not_admitted (h : FailsEarly reg aead blake3 c m) :
    ¬Admitted reg aead blake3 c.ctx c.received m pkt op session opened := by
  rintro ⟨⟨framed,hrecv,hparse⟩,hroute,hstored,hfresh,hopen⟩
  cases h with
  | receive h => simp [h] at hrecv
  | parse h h' =>
    cases h.symm.trans hrecv
    simp [h'] at hparse
  | route h h' hr =>
    cases h.symm.trans hrecv
    cases h'.symm.trans hparse
    simp [hr] at hroute
  | lookup h h' hl =>
    cases h.symm.trans hrecv
    cases h'.symm.trans hparse
    simp [hl] at hstored
  | precheck h h' hl hc =>
    cases h.symm.trans hrecv
    cases h'.symm.trans hparse
    cases hl.symm.trans hstored
    simp [hc] at hfresh
  | opening h h' ho =>
    cases h.symm.trans hrecv
    cases h'.symm.trans hparse
    cases (congrArg Prod.fst ho).symm.trans (congrArg Prod.fst hopen)

lemma FailsEarly.manager_eq (h : FailsEarly reg aead blake3 c m) :
    (c.dispatch reg aead blake3 m).manager = m := by
  rcases dispatch_cases c.dispatcher c.ctx c.received m with ⟨pkt,op,session,o,hadm,-⟩ | ⟨-,e,heq⟩
  · exact absurd hadm h.not_admitted
  · rw [Call.dispatch,heq]

lemma Rejects.dispatch {key sequence : UInt64} (h : Rejects m key sequence) (c : Call) :
    Rejects (c.dispatch reg aead blake3 m).manager key sequence := by
  obtain ⟨s,hfind,hrej⟩ := h
  rcases dispatch_cases c.dispatcher c.ctx c.received m with ⟨pkt,op,session,o,hadm,heq⟩ | ⟨-,e,heq⟩
  · rw [Call.dispatch,heq,deliver_manager]
    by_cases hkey : key = toKey pkt.header.sessionId
    · subst hkey
      obtain rfl : s = session := Option.some.inj (hfind.symm.trans hadm.stored)
      refine ⟨_,by rw [find_put,if_pos rfl],?_⟩
      exact Session.ReplayWindow.commit_keeps_rejected hrej _
    · exact ⟨s,by rw [find_put,if_neg hkey]; exact hfind,hrej⟩
  · rw [Call.dispatch,heq]
    exact ⟨s,hfind,hrej⟩

lemma dispatch_delivers (h : (c.dispatch reg aead blake3 m).delivered = some pkt) :
    ¬Rejects m (toKey pkt.header.sessionId) pkt.header.nonce ∧
      Rejects (c.dispatch reg aead blake3 m).manager (toKey pkt.header.sessionId) pkt.header.nonce := by
  rcases dispatch_cases c.dispatcher c.ctx c.received m with ⟨pkt',op,session,o,hadm,heq⟩ | ⟨-,e,heq⟩
  · rw [Call.dispatch,heq] at h ⊢
    obtain ⟨-,rfl⟩ := deliver_delivered.mp h
    rw [hadm.opened_header,deliver_manager]
    constructor
    · rintro ⟨s,hfind,hrej⟩
      obtain rfl : s = session := Option.some.inj (hfind.symm.trans hadm.stored)
      rw [hadm.fresh] at hrej
      cases hrej
    · refine ⟨_,by rw [find_put,if_pos rfl],?_⟩
      exact Session.ReplayWindow.commit_rejects hadm.fresh
  · rw [Call.dispatch,heq] at h
    cases h

/-- Every delivery of the log is rejected by now, and none is there twice. -/
structure LogSound (r : SessionManager × List (UInt64 × UInt64)) : Prop where
  rejects : ∀ p ∈ r.2, Rejects r.1 p.1 p.2
  nodup : r.2.Nodup

lemma LogSound.callLogged (h : LogSound r) (c : Call) :
    LogSound (callLogged reg aead blake3 r c) := by
  cases hdel : (c.dispatch reg aead blake3 r.1).delivered with
  | none =>
    simp only [Network.callLogged,hdel]
    exact ⟨fun p hp => (h.rejects p hp).dispatch c,h.nodup⟩
  | some pkt =>
    obtain ⟨hnew,hrej⟩ := dispatch_delivers hdel
    simp only [Network.callLogged,hdel]
    refine ⟨?_,List.nodup_cons.mpr ⟨fun hm => hnew (h.rejects _ hm),h.nodup⟩⟩
    rintro p (_ | ⟨_,hp⟩)
    · exact hrej
    · exact (h.rejects p hp).dispatch c

lemma runCalls_logSound (m : SessionManager) (calls : List Call) :
    LogSound (runCalls reg aead blake3 m calls) := by
  induction calls using List.reverseRecOn with
  | nil => exact ⟨by simp [runCalls],List.nodup_nil⟩
  | append_singleton calls c ih =>
    have hstep : runCalls reg aead blake3 m (calls ++ [c]) =
        callLogged reg aead blake3 (runCalls reg aead blake3 m calls) c := by
      simp [runCalls]
    rw [hstep]
    exact ih.callLogged c

/-- Over any calls on any table, no sequence is delivered twice for a stored session, and a call
that fails before the commit leaves the table as it was. -/
theorem no_double_delivery (reg : OpcodeRegistry) (aead : Aead) (blake3 : Blake3)
    (m : SessionManager) (calls : List Call) : (runCalls reg aead blake3 m calls).2.Nodup ∧
      ∀ (c : Call) (m' : SessionManager), FailsEarly reg aead blake3 c m' →
        (c.dispatch reg aead blake3 m').manager = m' :=
  ⟨(runCalls_logSound m calls).nodup,fun _ _ h => h.manager_eq⟩

/-- The same packet twice reaches the handler once. -/
example : (runCalls .initial sumAead zeroHash (tableOf (List.Vector.replicate 16 1))
    [⟨acceptAll,otherContext,.ok sealedWire⟩,⟨acceptAll,otherContext,.ok sealedWire⟩]).2 =
      [(toKey (List.Vector.replicate 16 1),7)] := by decide +kernel

end SmoFramework.Network
