import SmoFramework.Packet.Crypto
import SmoFramework.Session.Manager

/-! Dispatch of a received packet to its handler (`core/network/packet_dispatcher`, with the
opcode filter of `core/fsm/node_lifecycle_fsm`). What `recv_framed` returned and what a handler
returns are parameters. -/
namespace SmoFramework.Network

inductive NodeLifecycleState
  | new | identityReady | csrPending | certified | bootstrapping | joining | synchronizing | active
  | suspended | recovering | revoked | removed
  deriving DecidableEq, Repr

def NodeLifecycleState.name : NodeLifecycleState → String
  | .new => "NEW"
  | .identityReady => "IDENTITY_READY"
  | .csrPending => "CSR_PENDING"
  | .certified => "CERTIFIED"
  | .bootstrapping => "BOOTSTRAPPING"
  | .joining => "JOINING"
  | .synchronizing => "SYNCHRONIZING"
  | .active => "ACTIVE"
  | .suspended => "SUSPENDED"
  | .recovering => "RECOVERING"
  | .revoked => "REVOKED"
  | .removed => "REMOVED"

def isOpcodeAllowedDuringBootstrap (opcode : UInt32) : Bool :=
  [0x0105,0x0205,0x30,0x31,0x33,0x34,0x35].contains opcode

def checkOpcodeAllowed (state : NodeLifecycleState) (opcode : UInt32) : Result Unit :=
  if state = .active then .ok ()
  else if state = .bootstrapping ∨ state = .joining ∨ state = .synchronizing then
    if isOpcodeAllowedDuringBootstrap opcode then .ok ()
    else .error (smoErrSession 507 .error .noRetry .none
      ("opcode not allowed in state " ++ state.name ++ " (only bootstrap/join opcodes permitted)"))
  else .error (smoErrSession 508 .error .noRetry .none
    ("node state " ++ state.name ++ " cannot process packets"))

/-- The session id and the packet keys of one secure connection. -/
structure SessionCryptoContext where
  sessionId : Id16
  txKey : PacketTxKey
  rxKey : PacketRxKey

structure PacketDispatcher where
  handlers : UInt32 → Option (Packet → Result Unit)
  lifecycle : Option NodeLifecycleState := none

structure Dispatched where
  result : Result Unit
  manager : SessionManager
  delivered : Option Packet := none

def lifecycleAllows (d : PacketDispatcher) (opcodeId : UInt32) : Result Unit :=
  match d.lifecycle with
  | none => .ok ()
  | some state => checkOpcodeAllowed state opcodeId

def deliver (d : PacketDispatcher) (op : Opcode) (pkt : Packet) (m : SessionManager) : Dispatched :=
  let opcodeId := op.val.toUInt32
  match lifecycleAllows d opcodeId with
  | .error e => ⟨.error e,m,none⟩
  | .ok () =>
    match d.handlers opcodeId with
    | none => ⟨.error (smoErrProtocol 604 .error .noRetry .none
        ("No handler for opcode 0x" ++ toString opcodeId.toNat)),m,none⟩
    | some handler => ⟨handler pkt,m,some pkt⟩

section
variable (reg : OpcodeRegistry) (aead : Aead) (blake3 : Blake3)

def dispatchPacketSession (d : PacketDispatcher) (ctx : SessionCryptoContext)
    (received : Result Bytes) (m : SessionManager) : Dispatched :=
  match received with
  | .error e => ⟨.error (smoErrTransport 304 .error .retrySafe .none
      ("Failed to read framed packet: " ++ e.message)),m,none⟩
  | .ok framed =>
    match packetFromBuffer reg framed with
    | .error e => ⟨.error (smoErrProtocol 600 .error .noRetry .none
        ("Failed to parse packet: " ++ e.message)),m,none⟩
    | .ok pkt =>
      match PacketRoute.fromPacketRoute reg pkt.header.ns pkt.header.messageId with
      | none => ⟨.error (smoErrProtocol 604 .error .noRetry .none
          ("Opcode not packet-capable: ns=" ++ toString pkt.header.ns.toNat ++ " mid=" ++
            toString pkt.header.messageId.toNat)),m,none⟩
      | some op =>
        match m.lookup pkt.header.sessionId with
        | none => ⟨.error (smoErrSession 501 .error .noRetry .reconnect
            "Session not found for packet"),m,none⟩
        | some session =>
          let sequence := pkt.header.nonce
          if session.securityState.rxWindow.isAcceptable sequence = false then
            ⟨.error (smoErrProtocol 606 .error .noRetry .none
              ("Replay window check failed for sequence " ++ toString sequence.toNat)),m,none⟩
          else
            match packetOpenData aead blake3 pkt ctx.rxKey with
            | (.error e,_) => ⟨.error (smoErrProtocol 607 .error .noRetry .none
                ("Packet AEAD open failed: " ++ e.message)),m,none⟩
            | (.ok (),opened) =>
              match session.securityState.rxWindow.commit sequence with
              | (false,_) => ⟨.error (smoErrProtocol 606 .error .noRetry .none
                  ("Replay commit failed for sequence " ++ toString sequence.toNat)),m,none⟩
              | (true,window) =>
                deliver d op opened (m.put pkt.header.sessionId (session.withWindow window))

/-- The checks a received packet has passed when its sequence is committed. -/
structure Admitted (ctx : SessionCryptoContext) (received : Result Bytes) (m : SessionManager)
    (pkt : Packet) (op : Opcode) (session : Session) (opened : Packet) : Prop where
  parsed : ∃ framed, received = .ok framed ∧ packetFromBuffer reg framed = .ok pkt
  routed : PacketRoute.fromPacketRoute reg pkt.header.ns pkt.header.messageId = some op
  stored : m.lookup pkt.header.sessionId = some session
  fresh : session.securityState.rxWindow.isAcceptable pkt.header.nonce = true
  opens : packetOpenData aead blake3 pkt ctx.rxKey = (.ok (),opened)

end

variable {reg : OpcodeRegistry} {aead : Aead} {blake3 : Blake3} {d : PacketDispatcher}
  {ctx : SessionCryptoContext} {received : Result Bytes} {m : SessionManager}

variable {opened pkt : Packet}

lemma packetOpenData_header
    (h : packetOpenData aead blake3 pkt key = (.ok (),opened)) : opened.header = pkt.header := by
  unfold packetOpenData at h
  simp only [ite_error_pair_eq_ok] at h
  obtain ⟨-,-,-,-,h⟩ := h
  split at h
  · cases h
  · cases h
    rfl

variable {op : Opcode} {session : Session}

lemma Admitted.dispatch_eq (h : Admitted reg aead blake3 ctx received m pkt op session opened)
    (d : PacketDispatcher) :
    dispatchPacketSession reg aead blake3 d ctx received m = deliver d op opened
      (m.put pkt.header.sessionId (session.withWindow
        (session.securityState.rxWindow.commit pkt.header.nonce).2)) := by
  obtain ⟨⟨framed,rfl,hparse⟩,hroute,hstored,hfresh,hopen⟩ := h
  have hcommit : session.securityState.rxWindow.commit pkt.header.nonce =
      (true,(session.securityState.rxWindow.commit pkt.header.nonce).2) :=
    Prod.ext ((Session.ReplayWindow.commit_fst _ _).trans hfresh) rfl
  simp only [dispatchPacketSession,hparse,hroute,hstored,hfresh,hopen]
  rw [hcommit]
  simp

lemma dispatch_eq_error (d : PacketDispatcher)
    (h : ∀ pkt op session opened, ¬Admitted reg aead blake3 ctx received m pkt op session opened) :
    ∃ e, dispatchPacketSession reg aead blake3 d ctx received m = ⟨.error e,m,none⟩ := by
  unfold dispatchPacketSession
  -- One check after the other; past all of them the packet would be admitted.
  cases hrecv : received with
  | error e => exact ⟨_,rfl⟩
  | ok framed =>
    cases hparse : packetFromBuffer reg framed with
    | error e =>
      simp only [hparse]
      exact ⟨_,rfl⟩
    | ok pkt =>
      cases hroute : PacketRoute.fromPacketRoute reg pkt.header.ns pkt.header.messageId with
      | none =>
        simp only [hparse,hroute]
        exact ⟨_,rfl⟩
      | some op =>
        cases hstored : m.lookup pkt.header.sessionId with
        | none =>
          simp only [hparse,hroute,hstored]
          exact ⟨_,rfl⟩
        | some session =>
          cases hfresh : session.securityState.rxWindow.isAcceptable pkt.header.nonce with
          | false =>
            simp only [hparse,hroute,hstored,hfresh,if_true]
            exact ⟨_,rfl⟩
          | true =>
            rcases hopen : packetOpenData aead blake3 pkt ctx.rxKey with ⟨e | _,opened⟩
            · simp only [hparse,hroute,hstored,hfresh,hopen]
              exact ⟨_,rfl⟩
            · exact absurd ⟨⟨framed,hrecv,hparse⟩,hroute,hstored,hfresh,hopen⟩ (h pkt op session opened)

/-- A call changes the table only for an admitted packet, and then commits its sequence. -/
theorem dispatch_cases (d : PacketDispatcher) (ctx : SessionCryptoContext) (received : Result Bytes)
    (m : SessionManager) :
    (∃ pkt op session opened, Admitted reg aead blake3 ctx received m pkt op session opened ∧
      dispatchPacketSession reg aead blake3 d ctx received m = deliver d op opened
        (m.put pkt.header.sessionId (session.withWindow
          (session.securityState.rxWindow.commit pkt.header.nonce).2))) ∨
    ((∀ pkt op session opened, ¬Admitted reg aead blake3 ctx received m pkt op session opened) ∧
      ∃ e, dispatchPacketSession reg aead blake3 d ctx received m = ⟨.error e,m,none⟩) := by
  by_cases hadm : ∃ pkt op session opened,
      Admitted reg aead blake3 ctx received m pkt op session opened
  · obtain ⟨pkt,op,session,opened,h⟩ := hadm
    exact Or.inl ⟨pkt,op,session,opened,h,h.dispatch_eq d⟩
  · have hno : ∀ pkt op session opened,
        ¬Admitted reg aead blake3 ctx received m pkt op session opened :=
      fun pkt op session opened h => hadm ⟨pkt,op,session,opened,h⟩
    exact Or.inr ⟨hno,dispatch_eq_error d hno⟩

/-- The node's state admits the opcode and a handler is registered for it. -/
def PacketDispatcher.Reaches (d : PacketDispatcher) (op : Opcode) : Prop :=
  lifecycleAllows d op.val.toUInt32 = .ok () ∧ (d.handlers op.val.toUInt32).isSome

@[simp] lemma deliver_manager (d : PacketDispatcher) (op : Opcode) (pkt : Packet)
    (m : SessionManager) : (deliver d op pkt m).manager = m := by
  cases hl : lifecycleAllows d op.val.toUInt32 with
  | error e => simp [deliver,hl]
  | ok _ => cases hh : d.handlers op.val.toUInt32 <;> simp [deliver,hl,hh]

lemma deliver_delivered :
    (deliver d op pkt m).delivered = some q ↔ d.Reaches op ∧ pkt = q := by
  cases hl : lifecycleAllows d op.val.toUInt32 with
  | error e => simp [deliver,PacketDispatcher.Reaches,hl]
  | ok _ =>
    cases hh : d.handlers op.val.toUInt32 <;> simp [deliver,PacketDispatcher.Reaches,hl,hh]

/-- A received packet is admitted in one way at most. -/
theorem Admitted.unique (h : Admitted reg aead blake3 ctx received m pkt op session opened)
    (h' : Admitted reg aead blake3 ctx received m pkt' op' session' opened') :
    pkt = pkt' ∧ op = op' ∧ session = session' ∧ opened = opened' := by
  obtain ⟨⟨framed,rfl,hparse⟩,hroute,hstored,-,hopen⟩ := h
  obtain ⟨⟨framed',hframed,hparse'⟩,hroute',hstored',-,hopen'⟩ := h'
  cases hframed
  obtain rfl := Except.ok.inj (hparse.symm.trans hparse')
  refine ⟨rfl,Option.some.inj (hroute.symm.trans hroute'),
    Option.some.inj (hstored.symm.trans hstored'),?_⟩
  exact congrArg Prod.snd (hopen.symm.trans hopen')

/-- A handler is given exactly the admitted packets whose opcode reaches one. -/
theorem dispatch_delivered :
    (dispatchPacketSession reg aead blake3 d ctx received m).delivered = some opened ↔
      ∃ pkt op session, Admitted reg aead blake3 ctx received m pkt op session opened ∧
        d.Reaches op := by
  rcases dispatch_cases d ctx received m with ⟨pkt,op,session,o,hadm,heq⟩ | ⟨hno,e,heq⟩
  · rw [heq,deliver_delivered]
    constructor
    · rintro ⟨hreach,rfl⟩
      exact ⟨pkt,op,session,hadm,hreach⟩
    · rintro ⟨pkt',op',session',hadm',hreach⟩
      obtain ⟨-,rfl,-,rfl⟩ := hadm.unique hadm'
      exact ⟨hreach,rfl⟩
  · rw [heq]
    constructor
    · intro h
      cases h
    · rintro ⟨pkt,op,session,hadm,-⟩
      exact absurd hadm (hno pkt op session opened)

lemma Admitted.opened_header (h : Admitted reg aead blake3 ctx received m pkt op session opened) :
    opened.header = pkt.header := packetOpenData_header h.opens

/-! Whose session a packet speaks for. -/

def tableOf (id : Id16) : SessionManager where
  sessions := Library.AssocMap.empty.insert (SessionManager.toKey id) { id, state := .established }

def acceptAll : PacketDispatcher := ⟨fun _ => some fun _ => .ok (),none⟩

lemma lookup_tableOf (id : Id16) : (tableOf id).lookup id = some { id, state := .established } := by
  rw [SessionManager.lookup,tableOf,Library.AssocMap.find_insert,if_pos rfl]

def emptyHeader (id : Id16) (sequence : UInt64) : PacketHeader :=
  { suiteId := 1, ns := 1, messageId := 0x0101, sessionId := id, nonce := sequence }

lemma route_ls (hreg : reg.Reachable) :
    (∃ op, PacketRoute.fromPacketRoute reg 1 0x0101 = some op) ∧
      reg.validatePacketOpcode 1 0x0101 = .ok () := by
  have hin : reg.byWire.contains (OpcodeRegistry.wireKey 1 0x0101) = true :=
    hreg.contains_initial (by decide +kernel)
  obtain ⟨entry,hentry⟩ := Option.isSome_iff_exists.mp hin
  constructor
  · exact ⟨entry.id,by simp only [PacketRoute.fromPacketRoute,OpcodeRegistry.resolveByWire,hentry]⟩
  · simp [OpcodeRegistry.validatePacketOpcode,OpcodeRegistry.resolveByWire,hentry,kNamespaceDiscovery]

/-- Whoever has the key can seal an empty packet for any session. -/
lemma exists_sealed_packet (hreg : reg.Reachable) (aead : Aead) (blake3 : Blake3) {key : PacketRxKey}
    (hkey : key.material.length = XChaCha20Provider.kKeySize) {id : Id16} (hid : id ≠ Id16.zero)
    {sequence : UInt64} (hseq : sequence ≠ 0) :
    ∃ framed pkt op opened, packetFromBuffer reg framed = .ok pkt ∧
      PacketRoute.fromPacketRoute reg pkt.header.ns pkt.header.messageId = some op ∧
      packetOpenData aead blake3 pkt key = (.ok (),opened) ∧
      pkt.header = emptyHeader id sequence := by
  obtain ⟨⟨op,hop⟩,hval⟩ := route_ls hreg
  let locked := aead.lock key.material (deriveAeadNonce blake3 id.toList sequence)
    (serializePacketHeader (emptyHeader id sequence)) []
  have hcipher : locked.1.length = 0 := aead.cipher_length _ _ _ _
  have hmac : locked.2.length = 16 := aead.mac_length _ _ _ _
  have hparse := @packetFromBuffer_emitted reg (emptyHeader id sequence) locked.1 locked.2 rfl
    hcipher.symm hseq hid hmac (by omega) hval
  exact ⟨_,_,op,_,hparse,hop,packetOpenData_locked hkey hseq hcipher.symm rfl,rfl⟩

/-- Packets of the connection move the window of this session and reach its handlers, wherever it is
stored and accepts the sequence. -/
def SpeaksFor (reg : OpcodeRegistry) (aead : Aead) (blake3 : Blake3) (ctx : SessionCryptoContext)
    (id : Id16) : Prop :=
  ∀ sequence : UInt64, sequence ≠ 0 → ∃ framed op, ∀ (d : PacketDispatcher) (m : SessionManager)
    (session : Session), m.lookup id = some session →
      session.securityState.rxWindow.isAcceptable sequence = true →
      (dispatchPacketSession reg aead blake3 d ctx (.ok framed) m).manager =
        m.put id (session.withWindow (session.securityState.rxWindow.commit sequence).2) ∧
      (d.Reaches op → ∃ opened, opened.header.sessionId = id ∧
        (dispatchPacketSession reg aead blake3 d ctx (.ok framed) m).delivered = some opened)

lemma speaksFor_any (aead : Aead) (blake3 : Blake3) (hreg : reg.Reachable)
    (hkey : ctx.rxKey.material.length = XChaCha20Provider.kKeySize) {id : Id16}
    (hid : id ≠ Id16.zero) : SpeaksFor reg aead blake3 ctx id := by
  intro sequence hseq
  obtain ⟨framed,pkt,op,opened,hparse,hroute,hopen,hheader⟩ :=
    exists_sealed_packet hreg aead blake3 hkey hid hseq
  refine ⟨framed,op,fun d m session hstored hfresh => ?_⟩
  have hadm : Admitted reg aead blake3 ctx (.ok framed) m pkt op session opened :=
    ⟨⟨framed,rfl,hparse⟩,hroute,by rwa [hheader],by rwa [hheader],hopen⟩
  refine ⟨by rw [hadm.dispatch_eq d,deliver_manager,hheader]; rfl,fun hreach => ?_⟩
  refine ⟨opened,?_,dispatch_delivered.mpr ⟨pkt,op,session,hadm,hreach⟩⟩
  rw [hadm.opened_header,hheader]
  rfl

/-- Packets of the connection reach handlers only under its own id, and touch only the session stored
under it. -/
def SpeaksForItself (reg : OpcodeRegistry) (aead : Aead) (blake3 : Blake3)
    (ctx : SessionCryptoContext) : Prop :=
  ∀ (d : PacketDispatcher) (received : Result Bytes) (m : SessionManager),
    (∀ opened, (dispatchPacketSession reg aead blake3 d ctx received m).delivered = some opened →
      opened.header.sessionId = ctx.sessionId) ∧
    ∀ key, key ≠ SessionManager.toKey ctx.sessionId →
      (dispatchPacketSession reg aead blake3 d ctx received m).manager.sessions.find key =
        m.sessions.find key

/-- Every connection with a key of the right size speaks for any session, and none only for its own. -/
theorem dispatch_speaks_for_any (reg : OpcodeRegistry) (hreg : reg.Reachable) (aead : Aead)
    (blake3 : Blake3) (ctx : SessionCryptoContext)
    (hkey : ctx.rxKey.material.length = XChaCha20Provider.kKeySize) :
    (∀ id ≠ Id16.zero, SpeaksFor reg aead blake3 ctx id) ∧ ¬SpeaksForItself reg aead blake3 ctx := by
  refine ⟨fun id hid => speaksFor_any aead blake3 hreg hkey hid,fun hown => ?_⟩
  obtain ⟨id,hid,hother⟩ : ∃ id ≠ Id16.zero, id ≠ ctx.sessionId := by
    by_cases hone : List.Vector.replicate 16 1 = ctx.sessionId
    · exact ⟨List.Vector.replicate 16 2,by decide,by rw [← hone]; decide⟩
    · exact ⟨List.Vector.replicate 16 1,by decide,hone⟩
  obtain ⟨framed,op,hframed⟩ := speaksFor_any aead blake3 hreg hkey hid 1 (by decide)
  obtain ⟨-,hdelivered⟩ := hframed acceptAll (tableOf id) _ (lookup_tableOf id) rfl
  obtain ⟨opened,hopened,hdel⟩ := hdelivered ⟨rfl,rfl⟩
  exact hother (hopened.symm.trans ((hown acceptAll _ _).1 opened hdel))

def otherContext : SessionCryptoContext := ⟨List.Vector.replicate 16 2,⟨zeroKey⟩,⟨zeroKey⟩⟩

theorem dispatch_speaks_for_any_sum : ¬SpeaksForItself .initial sumAead zeroHash otherContext :=
  (dispatch_speaks_for_any .initial .initial sumAead zeroHash otherContext rfl).2

def sealedWire : Bytes :=
  serializePacketHeader (wireHeader (sealed routedPacket) ⟨1,0x0101⟩) ++ (sealed routedPacket).payload ++
    (sealed routedPacket).auth

/-- A peer on another connection seals a packet for session `1…1` under its own key: the window of
that session moves. -/
theorem dispatch_foreign_session : ∃ (ctx : SessionCryptoContext) (framed : Bytes) (victim : Id16),
    victim ≠ ctx.sessionId ∧
    ((dispatchPacketSession .initial sumAead zeroHash acceptAll ctx (.ok framed)
      (tableOf victim)).delivered.map fun pkt => pkt.header.sessionId) = some victim ∧
    ((tableOf victim).lookup victim).map (fun s => s.securityState.rxWindow.highest) = some 0 ∧
    ((dispatchPacketSession .initial sumAead zeroHash acceptAll ctx (.ok framed)
      (tableOf victim)).manager.lookup victim).map (fun s => s.securityState.rxWindow.highest) =
        some 7 := by
  refine ⟨otherContext,sealedWire,List.Vector.replicate 16 1,?_,?_,?_,?_⟩ <;> decide +kernel

end SmoFramework.Network
