import Mathlib.Data.Nat.Bitwise
import SmoFramework.Errors
import SmoFramework.Library.AssocMap

/-! The opcode registry and its wire table (`core/opcode`). The registry is a process-wide
object: it starts from the constructor and changes through its two public registration calls
and the message id counters, so packet code meets exactly the states reachable that way. -/
namespace SmoFramework
open SmoFramework.Library AssocMap

/-- `enum class Opcode : uint8_t`; every byte is a value of the type, named or not. -/
structure Opcode where
  val : UInt8
  deriving DecidableEq, Repr

namespace Opcode
def LS : Opcode := ⟨0x01⟩
def PUT : Opcode := ⟨0x02⟩
def GET : Opcode := ⟨0x03⟩
def EXEC : Opcode := ⟨0x04⟩
def QUARANTINE : Opcode := ⟨0x05⟩
def ECHO : Opcode := ⟨0x06⟩
def MKDIR : Opcode := ⟨0x10⟩
def RM : Opcode := ⟨0x11⟩
def CP : Opcode := ⟨0x12⟩
def REVOKE_CERT : Opcode := ⟨0x20⟩
def EPOCH_INCREMENT : Opcode := ⟨0x21⟩
def RECOVERY_SESSION : Opcode := ⟨0x22⟩
def CRL_SYNC : Opcode := ⟨0x23⟩
def GOV_PROPOSE : Opcode := ⟨0x24⟩
def GOV_VOTE : Opcode := ⟨0x25⟩
def GOV_COMMIT : Opcode := ⟨0x26⟩
def GOV_LIST : Opcode := ⟨0x27⟩
def GOV_STATUS : Opcode := ⟨0x28⟩
def GOV_INFO : Opcode := ⟨0x29⟩
def RECOVERY : Opcode := ⟨0x2A⟩
def FILE_OP : Opcode := ⟨0x2B⟩
def PROCESS : Opcode := ⟨0x2C⟩
def CONTRACT_MGMT : Opcode := ⟨0x2D⟩
def WITNESS : Opcode := ⟨0x2E⟩
def BOOTSTRAP_SNAPSHOT : Opcode := ⟨0x30⟩
def BOOTSTRAP_INFO : Opcode := ⟨0x31⟩
def JOIN : Opcode := ⟨0x33⟩
def LEAVE : Opcode := ⟨0x34⟩
def JOIN_INFO : Opcode := ⟨0x35⟩
def SESSION_OPEN : Opcode := ⟨0x40⟩
def SESSION_CLOSE : Opcode := ⟨0x41⟩
def SESSION_RENEW : Opcode := ⟨0x42⟩
def CHANNEL_OPEN : Opcode := ⟨0x60⟩
def CHANNEL_CHUNK : Opcode := ⟨0x61⟩
def CHANNEL_ACK : Opcode := ⟨0x62⟩
def CHANNEL_NACK : Opcode := ⟨0x63⟩
def CHANNEL_FIN : Opcode := ⟨0x64⟩
def CHANNEL_CANCEL : Opcode := ⟨0x65⟩
def CHANNEL_WINDOW_UPDATE : Opcode := ⟨0x66⟩
def CUSTOM : Opcode := ⟨0xFF⟩
end Opcode

def kNamespaceDiscovery : UInt8 := 0x01
def kNamespaceControl : UInt8 := 0x02
def kNamespaceExecution : UInt8 := 0x03
def kNamespaceData : UInt8 := 0x04

structure OpcodeEntry where
  id : Opcode
  name : String
  semver : String := ""
  capabilityMask : UInt32 := 0
  idempotent : Bool := false
  contractId : String := ""
  pluginId : String := ""
  supportedArches : List String := []
  ns : UInt8 := 0
  messageId : UInt16 := 0
  functionalGroup : String := ""
  deriving DecidableEq, Repr

structure WireOpcodeEntry where
  code : Opcode
  ns : UInt8
  messageId : UInt16
  name : String
  functionalGroup : String
  capabilityMask : UInt32
  idempotent : Bool

def kWireTable : List WireOpcodeEntry := [
  ⟨.LS,kNamespaceDiscovery,0x0101,"ls","discovery",0x01,true⟩,
  ⟨.PUT,kNamespaceDiscovery,0x0102,"put","discovery",0x01,true⟩,
  ⟨.GET,kNamespaceDiscovery,0x0103,"get","discovery",0x01,true⟩,
  ⟨.ECHO,kNamespaceDiscovery,0x0104,"echo","discovery",0x01,true⟩,
  ⟨.SESSION_OPEN,kNamespaceControl,0x0010,"session_open","session",0x01,false⟩,
  ⟨.SESSION_CLOSE,kNamespaceControl,0x0011,"session_close","session",0x01,true⟩,
  ⟨.SESSION_RENEW,kNamespaceControl,0x0012,"session_renew","session",0x01,false⟩,
  ⟨.GOV_PROPOSE,kNamespaceControl,0x0020,"gov_propose","governance",0x01,false⟩,
  ⟨.GOV_VOTE,kNamespaceControl,0x0021,"gov_vote","governance",0x01,false⟩,
  ⟨.GOV_COMMIT,kNamespaceControl,0x0022,"gov_commit","governance",0x01,true⟩,
  ⟨.GOV_LIST,kNamespaceControl,0x0023,"gov_list","governance",0x01,true⟩,
  ⟨.GOV_STATUS,kNamespaceControl,0x0024,"gov_status","governance",0x01,true⟩,
  ⟨.GOV_INFO,kNamespaceControl,0x0025,"gov_info","governance",0x01,true⟩,
  ⟨.REVOKE_CERT,kNamespaceControl,0x0030,"revoke_cert","certificate",0x01,false⟩,
  ⟨.EPOCH_INCREMENT,kNamespaceControl,0x0031,"epoch_increment","certificate",0x01,false⟩,
  ⟨.CRL_SYNC,kNamespaceControl,0x0032,"crl_sync","certificate",0x01,true⟩,
  ⟨.RECOVERY_SESSION,kNamespaceControl,0x0040,"recovery_session","recovery",0x01,false⟩,
  ⟨.RECOVERY,kNamespaceControl,0x0041,"recovery","recovery",0x01,false⟩,
  ⟨.CONTRACT_MGMT,kNamespaceControl,0x0050,"contract_mgmt","contract_mgmt",0x01,false⟩,
  ⟨.WITNESS,kNamespaceControl,0x0051,"witness","contract_mgmt",0x01,false⟩,
  ⟨.EXEC,kNamespaceExecution,0x0201,"exec","execution",0x01,false⟩,
  ⟨.QUARANTINE,kNamespaceExecution,0x0202,"quarantine","execution",0x01,false⟩,
  ⟨.MKDIR,kNamespaceExecution,0x0203,"mkdir","execution",0x01,true⟩,
  ⟨.RM,kNamespaceExecution,0x0204,"rm","execution",0x01,false⟩,
  ⟨.CP,kNamespaceExecution,0x0205,"cp","execution",0x01,true⟩,
  ⟨.FILE_OP,kNamespaceExecution,0x0206,"file_op","execution",0x01,false⟩,
  ⟨.PROCESS,kNamespaceExecution,0x0207,"process","execution",0x01,false⟩,
  ⟨.CUSTOM,kNamespaceExecution,0x02FF,"custom","execution",0x01,false⟩,
  ⟨.CHANNEL_OPEN,kNamespaceData,0x0001,"channel_open","channel",0x01,false⟩,
  ⟨.CHANNEL_CHUNK,kNamespaceData,0x0002,"channel_chunk","channel",0x01,false⟩,
  ⟨.CHANNEL_ACK,kNamespaceData,0x0003,"channel_ack","channel",0x01,true⟩,
  ⟨.CHANNEL_NACK,kNamespaceData,0x0004,"channel_nack","channel",0x01,false⟩,
  ⟨.CHANNEL_FIN,kNamespaceData,0x0005,"channel_fin","channel",0x01,true⟩,
  ⟨.CHANNEL_CANCEL,kNamespaceData,0x0006,"channel_cancel","channel",0x01,false⟩,
  ⟨.CHANNEL_WINDOW_UPDATE,kNamespaceData,0x0007,"channel_window_update","channel",0x01,true⟩]

structure OpcodeRegistry where
  byCode : AssocMap Opcode OpcodeEntry := AssocMap.empty
  byName : AssocMap String Opcode := AssocMap.empty
  byWire : AssocMap UInt32 OpcodeEntry := AssocMap.empty
  nextMsgId : AssocMap String UInt16 := AssocMap.empty

namespace OpcodeRegistry

def wireKey (ns : UInt8) (messageId : UInt16) : UInt32 := (ns.toUInt32 <<< 16) ||| messageId.toUInt32

def advanceMsgId (reg : OpcodeRegistry) (group : String) (messageId : UInt16) : OpcodeRegistry :=
  match reg.nextMsgId.find group with
  | none => { reg with nextMsgId := reg.nextMsgId.insert group (messageId+1) }
  | some next =>
    if next ≤ messageId then { reg with nextMsgId := reg.nextMsgId.insert group (messageId+1) }
    else reg

/-- One iteration of the constructor's loop over the wire table. -/
def registerWire (reg : OpcodeRegistry) (entry : WireOpcodeEntry) : OpcodeRegistry :=
  let oe : OpcodeEntry := {
    id := entry.code, name := entry.name, semver := "1.0.0",
    capabilityMask := entry.capabilityMask, idempotent := entry.idempotent,
    ns := entry.ns, messageId := entry.messageId, functionalGroup := entry.functionalGroup,
    supportedArches := ["x86_64","aarch64"] }
  let reg := { reg with
    byCode := reg.byCode.insert entry.code oe
    byName := reg.byName.insert entry.name entry.code }
  let reg := if entry.ns ≠ 0 ∧ entry.messageId ≠ 0 then
      { reg with byWire := reg.byWire.insert (wireKey entry.ns entry.messageId) oe }
    else reg
  reg.advanceMsgId entry.functionalGroup entry.messageId

def registerBuiltin (reg : OpcodeRegistry) (code : Opcode) (name : String)
    (capabilityMask : UInt32) (idempotent : Bool) : OpcodeRegistry :=
  let base : OpcodeEntry := {
    id := code, name := name, semver := "1.0.0", capabilityMask := capabilityMask,
    idempotent := idempotent, supportedArches := ["x86_64","aarch64"] }
  let entry := match kWireTable.find? (fun we => we.code = code) with
    | some we => { base with
        ns := we.ns, messageId := we.messageId, functionalGroup := we.functionalGroup }
    | none => base
  let reg := { reg with
    byCode := reg.byCode.insert code entry
    byName := reg.byName.insert entry.name code
    byWire := reg.byWire.insert (wireKey entry.ns entry.messageId) entry }
  reg.advanceMsgId entry.functionalGroup entry.messageId

def initial : OpcodeRegistry :=
  let reg := kWireTable.foldl registerWire {}
  let reg := reg.registerBuiltin .BOOTSTRAP_SNAPSHOT "bootstrap_snapshot" 0x01 true
  let reg := reg.registerBuiltin .BOOTSTRAP_INFO "bootstrap_info" 0x01 true
  let reg := reg.registerBuiltin .JOIN "join" 0x01 false
  let reg := reg.registerBuiltin .LEAVE "leave" 0x01 true
  reg.registerBuiltin .JOIN_INFO "join_info" 0x01 true

/-- A duplicate wire pair is reported only after the code and the name have been entered. -/
def registerPluginOpcode (reg : OpcodeRegistry) (entry : OpcodeEntry) :
    Result Unit × OpcodeRegistry :=
  if entry.id.val < 0xFB ∨ entry.id.val > 0xFE then
    (.error (smoErrCrypto 8 .error .noRetry .none "plugin opcode out of range (0xFB-0xFE)"),reg)
  else if reg.byCode.contains entry.id then
    (.error (smoErrCrypto 8 .error .noRetry .none "duplicate opcode registration"),reg)
  else if reg.byName.contains entry.name then
    (.error (smoErrCrypto 8 .error .noRetry .none "duplicate opcode name"),reg)
  else
    let reg := { reg with
      byCode := reg.byCode.insert entry.id entry
      byName := reg.byName.insert entry.name entry.id }
    if entry.ns ≠ 0 ∧ entry.messageId ≠ 0 then
      let key := wireKey entry.ns entry.messageId
      if reg.byWire.contains key then
        (.error (smoErrCrypto 8 .error .noRetry .none "duplicate wire opcode (ns, message_id)"),reg)
      else
        (.ok (),{ reg with byWire := reg.byWire.insert key entry }.advanceMsgId
          entry.functionalGroup entry.messageId)
    else (.ok (),reg)

def resolve (reg : OpcodeRegistry) (code : Opcode) : Result OpcodeEntry :=
  match reg.byCode.find code with
  | none => .error (smoErrCrypto 8 .error .noRetry .none "unknown opcode")
  | some entry => .ok entry

/-- No answer is the `std::out_of_range` that `by_code_.at` throws. -/
def resolveByName (reg : OpcodeRegistry) (name : String) : Option (Result OpcodeEntry) :=
  match reg.byName.find name with
  | none => some (.error (smoErrCrypto 8 .error .noRetry .none "unknown opcode name"))
  | some code => (reg.byCode.find code).map .ok

def resolveByWire (reg : OpcodeRegistry) (ns : UInt8) (messageId : UInt16) : Result OpcodeEntry :=
  match reg.byWire.find (wireKey ns messageId) with
  | none => .error (smoErrCrypto 8 .error .noRetry .none ("unknown wire opcode (ns=" ++
      toString ns.toNat ++ ", msg_id=0x" ++ toString messageId.toNat ++ ")"))
  | some entry => .ok entry

def validatePacketOpcode (reg : OpcodeRegistry) (ns : UInt8) (messageId : UInt16) : Result Unit :=
  match reg.resolveByWire ns messageId with
  | .error e => .error e
  | .ok _ =>
    if ns ≠ kNamespaceDiscovery ∧ ns ≠ kNamespaceControl ∧ ns ≠ kNamespaceExecution ∧
        ns ≠ kNamespaceData then
      .error (smoErrProtocol 604 .error .noRetry .none
        "unsupported namespace for packet (RFC 0020)")
    else .ok ()

/-- Asking for an id consumes it. A group without a counter gets `0x0100` and no counter is created.
-/
def nextMessageId (reg : OpcodeRegistry) (group : String) : UInt16 × OpcodeRegistry :=
  match reg.nextMsgId.find group with
  | none => (0x0100,reg)
  | some next => (next,{ reg with nextMsgId := reg.nextMsgId.insert group (next+1) })

inductive Reachable : OpcodeRegistry → Prop
  | initial : Reachable initial
  | builtin {reg} (h : Reachable reg) (code : Opcode) (name : String) (capabilityMask : UInt32)
      (idempotent : Bool) : Reachable (reg.registerBuiltin code name capabilityMask idempotent)
  | plugin {reg} (h : Reachable reg) (entry : OpcodeEntry) :
      Reachable (reg.registerPluginOpcode entry).2
  | nextId {reg} (h : Reachable reg) (group : String) : Reachable (reg.nextMessageId group).2

/-! Wire keys. -/

lemma wireKey_toNat (ns : UInt8) (messageId : UInt16) :
    (wireKey ns messageId).toNat = ns.toNat*2^16+messageId.toNat := by
  have hn := ns.toNat_lt
  have hm := messageId.toNat_lt
  unfold wireKey
  rw [UInt32.toNat_or,UInt32.toNat_shiftLeft,UInt8.toNat_toUInt32,UInt16.toNat_toUInt32]
  change ns.toNat <<< (16 % 32) % 2^32 ||| messageId.toNat = _
  rw [show 16 % 32 = 16 from rfl,Nat.mod_eq_of_lt (by rw [Nat.shiftLeft_eq]; omega),
    ← Nat.shiftLeft_add_eq_or_of_lt hm,Nat.shiftLeft_eq]

/-- Every registered wire pair but the one of non-packet opcodes has a nonzero message id. -/
def WireIdsNonzero (reg : OpcodeRegistry) : Prop :=
  ∀ key, (reg.byWire.find key).isSome = true → key = 0 ∨ key.toNat % 2^16 ≠ 0

lemma advanceMsgId_tables (reg : OpcodeRegistry) (group : String) (messageId : UInt16) :
    let after := reg.advanceMsgId group messageId
    after.byCode = reg.byCode ∧ after.byName = reg.byName ∧ after.byWire = reg.byWire := by
  unfold advanceMsgId
  split
  · exact ⟨rfl,rfl,rfl⟩
  · split_ifs <;> exact ⟨rfl,rfl,rfl⟩

lemma WireIdsNonzero.insert (h : WireIdsNonzero reg) (key : UInt32)
    (entry : OpcodeEntry) (hkey : key = 0 ∨ key.toNat % 2^16 ≠ 0) :
    WireIdsNonzero { reg with byWire := reg.byWire.insert key entry } := by
  intro k hk
  rw [find_insert] at hk
  split_ifs at hk with he
  · exact he ▸ hkey
  · exact h k hk

lemma wireKey_mod (ns : UInt8) (messageId : UInt16) :
    (wireKey ns messageId).toNat % 2^16 = messageId.toNat := by
  rw [wireKey_toNat]
  have := messageId.toNat_lt
  omega

lemma toNat_ne_zero {messageId : UInt16} (h : messageId ≠ 0) : messageId.toNat ≠ 0 :=
  fun h0 => h (UInt16.toNat_inj.mp h0)

lemma registerPluginOpcode_byWire (reg : OpcodeRegistry) (entry : OpcodeEntry) :
    (reg.registerPluginOpcode entry).2.byWire = reg.byWire ∨
      entry.messageId ≠ 0 ∧ (reg.registerPluginOpcode entry).2.byWire =
        reg.byWire.insert (wireKey entry.ns entry.messageId) entry := by
  unfold registerPluginOpcode
  dsimp only
  split_ifs with hrange hcode hname hpair hwire
  · exact Or.inl rfl
  · exact Or.inl rfl
  · exact Or.inl rfl
  · exact Or.inl rfl
  · exact Or.inr ⟨hpair.2,(advanceMsgId_tables _ _ _).2.2⟩
  · exact Or.inl rfl

lemma registerBuiltin_byWire (reg : OpcodeRegistry) (code : Opcode) (name : String)
    (capabilityMask : UInt32) (idempotent : Bool) : ∃ ns messageId entry,
      (wireKey ns messageId = 0 ∨ messageId ≠ 0) ∧
      (reg.registerBuiltin code name capabilityMask idempotent).byWire =
        reg.byWire.insert (wireKey ns messageId) entry := by
  have htable : ∀ we ∈ kWireTable, we.messageId ≠ 0 := by decide
  unfold registerBuiltin
  split
  · rename_i we hwe
    exact ⟨_,_,_,Or.inr (htable we (List.mem_of_find?_eq_some hwe)),(advanceMsgId_tables _ _ _).2.2⟩
  · exact ⟨0,0,_,Or.inl (by decide),(advanceMsgId_tables _ _ _).2.2⟩

lemma nextMessageId_byWire (reg : OpcodeRegistry) (group : String) :
    (reg.nextMessageId group).2.byWire = reg.byWire := by
  unfold nextMessageId
  split <;> rfl

lemma initial_wireIdsNonzero : WireIdsNonzero initial := by
  have hall : ∀ e ∈ initial.byWire.entries, e.1 = 0 ∨ e.1.toNat % 2^16 ≠ 0 := by decide +kernel
  intro key hk
  obtain ⟨entry,he⟩ := Option.isSome_iff_exists.mp hk
  exact hall (key,entry) (mem_entries_of_find he)

lemma Reachable.wireIdsNonzero {reg : OpcodeRegistry} (h : Reachable reg) :
    WireIdsNonzero reg := by
  induction h with
  | initial => exact initial_wireIdsNonzero
  | @builtin reg h code name capabilityMask idempotent ih =>
    obtain ⟨ns,messageId,entry,hm,hw⟩ :=
      registerBuiltin_byWire reg code name capabilityMask idempotent
    intro key hk
    rw [hw] at hk
    exact ih.insert _ entry (hm.imp_right fun h0 => wireKey_mod _ _ ▸ toNat_ne_zero h0) key hk
  | @plugin reg h entry ih =>
    intro key hk
    rcases registerPluginOpcode_byWire reg entry with hw | ⟨hm,hw⟩
    · rw [hw] at hk
      exact ih key hk
    · rw [hw] at hk
      exact ih.insert _ entry (Or.inr (wireKey_mod _ _ ▸ toNat_ne_zero hm)) key hk
  | @nextId reg h group ih =>
    intro key hk
    rw [nextMessageId_byWire] at hk
    exact ih key hk

theorem Reachable.validatePacketOpcode_ok (h : Reachable reg)
    (hv : reg.validatePacketOpcode ns messageId = .ok ()) :
    messageId ≠ 0 ∧ (ns = kNamespaceDiscovery ∨ ns = kNamespaceControl ∨
      ns = kNamespaceExecution ∨ ns = kNamespaceData) := by
  unfold validatePacketOpcode at hv
  split at hv
  · cases hv
  rename_i entry hr
  split_ifs at hv with hns
  have hns' : ns = kNamespaceDiscovery ∨ ns = kNamespaceControl ∨ ns = kNamespaceExecution ∨
      ns = kNamespaceData := by tauto
  refine ⟨?_,hns'⟩
  rintro rfl
  have hsome : (reg.byWire.find (wireKey ns 0)).isSome = true := by
    unfold resolveByWire at hr
    split at hr
    · cases hr
    · rename_i e he
      rw [he]
      rfl
  rcases h.wireIdsNonzero _ hsome with h0 | h1
  · have hz : ns.toNat*2^16+0 = 0 := by
      have := congrArg UInt32.toNat h0
      rwa [wireKey_toNat] at this
    have hz' : ns = 0 := UInt8.toNat_inj.mp (by simpa using hz)
    subst hz'
    revert hns'
    decide
  · exact h1 (wireKey_mod ns 0)

lemma Reachable.contains_initial (h : Reachable reg)
    (hkey : OpcodeRegistry.initial.byWire.contains key = true) :
    reg.byWire.contains key = true := by
  have hins : ∀ {m : AssocMap UInt32 OpcodeEntry} (k : UInt32) (entry : OpcodeEntry),
      m.contains key = true → (m.insert k entry).contains key = true := by
    intro m k entry hm
    rw [contains,find_insert]
    split_ifs
    · rfl
    · exact hm
  induction h with
  | initial => exact hkey
  | @builtin reg h code name capabilityMask idempotent ih =>
    obtain ⟨ns,messageId,entry,-,hw⟩ := registerBuiltin_byWire reg code name capabilityMask idempotent
    rw [hw]
    exact hins _ _ ih
  | @plugin reg h entry ih =>
    rcases registerPluginOpcode_byWire reg entry with hw | ⟨-,hw⟩
    · rwa [hw]
    · rw [hw]
      exact hins _ _ ih
  | @nextId reg h group ih => rwa [nextMessageId_byWire]

end OpcodeRegistry
end SmoFramework
