import SmoFramework.Genesis.Json
import SmoFramework.Library.HashChain
import SmoFramework.Packet.Crypto

/-! The event store (`core/runtime/event_store`): records chained by their hashes and kept in a
table. What the database says to an insert and what the clock shows are arguments of a call. -/
namespace SmoFramework.Runtime
open Library List HashChain
open Genesis (decimal bytesToHex)

/-- `enum class EventType : uint8_t`; every byte is a value of the type, named or not. -/
structure EventType where
  val : UInt8
  deriving DecidableEq, Repr

def EventType.Created : EventType := ⟨1⟩

structure EventRecord where
  sequence : UInt64 := 0
  type : EventType := .Created
  timestampNs : Int64 := 0
  contractId : Bytes := []
  executionId : Bytes := []
  traceId : Bytes := []
  nodeId : Bytes := []
  actorId : Bytes := []
  payload : Bytes := []
  prevHash : Bytes := []
  eventHash : Bytes := []
  signature : Bytes := []
  deriving DecidableEq

/-- A signed number as `operator<<` prints it. -/
def signedDecimal (n : ℤ) : Bytes := if n < 0 then 45::decimal n.natAbs else decimal n.natAbs

variable (event : EventRecord)

/-- What is written to the stream before the previous hash; nothing stands between two fields. -/
def EventRecord.body : Bytes :=
  decimal event.sequence.toNat ++ decimal event.type.val.toNat ++
    signedDecimal event.timestampNs.toInt ++ event.contractId ++ event.executionId ++
    event.traceId ++ event.nodeId ++ event.actorId ++ event.payload

def linkHash (blake3 : Blake3) (body prevHash : Bytes) : Bytes :=
  bytesToHex (blake3 (body ++ prevHash)).toList

def computeEventHash (blake3 : Blake3) (event : EventRecord) : Bytes :=
  linkHash blake3 event.body event.prevHash

/-- A text as it is bound by `c_str()`: up to the first zero byte. -/
def cstr (s : Bytes) : Bytes := s.takeWhile (· != 0)

def EventRecord.row : EventRecord :=
  { event with
    contractId := cstr event.contractId
    executionId := cstr event.executionId
    traceId := cstr event.traceId
    nodeId := cstr event.nodeId
    actorId := cstr event.actorId
    payload := cstr event.payload
    prevHash := cstr event.prevHash
    eventHash := cstr event.eventHash
    signature := cstr event.signature }

inductive Insert
  | prepareFailed (errmsg : String)
  | stepFailed (errmsg : String)
  | done
  deriving DecidableEq

structure EventStore where
  sequenceCounter : UInt64 := 0
  lastHash : Bytes := []
  events : List EventRecord := []
  deriving DecidableEq

structure AppendCall where
  event : EventRecord
  now : Int64
  insert : Insert

namespace EventStore
variable (blake3 : Blake3) (store : EventStore) (event : EventRecord) (now : Int64)

def chained : EventRecord :=
  let e := { event with
    sequence := store.sequenceCounter+1
    timestampNs := now
    prevHash := store.lastHash }
  { e with eventHash := computeEventHash blake3 e, signature := literal "sig_placeholder" }

/-- The counter goes up even if the insert fails. -/
def append (insert : Insert) : Result UInt64 × EventStore :=
  let e := store.chained blake3 event now
  let store := { store with sequenceCounter := e.sequence }
  match insert with
  | .prepareFailed errmsg => (.error (smoErrStorage 904 .error .retrySafe .retryOperation
      ("Failed to prepare insert: " ++ errmsg)),store)
  | .stepFailed errmsg => (.error (smoErrStorage 904 .error .retrySafe .retryOperation
      ("Failed to insert event: " ++ errmsg)),store)
  | .done => (.ok e.sequence,{ store with
      lastHash := e.eventHash
      events := store.events ++ [e.row] })

def call (c : AppendCall) : EventStore :=
  (store.append blake3 c.event c.now c.insert).2

def inserted (store : EventStore) : List AppendCall → List EventRecord
  | [] => []
  | c::calls =>
    let rest := inserted (store.call blake3 c) calls
    if c.insert = .done then store.chained blake3 c.event c.now::rest else rest

variable (calls : List AppendCall)

def records : List EventRecord := inserted blake3 {} calls

def table : List EventRecord := (calls.foldl (call blake3) {}).events

variable {blake3}

/-! One call. -/

lemma call_failed {store : EventStore} (h : c.insert ≠ .done) :
    store.call blake3 c = { store with sequenceCounter := store.sequenceCounter+1 } := by
  unfold call append
  cases hc : c.insert with
  | prepareFailed errmsg => rfl
  | stepFailed errmsg => rfl
  | done => exact absurd hc h

lemma call_done {store : EventStore} (h : c.insert = .done) :
    store.call blake3 c =
      { sequenceCounter := store.sequenceCounter+1
        lastHash := (store.chained blake3 c.event c.now).eventHash
        events := store.events ++ [(store.chained blake3 c.event c.now).row] } := by
  unfold call append
  rw [h]
  rfl

lemma chained_eventHash : (store.chained blake3 event now).eventHash =
      linkHash blake3 (store.chained blake3 event now).body store.lastHash := rfl

/-! Runs. -/

lemma foldl_call_events (calls : List AppendCall) :
    (calls.foldl (call blake3) store).events =
      store.events ++ (inserted blake3 store calls).map EventRecord.row := by
  induction calls generalizing store with
  | nil => simp [inserted]
  | cons c calls ih =>
    rw [foldl_cons,ih,inserted]
    by_cases hc : c.insert = .done
    · rw [if_pos hc,call_done hc,map_cons,append_assoc]
      rfl
    · rw [if_neg hc,call_failed hc]

lemma table_eq :
    table blake3 calls = (records blake3 calls).map EventRecord.row := foldl_call_events {} calls

variable (blake3) in
lemma inputs_inserted (calls : List AppendCall) :
    HashChain.inputs (linkHash blake3) store.lastHash
        ((inserted blake3 store calls).map EventRecord.body) =
      (inserted blake3 store calls).map fun e => (e.body,e.prevHash) := by
  induction calls generalizing store with
  | nil => rfl
  | cons c calls ih =>
    have ih := ih (store.call blake3 c)
    rw [inserted]
    by_cases hc : c.insert = .done
    · rw [if_pos hc,map_cons,map_cons,← ih,call_done hc]
      rfl
    · rw [if_neg hc,← ih,call_failed hc]

variable {store} {calls}

lemma mem_inserted_eventHash
    (h : e ∈ inserted blake3 store calls) : e.eventHash = linkHash blake3 e.body e.prevHash := by
  induction calls generalizing store with
  | nil => cases h
  | cons c calls ih =>
    rw [inserted] at h
    split_ifs at h with hc
    · rcases mem_cons.mp h with rfl | h
      · rfl
      · exact ih h
    · exact ih h

def lastEventHash (events : List EventRecord) : Option Bytes :=
  events.getLast?.map EventRecord.eventHash

variable (blake3) in
lemma tip_inserted (store : EventStore) (calls : List AppendCall) :
    HashChain.tip (linkHash blake3) store.lastHash
        ((inserted blake3 store calls).map EventRecord.body) =
      (lastEventHash (inserted blake3 store calls)).getD store.lastHash := by
  induction calls generalizing store with
  | nil => rfl
  | cons c calls ih =>
    have ih := ih (store.call blake3 c)
    rw [inserted]
    by_cases hc : c.insert = .done
    · rw [if_pos hc,map_cons,tip,foldl_cons,← chained_eventHash]
      rw [call_done hc] at ih ⊢
      refine ih.trans ?_
      unfold lastEventHash
      rw [getLast?_cons]
      cases (inserted blake3 _ calls).getLast? <;> rfl
    · rw [if_neg hc]
      rw [call_failed hc] at ih ⊢
      exact ih

/-! Hashes have one length and no zero byte. -/

variable (body prevHash : Bytes)

lemma linkHash_length : (linkHash blake3 body prevHash).length = 64 := by
  simp [linkHash,bytesToHex,length_flatMap]

lemma cstr_linkHash :
    cstr (linkHash blake3 body prevHash) = linkHash blake3 body prevHash := by
  unfold cstr
  rw [takeWhile_eq_self_iff]
  intro c hc
  have hdigit := Genesis.isDigit_of_mem_bytesToHex hc
  rw [bne_iff_ne]
  rintro rfl
  revert hdigit
  decide

lemma lastEventHash_map_row (calls : List AppendCall) :
    lastEventHash ((records blake3 calls).map EventRecord.row) =
      lastEventHash (records blake3 calls) := by
  unfold lastEventHash
  rw [getLast?_map,Option.map_map]
  apply Option.map_congr
  intro e he
  have hash := mem_inserted_eventHash (mem_of_getLast? he)
  rw [Function.comp_apply,EventRecord.row,hash,cstr_linkHash]

/-! Tamper evidence. -/

def hashed (blake3 : Blake3) (calls : List AppendCall) : Set Bytes :=
  {bytes | ∃ e ∈ records blake3 calls, bytes = e.body ++ e.prevHash}

/-- The last hash tells the two lists of events apart. -/
def TamperEvident (events events' : List EventRecord) : Prop :=
  lastEventHash events = lastEventHash events' → events = events'

variable {calls calls' : List AppendCall}

lemma lastEventHash_eq_iff (hlen : (records blake3 calls).length = (records blake3 calls').length)
    (hinj : Set.InjOn blake3 (hashed blake3 calls ∪ hashed blake3 calls')) :
    lastEventHash (records blake3 calls) = lastEventHash (records blake3 calls') ↔
      (records blake3 calls).map EventRecord.body = (records blake3 calls').map EventRecord.body := by
  have htip := tip_inserted blake3 {} calls
  have htip' := tip_inserted blake3 {} calls'
  constructor
  · intro hlast
    have heq := htip.trans ((congrArg (Option.getD · []) hlast).trans htip'.symm)
    refine (eq_of_tip_eq (by simpa [records] using hlen) ?_ heq).1
    intro p hp hlink
    -- At the same place both hash the empty text or a text of 64 digits after the body.
    have hlength : p.1.2.length = p.2.2.length :=
      related_inputs (R := fun d d' => d.length = d'.length) rfl
        (fun b d b' d' => by rw [linkHash_length,linkHash_length]) p hp
    have hin := inputs_inserted blake3 {} calls
    have hin' := inputs_inserted blake3 {} calls'
    obtain ⟨hleft,hright⟩ := of_mem_zip (a := p.1) (b := p.2) hp
    obtain ⟨e,he,hpe⟩ := mem_map.mp (hin ▸ hleft)
    obtain ⟨e',he',hpe'⟩ := mem_map.mp (hin' ▸ hright)
    rw [← hpe,← hpe'] at hlink hlength ⊢
    have hbytes : e.body ++ e.prevHash = e'.body ++ e'.prevHash :=
      hinj (Or.inl ⟨e,he,rfl⟩) (Or.inr ⟨e',he',rfl⟩)
        (List.Vector.toList_injective (Genesis.bytesToHex_injective hlink))
    obtain ⟨hbody,hprev⟩ := append_inj' hbytes hlength
    rw [hbody,hprev]
  · intro hbodies
    have hgetD := htip.symm.trans ((congrArg (tip (linkHash blake3) []) hbodies).trans htip')
    unfold lastEventHash at hgetD ⊢
    have hnil : records blake3 calls = [] ↔ records blake3 calls' = [] := by
      rw [← length_eq_zero_iff,hlen,length_eq_zero_iff]
    by_cases hempty : records blake3 calls = []
    · rw [hempty,hnil.mp hempty]
    · change ((records blake3 calls).getLast?.map _).getD _ =
        ((records blake3 calls').getLast?.map _).getD _ at hgetD
      rw [getLast?_eq_some_getLast hempty,getLast?_eq_some_getLast (mt hnil.mpr hempty)] at hgetD ⊢
      exact congrArg some hgetD

/-- For any two runs that insert as many events, the last hash tells the records apart, and the
rows of the table apart, exactly if they are the same or their concatenated fields differ
somewhere. -/
theorem tamperEvident_iff (blake3 : Blake3) (calls calls' : List AppendCall)
    (hlen : (records blake3 calls).length = (records blake3 calls').length)
    (hinj : Set.InjOn blake3 (hashed blake3 calls ∪ hashed blake3 calls')) :
    (TamperEvident (records blake3 calls) (records blake3 calls') ↔
      records blake3 calls = records blake3 calls' ∨ (records blake3 calls).map EventRecord.body ≠
          (records blake3 calls').map EventRecord.body) ∧
    (TamperEvident (table blake3 calls) (table blake3 calls') ↔
      table blake3 calls = table blake3 calls' ∨ (records blake3 calls).map EventRecord.body ≠
          (records blake3 calls').map EventRecord.body) := by
  have hiff := lastEventHash_eq_iff hlen hinj
  unfold TamperEvident
  rw [table_eq,table_eq,lastEventHash_map_row,lastEventHash_map_row,hiff]
  exact ⟨imp_iff_or_not,imp_iff_or_not⟩

def appendIds (contractId executionId : Bytes) : AppendCall := ⟨{ contractId, executionId },0,.done⟩

lemma hashed_appendIds (blake3 : Blake3) (contractId executionId : Bytes) :
    hashed blake3 [appendIds contractId executionId] =
      {decimal 1 ++ decimal 1 ++ signedDecimal 0 ++ (contractId ++ executionId)} := by
  ext bytes
  simp [hashed,records,inserted,appendIds,chained,EventRecord.body,EventType.Created]

/-- Thirty-two copies of the last byte: enough to tell two texts with different ends apart. -/
def lastByteHash : Blake3 := fun bytes => List.Vector.replicate 32 (bytes.getLastD 0)

theorem tamperEvident_iff_two_ids :
    TamperEvident (records lastByteHash [appendIds [97] []]) (records lastByteHash [appendIds [98] []]) ↔
      records lastByteHash [appendIds [97] []] = records lastByteHash [appendIds [98] []] ∨
        (records lastByteHash [appendIds [97] []]).map EventRecord.body ≠
          (records lastByteHash [appendIds [98] []]).map EventRecord.body := by
  refine (tamperEvident_iff lastByteHash [appendIds [97] []] [appendIds [98] []] rfl ?_).1
  rw [hashed_appendIds,hashed_appendIds]
  intro x hx y hy h
  have hlast : x.getLastD 0 = y.getLastD 0 := congrArg List.Vector.head h
  rcases hx with rfl | rfl <;> rcases hy with rfl | rfl
  · rfl
  · simp at hlast
  · simp at hlast
  · rfl

/-- Whatever the hash: a byte moved from one id to the next changes the stored event and not its
hash. -/
theorem moved_byte_keeps_hash : (∀ blake3 : Blake3, Set.InjOn blake3
      (hashed blake3 [appendIds [97,98] []] ∪ hashed blake3 [appendIds [97] [98]])) ∧
    (∀ blake3 : Blake3, (records blake3 [appendIds [97,98] []]).length =
      (records blake3 [appendIds [97] [98]]).length) ∧
    (∀ blake3 : Blake3, lastEventHash (table blake3 [appendIds [97,98] []]) =
      lastEventHash (table blake3 [appendIds [97] [98]])) ∧
    ∀ blake3 : Blake3, table blake3 [appendIds [97,98] []] ≠ table blake3 [appendIds [97] [98]] := by
  refine ⟨?_,fun _ => rfl,?_,?_⟩
  · intro blake3
    rw [hashed_appendIds,hashed_appendIds,append_nil,singleton_append,Set.union_self]
    exact Set.injOn_singleton _ _
  · intro blake3
    have hbody : ({ contractId := [97,98], sequence := 1 } : EventRecord).body =
        ({ contractId := [97], executionId := [98], sequence := 1 } : EventRecord).body := by
      simp [EventRecord.body]
    rw [table_eq,table_eq,lastEventHash_map_row,lastEventHash_map_row]
    exact congrArg (fun body => some (linkHash blake3 body [])) hbody
  · intro blake3 h
    have hids := congrArg (map EventRecord.contractId) h
    have h0 : ([[97,98]] : List Bytes) = [[97]] := hids
    revert h0
    decide

end EventStore
end SmoFramework.Runtime
