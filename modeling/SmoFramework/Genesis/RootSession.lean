import SmoFramework.Genesis.Json

/-! Sessions of the root key (`core/genesis/root_session`). The signer is a parameter: a state that may
change with every signature, and what the random source contributes to it. A destroyed signer is
dropped at once, so that nothing of it is left to model. -/
namespace SmoFramework.Genesis
open List

inductive RootSessionState
  | inactive | active | expired | consumed
  deriving DecidableEq, Repr

inductive Capability
  | signJoinToken | signBootstrapCSR | signRecovery | issueRecovery | rotateRoot | emergencyLockdown
  | resetEpoch | constitutionChange
  deriving DecidableEq, Repr

/-- `enum class RootOperation : uint8_t`; a caller can pass any byte. -/
inductive RootOperation
  | signJoinToken | signBootstrapCSR | signRecovery | issueRecovery | rotateRoot | emergencyLockdown
  | resetEpoch | constitutionChange
  | unnamed (byte : UInt8)
  deriving DecidableEq, Repr

structure SessionPolicy where
  caps : List Capability := []

def RootOperation.capability : RootOperation → Option Capability
  | .signJoinToken => some .signJoinToken
  | .signBootstrapCSR => some .signBootstrapCSR
  | .signRecovery => some .signRecovery
  | .issueRecovery => some .issueRecovery
  | .rotateRoot => some .rotateRoot
  | .emergencyLockdown => some .emergencyLockdown
  | .resetEpoch => some .resetEpoch
  | .constitutionChange => some .constitutionChange
  | .unnamed _ => none

def SessionPolicy.check (policy : SessionPolicy) (op : RootOperation) : Bool :=
  op.capability.any policy.caps.contains

structure RootRequest where
  operation : RootOperation
  payload : Bytes := []
  meshId : Bytes := []
  requester : Bytes := []
  reason : Bytes := []

def RootRequest.auditReason (req : RootRequest) : Bytes :=
  if req.reason = [] then text "execute" else req.reason

def RootRequest.auditDetails (req : RootRequest) : Bytes :=
  let details := if req.meshId = [] then [] else text "mesh=" ++ req.meshId
  if req.requester = [] then details
  else (if details = [] then details else details ++ text ";") ++ (text "requester=" ++ req.requester)

structure RootResult where
  success : Bool := false
  output : Bytes

structure AuditEvent where
  auditId : UInt64
  timestampNs : UInt64
  operation : RootOperation
  reason : Bytes
  success : Bool
  details : Bytes
  deriving DecidableEq

structure SignerContext (σ ρ : Type) where
  valid : σ → Bool
  sign : σ → Bytes → ρ → Result Bytes × σ

structure RootSession (σ : Type) where
  sessionId : Bytes := []
  rootNodeId : Bytes := []
  rootPublicKey : Bytes := []
  signer : Option σ := none
  policy : SessionPolicy := {}
  /-- Whether there is a function to call. -/
  auditSink : Bool := false
  state : RootSessionState := .inactive
  createdAt : UInt64 := 0
  expiresAt : UInt64 := 0
  consumedAt : UInt64 := 0
  auditCounter : UInt64 := 1

structure Activation (σ : Type) where
  sid : Bytes := []
  nodeId : Bytes := []
  pubkey : Bytes := []
  ctx : Option σ := none
  pol : SessionPolicy := {}
  sink : Bool := false
  nowNs : UInt64
  ttlNs : UInt64

namespace RootSession
variable {σ ρ : Type}

def isValid (s : RootSession σ) (now : UInt64) : Bool :=
  s.state = .active ∧ (s.expiresAt = 0 ∨ now ≤ s.expiresAt)

/-- `next_audit_id` and `emit`: the events that the sink gets, and the session with its counter moved
on. -/
def audit (s : RootSession σ) (now : UInt64) (operation : RootOperation) (reason : Bytes)
    (success : Bool) (details : Bytes) : List AuditEvent × RootSession σ :=
  (if s.auditSink then [⟨s.auditCounter,now,operation,reason,success,details⟩] else [],
    { s with auditCounter := s.auditCounter+1 })

/-- Without a signer of its own an activation keeps the one that is there. -/
def activate (s : RootSession σ) (a : Activation σ) : List AuditEvent × RootSession σ :=
  audit { s with
      sessionId := a.sid
      rootNodeId := a.nodeId
      rootPublicKey := a.pubkey
      signer := a.ctx.or s.signer
      policy := a.pol
      auditSink := a.sink
      state := .active
      createdAt := a.nowNs
      expiresAt := a.nowNs+a.ttlNs
      consumedAt := 0
      auditCounter := 1 }
    a.nowNs .signJoinToken (text "Session opened") true (text "root_node=" ++ a.nodeId)

/-- The time in the audit event is that of the system clock. -/
def destroy (s : RootSession σ) (clock : UInt64) : List AuditEvent × RootSession σ :=
  let s := { s with signer := none }
  let (events,s) := if s.state ≠ .consumed then
      s.audit clock .signJoinToken (text "Session destroyed") true []
    else ([],s)
  (events,{ s with state := .consumed })

def consume (s : RootSession σ) (now : UInt64) : Result Unit × List AuditEvent × RootSession σ :=
  if s.state ≠ .active then
    (.error (smoErrGenesis 1406 .error .noRetry .manualIntervention "session not active"),[],s)
  else
    let (events,s) := s.audit now .signJoinToken (text "Session consumed") true []
    (.ok (),events,{ s with signer := none, state := .consumed, consumedAt := now })

def perform (ctx : SignerContext σ ρ) (signer : σ) (req : RootRequest) (rng : ρ) :
    Result Bytes × σ :=
  match req.operation with
  | .signJoinToken | .signBootstrapCSR | .signRecovery => ctx.sign signer req.payload rng
  | .issueRecovery | .rotateRoot | .emergencyLockdown | .resetEpoch | .constitutionChange =>
    (.error (smoErrGenesis 1400 .error .noRetry .manualIntervention
      "RootOperation not yet implemented"),signer)
  | .unnamed _ =>
    (.error (smoErrGenesis 1400 .error .noRetry .manualIntervention "Unknown RootOperation"),signer)

def execute (ctx : SignerContext σ ρ) (s : RootSession σ) (req : RootRequest) (rng : ρ)
    (now : UInt64) : Result RootResult × List AuditEvent × RootSession σ :=
  if s.state ≠ .active then
    (.error (smoErrGenesis 1406 .error .noRetry .manualIntervention "RootSession not active"),[],s)
  else if s.isValid now = false then
    (.error (smoErrGenesis 1405 .warn .noRetry .manualIntervention "RootSession expired"),[],
      { s with state := .expired, signer := none })
  else match s.signer.filter ctx.valid with
    | none => (.error (smoErrGenesis 1406 .error .noRetry .manualIntervention
        "RootSession signer context invalid"),[],s)
    | some signer =>
      if s.policy.check req.operation = false then
        (.error (smoErrGenesis 1406 .error .noRetry .manualIntervention
            "Operation not permitted by session policy"),
          s.audit now req.operation req.auditReason false (text "policy denied"))
      else match perform ctx signer req rng with
        | (.error e,signer) => (.error e,{ s with signer := some signer }.audit now req.operation
            req.auditReason false (text e.message))
        | (.ok output,signer) => (.ok ⟨true,output⟩,{ s with signer := some signer }.audit now
            req.operation req.auditReason true req.auditDetails)

/-! Runs. -/

inductive Op (σ ρ : Type)
  | activate (a : Activation σ)
  | execute (req : RootRequest) (rng : ρ) (now : UInt64)
  | consume (now : UInt64)
  | destroy (clock : UInt64)

def Op.IsActivate : Op σ ρ → Prop
  | .activate _ => True
  | _ => False

inductive Reply
  | void
  | executed (r : Result RootResult)
  | consumed (r : Result Unit)

def call (ctx : SignerContext σ ρ) (s : RootSession σ) : Op σ ρ →
    Reply × List AuditEvent × RootSession σ
  | .activate a => (.void,s.activate a)
  | .execute req rng now => ((.executed (execute ctx s req rng now).1),(execute ctx s req rng now).2)
  | .consume now => (.consumed (s.consume now).1,(s.consume now).2)
  | .destroy clock => (.void,s.destroy clock)

structure Record (σ ρ : Type) where
  before : RootSession σ
  op : Op σ ρ
  reply : Reply
  events : List AuditEvent

def trace (ctx : SignerContext σ ρ) : RootSession σ → List (Op σ ρ) → List (Record σ ρ)
  | _, [] => []
  | s, op::ops =>
    let (reply,events,s') := call ctx s op
    ⟨s,op,reply,events⟩::trace ctx s' ops

def after (ctx : SignerContext σ ρ) (s : RootSession σ) (ops : List (Op σ ρ)) : RootSession σ :=
  ops.foldl (fun s op => (call ctx s op).2.2) s

/-! What a call does. -/

section
variable {ctx : SignerContext σ ρ} {s : RootSession σ}

variable {now : UInt64}

lemma isValid_iff :
    s.isValid now = true ↔ s.state = .active ∧ (s.expiresAt = 0 ∨ now ≤ s.expiresAt) := by
  simp [isValid]

structure Permits (ctx : SignerContext σ ρ) (s : RootSession σ) (operation : RootOperation)
    (now : UInt64) : Prop where
  active : s.state = .active
  unexpired : s.expiresAt = 0 ∨ now ≤ s.expiresAt
  signer : ∃ signer, s.signer = some signer ∧ ctx.valid signer = true
  policy : s.policy.check operation = true

lemma execute_cases (ctx : SignerContext σ ρ) (s : RootSession σ) (req : RootRequest) (rng : ρ)
    (now : UInt64) : (∃ e s', execute ctx s req rng now = (.error e,[],s') ∧
      (s' = s ∨ s' = { s with state := .expired, signer := none })) ∨
    (∃ e signer details, execute ctx s req rng now = (.error e,
      { s with signer }.audit now req.operation req.auditReason false details)) ∨
    Permits ctx s req.operation now ∧ ∃ output signer, execute ctx s req rng now =
      (.ok ⟨true,output⟩,
        { s with signer }.audit now req.operation req.auditReason true req.auditDetails) := by
  unfold execute
  by_cases hstate : s.state ≠ .active
  · rw [if_pos hstate]
    exact Or.inl ⟨_,s,rfl,Or.inl rfl⟩
  rw [if_neg hstate]
  by_cases hvalid : s.isValid now = false
  · rw [if_pos hvalid]
    exact Or.inl ⟨_,_,rfl,Or.inr rfl⟩
  rw [if_neg hvalid]
  obtain ⟨hactive,hunexpired⟩ := isValid_iff.mp (eq_true_of_ne_false hvalid)
  cases hsigner : s.signer.filter ctx.valid with
  | none => exact Or.inl ⟨_,s,rfl,Or.inl rfl⟩
  | some signer =>
    dsimp only
    by_cases hpolicy : s.policy.check req.operation = false
    · rw [if_pos hpolicy]
      exact Or.inr (Or.inl ⟨_,s.signer,_,rfl⟩)
    rw [if_neg hpolicy]
    rcases perform ctx signer req rng with ⟨e | output,signer'⟩
    · exact Or.inr (Or.inl ⟨e,some signer',_,rfl⟩)
    · obtain ⟨hsome,hok⟩ := Option.filter_eq_some_iff.mp hsigner
      exact Or.inr (Or.inr ⟨⟨hactive,hunexpired,⟨signer,hsome,hok⟩,eq_true_of_ne_false hpolicy⟩,
        output,some signer',rfl⟩)

lemma execute_ok (h : (execute ctx s req rng now).1 = .ok res) : Permits ctx s req.operation now ∧
      (execute ctx s req rng now).2.1 = if s.auditSink then
        [⟨s.auditCounter,now,req.operation,req.auditReason,true,req.auditDetails⟩] else [] := by
  rcases execute_cases ctx s req rng now with ⟨e,s',hex,-⟩ | ⟨e,signer,details,hex⟩ |
    ⟨hpermits,output,signer,hex⟩
  · rw [hex] at h
    cases h
  · rw [hex] at h
    cases h
  · rw [hex]
    exact ⟨hpermits,rfl⟩

variable {op : Op σ ρ}

lemma call_inactive (hop : ¬op.IsActivate) (h : s.state ≠ .active) :
    (call ctx s op).2.2.state ≠ .active := by
  cases op with
  | activate a => exact absurd trivial hop
  | execute req rng now => simp [call,execute,h]
  | consume now => simp [call,consume,h]
  | destroy clock => simp [call,destroy]

variable {ops : List (Op σ ρ)}

lemma after_inactive (hops : ∀ op ∈ ops, ¬op.IsActivate) (h : s.state ≠ .active) :
    (after ctx s ops).state ≠ .active := by
  induction ops generalizing s with
  | nil => exact h
  | cons op ops ih =>
    obtain ⟨hop,hops⟩ := forall_mem_cons.mp hops
    exact ih hops (call_inactive hop h)

def Ends (s : RootSession σ) : Op σ ρ → Prop
  | .activate _ => False
  | .execute _ _ now => s.isValid now = false
  | .consume _ => True
  | .destroy _ => True

lemma Ends.inactive (h : s.Ends op) : (call ctx s op).2.2.state ≠ .active := by
  cases op with
  | activate a => exact absurd h id
  | execute req rng now =>
    change s.isValid now = false at h
    by_cases hstate : s.state = .active
    · simp [call,execute,hstate,h]
    · simp [call,execute,hstate]
  | consume now =>
    by_cases hstate : s.state = .active
    · simp [call,consume,hstate]
    · simp [call,consume,hstate]
  | destroy clock => simp [call,destroy]

/-! Audit ids. -/

/-- A call within an activation gives out no audit id, or the next one. -/
def Counts (s : RootSession σ) (events : List AuditEvent) (s' : RootSession σ) : Prop :=
  s'.auditSink = s.auditSink ∧ (events = [] ∧ s'.auditCounter = s.auditCounter ∨
    s'.auditCounter = s.auditCounter+1 ∧
      ∃ ev : AuditEvent, ev.auditId = s.auditCounter ∧ events = if s.auditSink then [ev] else [])

lemma counts_refl (s : RootSession σ) : Counts s [] s := ⟨rfl,Or.inl ⟨rfl,rfl⟩⟩

lemma counts_audit (s : RootSession σ) (now : UInt64) (operation : RootOperation) (reason : Bytes)
    (success : Bool) (details : Bytes) : Counts s (s.audit now operation reason success details).1
      (s.audit now operation reason success details).2 :=
  ⟨rfl,Or.inr ⟨rfl,_,rfl,rfl⟩⟩

lemma counts_execute (req : RootRequest) (rng : ρ) (now : UInt64) :
    Counts s (execute ctx s req rng now).2.1 (execute ctx s req rng now).2.2 := by
  rcases execute_cases ctx s req rng now with ⟨e,s',hex,hs' | hs'⟩ | ⟨e,signer,details,hex⟩ |
    ⟨-,output,signer,hex⟩
  · rw [hex,hs']
    exact counts_refl s
  · rw [hex,hs']
    exact counts_refl s
  · rw [hex]
    exact counts_audit { s with signer } _ _ _ _ _
  · rw [hex]
    exact counts_audit { s with signer } _ _ _ _ _

lemma counts_call (hop : ¬op.IsActivate) : Counts s (call ctx s op).2.1 (call ctx s op).2.2 := by
  cases op with
  | activate a => exact absurd trivial hop
  | execute req rng now => exact counts_execute req rng now
  | consume now =>
    unfold call consume
    split_ifs with hstate
    · exact counts_refl s
    · exact counts_audit s _ _ _ _ _
  | destroy clock =>
    unfold call destroy
    dsimp only
    split_ifs with hstate
    · exact counts_audit { s with signer := none } _ _ _ _ _
    · exact counts_refl s

def emitted (ctx : SignerContext σ ρ) (s : RootSession σ) (ops : List (Op σ ρ)) : List AuditEvent :=
  (trace ctx s ops).flatMap Record.events

lemma emitted_cons (op : Op σ ρ) (ops : List (Op σ ρ)) :
    emitted ctx s (op::ops) = (call ctx s op).2.1 ++ emitted ctx (call ctx s op).2.2 ops := rfl

variable {r : Record σ ρ}

lemma mem_trace (h : r ∈ trace ctx s ops) :
    r.reply = (call ctx r.before r.op).1 ∧ r.events = (call ctx r.before r.op).2.1 := by
  induction ops generalizing s with
  | nil => cases h
  | cons op ops ih =>
    rcases mem_cons.mp h with rfl | h
    · exact ⟨rfl,rfl⟩
    · exact ih h

lemma sink_trace (hops : ∀ op ∈ ops, ¬op.IsActivate) (h : r ∈ trace ctx s ops) :
    r.before.auditSink = s.auditSink := by
  induction ops generalizing s with
  | nil => cases h
  | cons op ops ih =>
    obtain ⟨hop,hops⟩ := forall_mem_cons.mp hops
    rcases mem_cons.mp h with rfl | h
    · rfl
    · exact (ih hops h).trans (counts_call hop).1

def counted (counter : UInt64) (n : ℕ) : List UInt64 :=
  (List.range n).map fun i => counter+UInt64.ofNat i

lemma counted_succ (counter : UInt64) (n : ℕ) :
    counted counter (n+1) = counter::counted (counter+1) n := by
  unfold counted
  rw [range_succ_eq_map,map_cons,map_map]
  congr 1
  · simp
  · apply map_congr_left
    intro i _
    simp only [Function.comp_apply,Nat.succ_eq_add_one,UInt64.ofNat_add,UInt64.ofNat_one]
    rw [UInt64.add_comm (UInt64.ofNat i),UInt64.add_assoc]

lemma emitted_silent (hops : ∀ op ∈ ops, ¬op.IsActivate) (hsink : s.auditSink = false) :
    emitted ctx s ops = [] := by
  induction ops generalizing s with
  | nil => rfl
  | cons op ops ih =>
    obtain ⟨hop,hops⟩ := forall_mem_cons.mp hops
    obtain ⟨hsink',hcounts⟩ : Counts s (call ctx s op).2.1 (call ctx s op).2.2 := counts_call hop
    rw [emitted_cons,ih hops (hsink'.trans hsink),append_nil]
    rcases hcounts with ⟨hevents,-⟩ | ⟨-,ev,-,hevents⟩
    · exact hevents
    · rw [hevents,hsink]
      rfl

lemma ids_emitted (hops : ∀ op ∈ ops, ¬op.IsActivate) (hsink : s.auditSink = true) :
    (emitted ctx s ops).map AuditEvent.auditId =
      counted s.auditCounter (emitted ctx s ops).length := by
  induction ops generalizing s with
  | nil => rfl
  | cons op ops ih =>
    obtain ⟨hop,hops⟩ := forall_mem_cons.mp hops
    obtain ⟨hsink',hcounts⟩ : Counts s (call ctx s op).2.1 (call ctx s op).2.2 := counts_call hop
    have hrest := ih hops (hsink'.trans hsink)
    rw [emitted_cons]
    rcases hcounts with ⟨hevents,hcounter⟩ | ⟨hcounter,ev,hid,hevents⟩
    · rw [hevents,nil_append,hrest,hcounter]
    · rw [hevents,if_pos hsink,singleton_append,map_cons,length_cons,counted_succ,hid,
        hrest,hcounter]

lemma ids_activation (a : Activation σ) (hops : ∀ op ∈ ops, ¬op.IsActivate) :
    (emitted ctx s (.activate a::ops)).map AuditEvent.auditId =
      counted 1 (emitted ctx s (.activate a::ops)).length := by
  cases hsink : a.sink with
  | false =>
    have hnone : (s.activate a).1 = [] := by simp [activate,audit,hsink]
    change ((s.activate a).1 ++ emitted ctx (s.activate a).2 ops).map AuditEvent.auditId =
      counted 1 ((s.activate a).1 ++ emitted ctx (s.activate a).2 ops).length
    rw [hnone,emitted_silent (s := (s.activate a).2) hops hsink]
    rfl
  | true =>
    obtain ⟨ev,hid,hev⟩ : ∃ ev : AuditEvent, ev.auditId = 1 ∧ (s.activate a).1 = [ev] := by
      simp [activate,audit,hsink]
    have hrest : (emitted ctx (s.activate a).2 ops).map AuditEvent.auditId = _ := ids_emitted hops hsink
    change ((s.activate a).1 ++ emitted ctx (s.activate a).2 ops).map AuditEvent.auditId =
      counted 1 ((s.activate a).1 ++ emitted ctx (s.activate a).2 ops).length
    rw [hev,singleton_append,map_cons,length_cons,counted_succ,hid,hrest]
    rfl

lemma counted_increasing (h : n < 2^64) : (counted 1 n).Pairwise (· < ·) := by
  unfold counted
  rw [pairwise_map]
  refine (pairwise_lt_range).imp_of_mem fun {i j} hi hj hij => ?_
  have hj := mem_range.mp hj
  rw [UInt64.lt_iff_toNat_lt,UInt64.toNat_add,UInt64.toNat_add,UInt64.toNat_ofNat',
    UInt64.toNat_ofNat']
  simp only [UInt64.toNat_one]
  omega

def Record.Executes (r : Record σ ρ) (req : RootRequest) (now : UInt64) : Prop :=
  ∃ rng res, r.op = .execute req rng now ∧ r.reply = .executed (.ok res)

lemma Record.Executes.outcome (h : r.Executes req now)
    (hr : r ∈ trace ctx s ops) :
    Permits ctx r.before req.operation now ∧ r.events = if r.before.auditSink then
      [⟨r.before.auditCounter,now,req.operation,req.auditReason,true,req.auditDetails⟩] else [] := by
  obtain ⟨rng,res,hop,hok⟩ := h
  obtain ⟨hreply,hevents⟩ := mem_trace hr
  rw [hop] at hreply hevents
  rw [hok] at hreply
  rw [hevents]
  exact execute_ok (Reply.executed.inj hreply).symm

end

/-- Over every run: what a success of `execute` takes, that nothing succeeds between the end of an
activation and the next one, and that the successes of an activation are on record, under increasing
audit ids. -/
theorem session_runs (ctx : SignerContext σ ρ) (s : RootSession σ) :
    (∀ ops, ∀ r ∈ trace ctx s ops, ∀ req now, r.Executes req now →
      r.before.state = .active ∧ (r.before.expiresAt = 0 ∨ now ≤ r.before.expiresAt) ∧
      (∃ signer, r.before.signer = some signer ∧ ctx.valid signer = true) ∧
      r.before.policy.check req.operation = true) ∧
    (∀ op ops, s.Ends op → (∀ o ∈ ops, ¬o.IsActivate) →
      ∀ req rng now res, (execute ctx (after ctx s (op::ops)) req rng now).1 ≠ .ok res) ∧
    ∀ (a : Activation σ) (ops : List (Op σ ρ)), (∀ o ∈ ops, ¬o.IsActivate) →
      (a.sink = true → ∀ r ∈ trace ctx s (.activate a::ops), ∀ req now, r.Executes req now →
        ∃ ev, r.events = [ev] ∧ ev.success = true ∧ ev.operation = req.operation) ∧
      ((emitted ctx s (.activate a::ops)).length < 2^64 →
        ((emitted ctx s (.activate a::ops)).map AuditEvent.auditId).Pairwise (· < ·)) := by
  refine ⟨?_,?_,?_⟩
  · intro ops r hr req now hex
    obtain ⟨hpermits,-⟩ := hex.outcome hr
    exact ⟨hpermits.active,hpermits.unexpired,hpermits.signer,hpermits.policy⟩
  · intro op ops hends hops req rng now res hok
    exact after_inactive hops hends.inactive (execute_ok hok).1.active
  · intro a ops hops
    constructor
    · intro hsink r hr req now hex
      obtain ⟨-,hevents⟩ := hex.outcome hr
      rcases mem_cons.mp hr with rfl | hr
      · obtain ⟨rng,res,hop,-⟩ := hex
        cases hop
      · have hbefore : r.before.auditSink = true := (sink_trace hops hr).trans hsink
        rw [if_pos hbefore] at hevents
        exact ⟨_,hevents,rfl,rfl⟩
    · intro hlen
      rw [ids_activation a hops]
      exact counted_increasing hlen

def plainSigner : SignerContext Unit Unit := ⟨fun _ => true,fun _ _ _ => (.ok [],())⟩

def opened (pol : SessionPolicy) (sink : Bool) : Activation Unit :=
  { ctx := some (), pol, sink, nowNs := 0, ttlNs := 10 }

def tokenRequest : RootRequest := { operation := .signJoinToken }

lemma no_activate (now : UInt64) (n : ℕ) :
    ∀ op ∈ List.replicate n (Op.execute (σ := Unit) tokenRequest () now), ¬op.IsActivate := by
  intro op hop
  rw [eq_of_mem_replicate hop]
  exact id

/-- One signature, and after the expiry time no other one. -/
theorem session_runs_opened :
    (∃ r ∈ trace plainSigner {} [.activate (opened ⟨[.signJoinToken]⟩ true),
        .execute tokenRequest () 5],
      ∃ ev, r.events = [ev] ∧ ev.success = true ∧ ev.operation = .signJoinToken) ∧
    ((emitted plainSigner {} [.activate (opened ⟨[.signJoinToken]⟩ true),
      .execute tokenRequest () 5]).map AuditEvent.auditId).Pairwise (· < ·) ∧
    (execute plainSigner (after plainSigner (({} : RootSession Unit).activate
      (opened ⟨[.signJoinToken]⟩ true)).2 [.execute tokenRequest () 11]) tokenRequest () 5).1 ≠
        .ok ⟨true,[]⟩ := by
  obtain ⟨hsigns,hids⟩ := (session_runs plainSigner ({} : RootSession Unit)).2.2
    (opened ⟨[.signJoinToken]⟩ true) _ (no_activate 5 1)
  have hmem : (⟨(({} : RootSession Unit).activate (opened ⟨[.signJoinToken]⟩ true)).2,
      .execute tokenRequest () 5,_,_⟩ : Record Unit Unit) ∈ trace plainSigner {}
        (.activate (opened ⟨[.signJoinToken]⟩ true)::replicate 1 (.execute tokenRequest () 5)) :=
    mem_cons_of_mem _ (mem_singleton.mpr rfl)
  refine ⟨⟨_,hmem,hsigns rfl _ hmem tokenRequest 5 ⟨(),_,rfl,rfl⟩⟩,hids (by decide),?_⟩
  exact (session_runs plainSigner (({} : RootSession Unit).activate
    (opened ⟨[.signJoinToken]⟩ true)).2).2.1 (.execute tokenRequest () 11) [] rfl (by simp) _ _ _ _

lemma length_emitted_denied (hactive : s.state = .active)
    (hexpires : s.expiresAt = 10) (hsigner : s.signer = some ()) (hpolicy : s.policy.caps = [])
    (hsink : s.auditSink = true) (n : ℕ) :
    (emitted plainSigner s (List.replicate n (.execute tokenRequest () 5))).length = n := by
  induction n generalizing s with
  | zero => rfl
  | succ n ih =>
    have hcall : (call plainSigner s (.execute tokenRequest () 5)).2 = s.audit 5 .signJoinToken
        (text "execute") false (text "policy denied") := by
      simp [call,execute,isValid,hactive,hexpires,hsigner,SessionPolicy.check,hpolicy,plainSigner,
        tokenRequest,RootOperation.capability,RootRequest.auditReason,Option.filter]
    have hrest := ih (s := { s with auditCounter := s.auditCounter+1 }) hactive hexpires hsigner hpolicy
      hsink
    have hevent : (s.audit 5 .signJoinToken (text "execute") false (text "policy denied")).1.length = 1 := by
      simp [audit,hsink]
    rw [replicate_succ,emitted_cons,hcall,length_append,hevent]
    exact (congrArg (1+·) hrest).trans (Nat.add_comm 1 n)

/-- An activation without a sink leaves no record of a signature, and the id after `2^64-1` events is
zero. -/
theorem audit_gaps : (∃ r ∈ trace plainSigner {} [.activate (opened ⟨[.signJoinToken]⟩ false),
        .execute tokenRequest () 5],
      r.Executes tokenRequest 5 ∧ r.events = []) ∧
    ¬((emitted plainSigner {} (.activate (opened {} true)::
      List.replicate (2^64-1) (.execute tokenRequest () 5))).map AuditEvent.auditId).Pairwise
        (· < ·) := by
  constructor
  · exact ⟨_,mem_cons_of_mem _ (mem_singleton.mpr rfl),⟨(),_,rfl,rfl⟩,rfl⟩
  · have hlen : (emitted plainSigner {} (.activate (opened {} true)::
        replicate (2^64-1) (.execute tokenRequest () 5))).length = (2^64-1)+1 := by
      rw [emitted_cons,length_append,length_emitted_denied rfl rfl rfl rfl rfl]
      exact Nat.add_comm _ _
    rw [ids_activation _ (no_activate 5 _),hlen,counted_succ]
    intro hpairwise
    have hzero : (0 : UInt64) ∈ counted (1+1) (2^64-1) :=
      mem_map.mpr ⟨2^64-2,mem_range.mpr (by norm_num),by decide⟩
    exact absurd ((pairwise_cons.mp hpairwise).1 0 hzero) (by decide)

end RootSession
end SmoFramework.Genesis
