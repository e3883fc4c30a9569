import SmoFramework.Fsm.History

/-! When a timeout moves the machine to the fallback state of the timeout table. The timeout is sent
through the transition table as the event -1, for which neither the node lifecycle
(`core/fsm/node_lifecycle_fsm`) nor the join machine (`core/join/join_protocol`) has a rule. -/
namespace SmoFramework.Fsm
open Library

namespace FsmInstance

/-- A timeout that is due succeeds and ends in the configured fallback state. -/
def TimeoutFallsBack (f : FsmInstance) : Prop :=
  ∀ cfg, f.timeouts.find f.currentState = some cfg → cfg.maxDwellNs ≠ 0 → ∀ now,
    (f.onTimeout now).1 = .ok () ∧ (f.onTimeout now).2.currentState = cfg.fallbackState

def Enabled (rules : List TransitionRule) (s t : FsmState) : Prop := ∃ e, ruleFor rules s e = some t

variable {f : FsmInstance} {rules : List TransitionRule} {timeouts : List StateTimeout}
  {initial s : FsmState}

lemma Recorded.reachable (h : Recorded rules initial f) :
    Relation.ReflTransGen (Enabled rules) initial f.currentState :=
  h.trail.reaches fun r hr => ⟨r.event,h.inTable r hr⟩

lemma run_append (f : FsmInstance) (calls : List FsmCall) (call : FsmCall) :
    f.run (calls ++ [call]) = ((f.run calls).step call).2 := by
  rw [run,List.foldl_append]
  rfl

lemma exists_run (f : FsmInstance) (timeouts : List StateTimeout)
    (h : Relation.ReflTransGen (Enabled rules) initial s) :
    ∃ calls, ((f.start rules timeouts initial).run calls).currentState = s := by
  induction h with
  | refl => exact ⟨[],rfl⟩
  | @tail s t _ hst ih =>
    obtain ⟨calls,hs⟩ := ih
    obtain ⟨event,hrule⟩ := hst
    obtain ⟨hconf,-⟩ := run_recorded f rules timeouts initial calls
    refine ⟨calls ++ [.onEvent event 0],?_⟩
    rw [run_append]
    rw [← hs,← hconf.nextState] at hrule
    rcases ((f.start rules timeouts initial).run calls).onEvent_cases event 0 with
      ⟨next,hnext,-,hmoved⟩ | ⟨hnone,-⟩
    · obtain ⟨record,-,-,-,-,heq⟩ := hmoved
      change (onEvent _ event 0).2.currentState = t
      rw [heq]
      exact Option.some.inj (hnext.symm.trans hrule)
    · rw [hnone] at hrule
      cases hrule

lemma timeoutFallsBack_iff (hconf : Configured rules timeouts f) :
    f.TimeoutFallsBack ↔ ∀ cfg, timeoutFor timeouts f.currentState = some cfg → cfg.maxDwellNs ≠ 0 →
      ruleFor rules f.currentState timeoutEvent = some cfg.fallbackState := by
  unfold TimeoutFallsBack
  simp only [hconf.timeout]
  refine forall_congr' fun cfg => forall_congr' fun hcfg => forall_congr' fun hdwell => ?_
  have htimeout : ∀ now, f.onTimeout now = f.onEvent timeoutEvent now := by
    intro now
    unfold onTimeout
    rw [hconf.timeout,hcfg]
    exact if_neg hdwell
  simp only [htimeout]
  constructor
  · intro h
    obtain ⟨hok,hstate⟩ := h 0
    rcases f.onEvent_cases timeoutEvent 0 with ⟨next,hnext,-,record,-,-,-,-,heq⟩ | ⟨-,e,hfail⟩
    · rw [heq] at hstate
      rw [← hconf.nextState,hnext]
      exact congrArg some hstate
    · rw [hfail] at hok
      cases hok
  · intro hrule now
    rw [← hconf.nextState] at hrule
    rcases f.onEvent_cases timeoutEvent now with ⟨next,hnext,hok,record,-,-,-,-,heq⟩ | ⟨hnone,-⟩
    · refine ⟨hok,?_⟩
      rw [heq]
      exact Option.some.inj (hnext.symm.trans hrule)
    · rw [hnone] at hrule
      cases hrule

/-- For every two tables and every initial state, a timeout that is due falls back in every state of
every run, if and only if the transition table has a rule for the timeout event to the fallback state in
every state that it reaches and that has a timeout. -/
theorem timeouts_fall_back_iff (f : FsmInstance) (rules : List TransitionRule)
    (timeouts : List StateTimeout) (initial : FsmState) :
    (∀ calls, ((f.start rules timeouts initial).run calls).TimeoutFallsBack) ↔
      ∀ s cfg, Relation.ReflTransGen (Enabled rules) initial s → timeoutFor timeouts s = some cfg →
        cfg.maxDwellNs ≠ 0 → ruleFor rules s timeoutEvent = some cfg.fallbackState := by
  constructor
  · intro h s cfg hreach
    obtain ⟨calls,rfl⟩ := exists_run f timeouts hreach
    obtain ⟨hconf,-⟩ := run_recorded f rules timeouts initial calls
    exact (timeoutFallsBack_iff hconf).mp (h calls) cfg
  · intro h calls
    obtain ⟨hconf,hrec⟩ := run_recorded f rules timeouts initial calls
    exact (timeoutFallsBack_iff hconf).mpr fun cfg => h _ cfg hrec.reachable

end FsmInstance

/-! The two machines. -/

inductive NodeLifecycleState
  | new | identityReady | csrPending | certified | bootstrapping | joining | synchronizing | active
  | suspended | recovering | revoked | removed
  deriving DecidableEq, Repr

def NodeLifecycleState.value : NodeLifecycleState → FsmState
  | .new => 0
  | .identityReady => 1
  | .csrPending => 2
  | .certified => 3
  | .bootstrapping => 4
  | .joining => 5
  | .synchronizing => 6
  | .active => 7
  | .suspended => 8
  | .recovering => 9
  | .revoked => 10
  | .removed => 11

inductive NodeLifecycleEvent
  | identityCreated | csrExported | certImported | bootstrapStart | bootstrapComplete | joinComplete
  | syncComplete | heartbeatTimeout | reconnect | recoveryProposed | recoveryComplete | certRevoked
  | adminRemove
  deriving DecidableEq, Repr

def NodeLifecycleEvent.value : NodeLifecycleEvent → FsmEvent
  | .identityCreated => 1
  | .csrExported => 2
  | .certImported => 3
  | .bootstrapStart => 4
  | .bootstrapComplete => 5
  | .joinComplete => 6
  | .syncComplete => 7
  | .heartbeatTimeout => 8
  | .reconnect => 9
  | .recoveryProposed => 10
  | .recoveryComplete => 11
  | .certRevoked => 12
  | .adminRemove => 13

def nodeTransitions : List TransitionRule :=
  ([
    (.new,.identityCreated,.identityReady),(.identityReady,.csrExported,.csrPending),
    (.csrPending,.certImported,.certified),(.certified,.bootstrapStart,.bootstrapping),
    (.bootstrapping,.bootstrapComplete,.joining),(.joining,.joinComplete,.synchronizing),
    (.synchronizing,.syncComplete,.active),(.active,.heartbeatTimeout,.suspended),
    (.suspended,.reconnect,.active),(.active,.recoveryProposed,.recovering),
    (.suspended,.recoveryProposed,.recovering),(.recovering,.recoveryComplete,.active),
    (.new,.certRevoked,.revoked),(.identityReady,.certRevoked,.revoked),
    (.csrPending,.certRevoked,.revoked),(.certified,.certRevoked,.revoked),
    (.bootstrapping,.certRevoked,.revoked),(.joining,.certRevoked,.revoked),
    (.synchronizing,.certRevoked,.revoked),(.active,.certRevoked,.revoked),
    (.suspended,.certRevoked,.revoked),(.recovering,.certRevoked,.revoked),
    (.revoked,.adminRemove,.removed)] :
      List (NodeLifecycleState × NodeLifecycleEvent × NodeLifecycleState)).map
    fun (s,e,t) => ⟨s.value,e.value,t.value⟩

def nodeTimeouts : List StateTimeout :=
  let sec : UInt64 := 1000000000
  ([(.bootstrapping,30*sec,.certified),(.joining,30*sec,.certified),(.synchronizing,60*sec,.joining),
    (.recovering,120*sec,.active)] : List (NodeLifecycleState × UInt64 × NodeLifecycleState)).map
      fun (s,dwell,t) => ⟨s.value,dwell,t.value⟩

inductive JoinState
  | new | tokenReceived | csrCreated | joinSent | waitResponse | certReceived | certVerify
  | bootstrapSync | waitSync | gossipSync | waitGossip | ready | degraded | failed
  deriving DecidableEq, Repr

def JoinState.value : JoinState → FsmState
  | .new => 0
  | .tokenReceived => 1
  | .csrCreated => 2
  | .joinSent => 3
  | .waitResponse => 4
  | .certReceived => 5
  | .certVerify => 6
  | .bootstrapSync => 7
  | .waitSync => 8
  | .gossipSync => 9
  | .waitGossip => 10
  | .ready => 11
  | .degraded => 12
  | .failed => -1

inductive JoinEvent
  | tokenParsed | csrBuilt | msgSent | responseRcvd | certVerified | certInvalid | syncRequested
  | syncComplete | gossipStarted | gossipComplete | gossipTimeout | timeout | retry | fail
  deriving DecidableEq, Repr

def JoinEvent.value : JoinEvent → FsmEvent
  | .tokenParsed => 100
  | .csrBuilt => 101
  | .msgSent => 102
  | .responseRcvd => 103
  | .certVerified => 104
  | .certInvalid => 105
  | .syncRequested => 106
  | .syncComplete => 107
  | .gossipStarted => 108
  | .gossipComplete => 109
  | .gossipTimeout => 113
  | .timeout => 110
  | .retry => 111
  | .fail => 112

def joinTransitionTable : List TransitionRule :=
  ([
    (.new,.tokenParsed,.tokenReceived),(.tokenReceived,.csrBuilt,.csrCreated),
    (.csrCreated,.msgSent,.joinSent),(.joinSent,.responseRcvd,.waitResponse),
    (.waitResponse,.responseRcvd,.certReceived),(.certReceived,.certVerified,.certVerify),
    (.certReceived,.certInvalid,.failed),(.certVerify,.syncRequested,.bootstrapSync),
    (.bootstrapSync,.syncComplete,.waitSync),(.waitSync,.gossipStarted,.gossipSync),
    (.gossipSync,.gossipComplete,.waitGossip),(.waitGossip,.gossipComplete,.ready),
    (.waitGossip,.gossipTimeout,.degraded),(.degraded,.gossipComplete,.ready),
    (.degraded,.timeout,.failed),(.degraded,.fail,.failed),(.waitResponse,.timeout,.joinSent),
    (.waitSync,.timeout,.bootstrapSync),(.waitGossip,.timeout,.gossipSync),
    (.waitResponse,.fail,.failed),(.waitSync,.fail,.failed),(.waitGossip,.fail,.failed),
    (.certVerify,.fail,.failed)] :
      List (JoinState × JoinEvent × JoinState)).map fun (s,e,t) => ⟨s.value,e.value,t.value⟩

def joinTimeoutTable : List StateTimeout := [
  ⟨JoinState.waitResponse.value,30000000000,JoinState.failed.value⟩,
  ⟨JoinState.waitSync.value,30000000000,JoinState.failed.value⟩,
  ⟨JoinState.waitGossip.value,60000000000,JoinState.degraded.value⟩,
  ⟨JoinState.degraded.value,120000000000,JoinState.failed.value⟩]

def bootstrappingNode : FsmInstance :=
  (({} : FsmInstance).start nodeTransitions nodeTimeouts NodeLifecycleState.new.value).run
    ([NodeLifecycleEvent.identityCreated,.csrExported,.certImported,.bootstrapStart].map
      fun e => .onEvent e.value 0)

def waitingJoin : FsmInstance :=
  (({} : FsmInstance).start joinTransitionTable joinTimeoutTable JoinState.new.value).run
    ([JoinEvent.tokenParsed,.csrBuilt,.msgSent,.responseRcvd].map fun e => .onEvent e.value 0)

/-- Their timeouts are refused. -/
theorem bootstrapping_and_join_timeouts_fail :
    bootstrappingNode.currentState = NodeLifecycleState.bootstrapping.value ∧
      bootstrappingNode.timeouts.find bootstrappingNode.currentState =
        some ⟨NodeLifecycleState.bootstrapping.value,30000000000,NodeLifecycleState.certified.value⟩ ∧
      (bootstrappingNode.onTimeout 30000000000).1 =
        .error (fsmErr 700 "invalid transition for current state") ∧
      waitingJoin.currentState = JoinState.waitResponse.value ∧
      waitingJoin.timeouts.find waitingJoin.currentState =
        some ⟨JoinState.waitResponse.value,30000000000,JoinState.failed.value⟩ ∧
      (waitingJoin.onTimeout 30000000000).1 =
        .error (fsmErr 700 "invalid transition for current state") := by
  refine ⟨rfl,rfl,rfl,rfl,rfl,rfl⟩

end SmoFramework.Fsm
