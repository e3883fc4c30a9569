import SmoFramework.Fsm.Instance

/-! The recorded history of a machine: it is a trail of rules from the initial state to the current one,
and it comes back from its stored form. -/
namespace SmoFramework.Fsm
open Library Library.BigEndian Reader.Reads TransitionRecord List

/-! The stored form. -/

def TransitionRecord.write (r : TransitionRecord) : Bytes :=
  write64 r.fromState.toUInt64 ++ (write64 r.event.toUInt64 ++ (write64 r.toState.toUInt64 ++
    (write64 r.elapsedNs ++ (write64 r.timestampNs.toUInt64 ++
    (write32 (UInt32.ofNat r.stateHash.length) ++ r.stateHash)))))

namespace FsmInstance

def serialize (f : FsmInstance) : Bytes :=
  write64 f.currentState.toUInt64 ++
    (write32 (UInt32.ofNat f.history.length) ++ f.history.flatMap TransitionRecord.write)

def truncated (message : String) : Error := smoErr .runtime 702 .critical .noRetry .rebootNode message

def readRecord : Reader UInt8 Error TransitionRecord := do
  Reader.need 40 (truncated "truncated transition record")
  let fromState ← Reader.word64
  let event ← Reader.word64
  let toState ← Reader.word64
  let elapsedNs ← Reader.word64
  let timestampNs ← Reader.word64
  let stateHash ← Reader.sized Reader.word32 (truncated "truncated state hash")
  pure { fromState := fromState.toInt64, event := event.toInt64, toState := toState.toInt64,
         elapsedNs, stateHash, timestampNs := timestampNs.toInt64 }

def read (rules : List TransitionRule) (timeouts : List StateTimeout) : Reader UInt8 Error FsmInstance := do
  Reader.need 12 (truncated "truncated FSM serialized state")
  let currentState ← Reader.word64
  let count ← Reader.word32
  let history ← Reader.times readRecord count.toNat
  let fsm := (({} : FsmInstance).setTransitions rules).setTimeouts timeouts
  pure { fsm with currentState := currentState.toInt64, history }

def deserialize (data : Bytes) (rules : List TransitionRule) (timeouts : List StateTimeout) :
    Result FsmInstance := ((read rules timeouts).run data).map Prod.fst

lemma length_write_le (r : TransitionRecord) : 40 ≤ r.write.length := by
  simp only [write,length_append,length_write64]
  omega

lemma reads_record (h : r.stateHash.length < 2^32) :
    Reader.Reads readRecord r.write r := by
  refine need _ (length_write_le r) ?_
  refine (word64 _).bind ((word64 _).bind ((word64 _).bind
    ((word64 _).bind ((word64 _).bind ?_))))
  have hread := (sized (truncated "truncated state hash") h).bind_pure
    (g := fun stateHash => ({
      fromState := r.fromState.toUInt64.toInt64, event := r.event.toUInt64.toInt64,
      toState := r.toState.toUInt64.toInt64, elapsedNs := r.elapsedNs, stateHash,
      timestampNs := r.timestampNs.toUInt64.toInt64 } : TransitionRecord))
  simpa using hread

lemma deserialize_serialize {timeouts : List StateTimeout} (hconf : Configured rules timeouts f)
    (hhash : ∀ r ∈ f.history, r.stateHash.length < 2^32) (hfew : f.history.length < 2^32) :
    deserialize f.serialize rules timeouts = .ok f := by
  have hcount : (UInt32.ofNat f.history.length).toNat = f.history.length :=
    UInt32.toNat_ofNat_of_lt' hfew
  have hrecords : Reader.Reads (Reader.times readRecord f.history.length)
      (f.history.flatMap write) (f.history.map id) :=
    times fun r hr => reads_record (hhash r hr)
  rw [map_id,← hcount] at hrecords
  obtain ⟨currentState,transitions,table,history⟩ := f
  obtain ⟨rfl,rfl⟩ := hconf
  refine whole (need _ ?_ ((word64 _).bind
    ((word32 _).bind ?_)))
  · simp only [serialize,length_append,length_write64,length_write32]
    omega
  · exact hrecords.bind_pure (g := FsmInstance.mk currentState _ _)

/-! Runs. -/

/-- The history leads from the initial state to the current one along rules of the table. -/
structure Recorded (rules : List TransitionRule) (initial : FsmState) (f : FsmInstance) : Prop where
  trail : Trail.Leads TransitionRecord.fromState TransitionRecord.toState initial f.history f.currentState
  inTable : ∀ r ∈ f.history, ruleFor rules r.fromState r.event = some r.toState
  hash : ∀ r ∈ f.history, r.stateHash.length = 8

variable {f g : FsmInstance} {rules : List TransitionRule} {timeouts : List StateTimeout}
  {initial : FsmState}

lemma Recorded.moved {event : FsmEvent} {next : FsmState} (h : Recorded rules initial f)
    (hnext : ruleFor rules f.currentState event = some next) (hmoved : Moved f event next g) :
    Recorded rules initial g := by
  obtain ⟨record,hfrom,rfl,rfl,hhash,rfl⟩ := hmoved
  rw [← hfrom] at hnext
  refine ⟨Trail.Leads.concat (hfrom ▸ h.trail),?_,?_⟩
  · intro r hr
    rcases mem_append.mp hr with hr | hr
    · exact h.inTable r hr
    · rwa [mem_singleton.mp hr]
  · intro r hr
    rcases mem_append.mp hr with hr | hr
    · exact h.hash r hr
    · rwa [mem_singleton.mp hr]

lemma step_recorded (hconf : Configured rules timeouts f) (h : Recorded rules initial f)
    (call : FsmCall) :
    Configured rules timeouts (f.step call).2 ∧ Recorded rules initial (f.step call).2 := by
  rcases f.step_cases call with ⟨event,next,hnext,-,hmoved⟩ | ⟨e,hfail⟩
  · rw [hconf.nextState] at hnext
    refine ⟨?_,h.moved hnext hmoved⟩
    obtain ⟨record,-,-,-,-,heq⟩ := hmoved
    rw [heq]
    exact ⟨hconf.transitions,hconf.timeouts⟩
  · rw [hfail]
    exact ⟨hconf,h⟩

lemma run_recorded_of (calls : List FsmCall) (hconf : Configured rules timeouts f)
    (h : Recorded rules initial f) :
    Configured rules timeouts (f.run calls) ∧ Recorded rules initial (f.run calls) := by
  induction calls generalizing f with
  | nil => exact ⟨hconf,h⟩
  | cons call calls ih =>
    obtain ⟨hconf,h⟩ := step_recorded hconf h call
    exact ih hconf h

lemma run_recorded (f : FsmInstance) (rules : List TransitionRule) (timeouts : List StateTimeout)
    (initial : FsmState) (calls : List FsmCall) :
    Configured rules timeouts ((f.start rules timeouts initial).run calls) ∧
      Recorded rules initial ((f.start rules timeouts initial).run calls) := by
  refine run_recorded_of calls (start_configured f rules timeouts initial) ⟨rfl,?_,?_⟩
  · exact fun r hr => absurd hr not_mem_nil
  · exact fun r hr => absurd hr not_mem_nil

lemma step_error (h : (f.step call).1 = .error e) :
    (f.step call).2 = f := by
  rcases f.step_cases call with ⟨event,next,-,hok,-⟩ | ⟨e',hfail⟩
  · rw [hok] at h
    cases h
  · rw [hfail]

/-- Over every run from a reset: the history is a trail of rules from the initial state to the current
one, a failing call changes nothing, and the machine comes back from its stored form. -/
theorem run_history (f : FsmInstance) (rules : List TransitionRule) (timeouts : List StateTimeout)
    (initial : FsmState) (calls : List FsmCall) :
    let g := (f.start rules timeouts initial).run calls
    Trail.Leads fromState toState initial g.history g.currentState ∧
      (∀ r ∈ g.history, ⟨r.fromState,r.event,r.toState⟩ ∈ rules) ∧
      (∀ call e, (g.step call).1 = .error e → (g.step call).2 = g) ∧
      (g.history.length < 2^32 → deserialize g.serialize rules timeouts = .ok g) := by
  obtain ⟨hconf,h⟩ := run_recorded f rules timeouts initial calls
  refine ⟨h.trail,fun r hr => mem_of_ruleFor (h.inTable r hr),fun _ _ => step_error,fun hfew => ?_⟩
  refine deserialize_serialize hconf (fun r hr => ?_) hfew
  rw [h.hash r hr]
  decide

theorem run_history_two_rules : let rules : List TransitionRule := [⟨0,1,5⟩,⟨5,-1,0⟩]
    let g := (({} : FsmInstance).start rules [⟨5,1,0⟩] 0).run [.onEvent 1 7,.onEvent 1 8,.onTimeout 9]
    g.history.length = 2 ∧ deserialize g.serialize rules [⟨5,1,0⟩] = .ok g :=
  ⟨rfl,(run_history {} [⟨0,1,5⟩,⟨5,-1,0⟩] [⟨5,1,0⟩] 0 [.onEvent 1 7,.onEvent 1 8,.onTimeout 9]).2.2.2
    (by decide)⟩

end FsmInstance
end SmoFramework.Fsm
