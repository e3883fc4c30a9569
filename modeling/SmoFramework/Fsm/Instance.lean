import Mathlib.Data.List.Induction
import SmoFramework.Errors
import SmoFramework.Library.AssocMap
import SmoFramework.Library.LittleEndian
import SmoFramework.Library.Trail

/-! The generic state machine (`core/fsm/fsm`). The readings of the monotonic clock are arguments. -/
namespace SmoFramework.Fsm
open Library Library.LittleEndian List AssocMap

abbrev FsmState := Int64
abbrev FsmEvent := Int64

structure TransitionRule where
  fromState : FsmState
  event : FsmEvent
  toState : FsmState
  deriving DecidableEq, Repr

structure StateTimeout where
  state : FsmState
  /-- Zero means unlimited. -/
  maxDwellNs : UInt64
  fallbackState : FsmState
  deriving DecidableEq, Repr

structure TransitionRecord where
  fromState : FsmState
  event : FsmEvent
  toState : FsmState
  elapsedNs : UInt64
  stateHash : Bytes
  timestampNs : Int64
  deriving DecidableEq, Repr

abbrev Transitions := AssocMap FsmState (AssocMap FsmEvent FsmState)

structure FsmInstance where
  currentState : FsmState := 0
  transitions : Transitions := empty
  timeouts : AssocMap FsmState StateTimeout := empty
  history : List TransitionRecord := []

def fsmErr (code : ℕ) (message : String) : Error :=
  smoErr .runtime code .error .noRetry .restartFSM message

/-- The exclusive or of the four words, byte by byte as they lie in memory. -/
def stateHash (state : FsmState) (event : FsmEvent) (next : FsmState) (now : UInt64) : Bytes :=
  List.zipWith (· ^^^ ·) (List.zipWith (· ^^^ ·) (put64 state.toUInt64) (put64 event.toUInt64))
    (List.zipWith (· ^^^ ·) (put64 next.toUInt64) (put64 now))

def addRule (t : Transitions) (r : TransitionRule) : Transitions :=
  t.insert r.fromState (((t.find r.fromState).getD empty).insert r.event r.toState)

def addTimeout (t : AssocMap FsmState StateTimeout) (e : StateTimeout) : AssocMap FsmState StateTimeout :=
  t.insert e.state e

namespace FsmInstance

variable (f : FsmInstance)

def setTransitions (rules : List TransitionRule) : FsmInstance :=
  { f with transitions := rules.foldl addRule empty }

def setTimeouts (timeouts : List StateTimeout) : FsmInstance :=
  { f with timeouts := timeouts.foldl addTimeout empty }

def reset (initialState : FsmState) : FsmInstance :=
  { f with currentState := initialState, history := [] }

def onEvent (event : FsmEvent) (now : UInt64) : Result Unit × FsmInstance :=
  match f.transitions.find f.currentState with
  | none => (.error (fsmErr 701 "no transitions defined for current state"),f)
  | some events => match events.find event with
    | none => (.error (fsmErr 700 "invalid transition for current state"),f)
    | some next =>
      let elapsed := match f.history.getLast? with
        | none => 0
        | some last => now-last.timestampNs.toUInt64
      (.ok (),{ f with
        currentState := next
        history := f.history ++ [{
          fromState := f.currentState, event, toState := next, elapsedNs := elapsed,
          stateHash := stateHash f.currentState event next now, timestampNs := now.toInt64 }] })

/-- The event of a timeout, `static_cast<FsmEvent>(-1)`. -/
def timeoutEvent : FsmEvent := -1

/-- The timeout goes through the transition table; the fallback state is not looked at. -/
def onTimeout (now : UInt64) : Result Unit × FsmInstance :=
  match f.timeouts.find f.currentState with
  | none => (.error (fsmErr 701 "no timeout config for current state"),f)
  | some cfg =>
    if cfg.maxDwellNs = 0 then (.error (fsmErr 701 "current state has no timeout"),f)
    else f.onEvent timeoutEvent now

end FsmInstance

inductive FsmCall
  | onEvent (event : FsmEvent) (now : UInt64)
  | onTimeout (now : UInt64)

namespace FsmInstance

variable (f : FsmInstance)

def step : FsmCall → Result Unit × FsmInstance
  | .onEvent event now => f.onEvent event now
  | .onTimeout now => f.onTimeout now

def run (calls : List FsmCall) : FsmInstance :=
  calls.foldl (fun f call => (f.step call).2) f

def start (rules : List TransitionRule) (timeouts : List StateTimeout)
    (initial : FsmState) : FsmInstance := ((f.setTransitions rules).setTimeouts timeouts).reset initial

end FsmInstance

/-! What the tables say: the last entry for a key counts. -/

def ruleFor (rules : List TransitionRule) (s : FsmState) (e : FsmEvent) : Option FsmState :=
  (rules.findRev? fun r => r.fromState = s ∧ r.event = e).map (·.toState)

def timeoutFor (timeouts : List StateTimeout) (s : FsmState) : Option StateTimeout :=
  timeouts.findRev? fun e => e.state = s

def nextState (t : Transitions) (s : FsmState) (e : FsmEvent) : Option FsmState :=
  (t.find s).bind fun events => events.find e

lemma nextState_addRule (t : Transitions) (r : TransitionRule) (s : FsmState) (e : FsmEvent) :
    nextState (addRule t r) s e =
      if r.fromState = s ∧ r.event = e then some r.toState else nextState t s e := by
  unfold nextState addRule
  rw [find_insert]
  by_cases hs : s = r.fromState
  · subst hs
    rw [if_pos rfl,Option.bind_some,find_insert]
    by_cases he : e = r.event
    · rw [if_pos he,if_pos ⟨rfl,he.symm⟩]
    · rw [if_neg he,if_neg fun h => he h.2.symm]
      cases t.find r.fromState with
      | none => rfl
      | some events => rfl
  · rw [if_neg hs,if_neg fun h => hs h.1.symm]

lemma nextState_foldl (rules : List TransitionRule) (s : FsmState) (e : FsmEvent) :
    nextState (rules.foldl addRule empty) s e = ruleFor rules s e := by
  induction rules using reverseRecOn with
  | nil => rfl
  | append_singleton rules r ih =>
    rw [foldl_append,foldl_cons,foldl_nil,nextState_addRule,ih]
    by_cases h : r.fromState = s ∧ r.event = e
    · simp [ruleFor,h]
    · simp [ruleFor,h]

lemma find_foldl_addTimeout (timeouts : List StateTimeout) (s : FsmState) :
    (timeouts.foldl addTimeout empty).find s = timeoutFor timeouts s := by
  induction timeouts using reverseRecOn with
  | nil => rfl
  | append_singleton timeouts e ih =>
    rw [foldl_append,foldl_cons,foldl_nil,addTimeout,find_insert,ih]
    by_cases h : e.state = s
    · simp [timeoutFor,h]
    · simp [timeoutFor,h,Ne.symm h]

lemma mem_of_ruleFor (h : ruleFor rules s e = some t) : ⟨s,e,t⟩ ∈ rules := by
  unfold ruleFor at h
  rw [findRev?_eq_find?_reverse] at h
  obtain ⟨r,hr,rfl⟩ := Option.map_eq_some_iff.mp h
  have hkey := find?_some hr
  obtain ⟨rfl,rfl⟩ := of_decide_eq_true hkey
  exact mem_reverse.mp (mem_of_find?_eq_some hr)

namespace FsmInstance
variable {f : FsmInstance} {rules : List TransitionRule} {timeouts : List StateTimeout}

structure Configured (rules : List TransitionRule) (timeouts : List StateTimeout) (f : FsmInstance) :
    Prop where
  transitions : f.transitions = rules.foldl addRule empty
  timeouts : f.timeouts = timeouts.foldl addTimeout empty

lemma start_configured (f : FsmInstance) (rules : List TransitionRule) (timeouts : List StateTimeout)
    (initial : FsmState) : Configured rules timeouts (f.start rules timeouts initial) := ⟨rfl,rfl⟩

lemma Configured.nextState (h : Configured rules timeouts f) (s : FsmState) (e : FsmEvent) :
    Fsm.nextState f.transitions s e = ruleFor rules s e := by
  rw [h.transitions,nextState_foldl]

lemma Configured.timeout (h : Configured rules timeouts f) (s : FsmState) :
    f.timeouts.find s = timeoutFor timeouts s := by
  rw [h.timeouts,find_foldl_addTimeout]

def Moved (f : FsmInstance) (event : FsmEvent) (next : FsmState) (g : FsmInstance) : Prop :=
  ∃ record : TransitionRecord, record.fromState = f.currentState ∧ record.event = event ∧
    record.toState = next ∧ record.stateHash.length = 8 ∧
    g = { f with currentState := next, history := f.history ++ [record] }

lemma length_stateHash (s : FsmState) (e : FsmEvent) (t : FsmState) (now : UInt64) :
    (stateHash s e t now).length = 8 := by
  simp [stateHash]

lemma onEvent_cases (f : FsmInstance) (event : FsmEvent) (now : UInt64) :
    (∃ next, Fsm.nextState f.transitions f.currentState event = some next ∧
      (f.onEvent event now).1 = .ok () ∧ Moved f event next (f.onEvent event now).2) ∨
    Fsm.nextState f.transitions f.currentState event = none ∧
      ∃ e, f.onEvent event now = (.error e,f) := by
  unfold onEvent Fsm.nextState
  cases f.transitions.find f.currentState with
  | none => exact .inr ⟨rfl,_,rfl⟩
  | some events =>
    dsimp only [Option.bind_some]
    cases events.find event with
    | none => exact .inr ⟨rfl,_,rfl⟩
    | some next => exact .inl ⟨next,rfl,rfl,_,rfl,rfl,rfl,length_stateHash _ _ _ _,rfl⟩

theorem step_cases (f : FsmInstance) (call : FsmCall) :
    (∃ event next, Fsm.nextState f.transitions f.currentState event = some next ∧
      (f.step call).1 = .ok () ∧ Moved f event next (f.step call).2) ∨
    ∃ e, f.step call = (.error e,f) := by
  have hevent : ∀ event now, (∃ event' next,
      Fsm.nextState f.transitions f.currentState event' = some next ∧
        (f.onEvent event now).1 = .ok () ∧ Moved f event' next (f.onEvent event now).2) ∨
      ∃ e, f.onEvent event now = (.error e,f) := by
    intro event now
    rcases f.onEvent_cases event now with ⟨next,h⟩ | ⟨-,h⟩
    · exact .inl ⟨event,next,h⟩
    · exact .inr h
  cases call with
  | onEvent event now => exact hevent event now
  | onTimeout now =>
    dsimp only [step]
    unfold onTimeout
    cases f.timeouts.find f.currentState with
    | none => exact .inr ⟨_,rfl⟩
    | some cfg =>
      dsimp only
      by_cases hdwell : cfg.maxDwellNs = 0
      · rw [if_pos hdwell]
        exact .inr ⟨_,rfl⟩
      · rw [if_neg hdwell]
        exact hevent timeoutEvent now

end FsmInstance
end SmoFramework.Fsm
