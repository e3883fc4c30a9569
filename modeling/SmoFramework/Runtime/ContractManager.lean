import SmoFramework.Runtime.Plan

/-! The lifecycle of contracts (`ContractManager`). The registry is fixed, and the hooks of the contracts
answer whatever they like. The times and counters of a lifecycle are left out: no call reads them. -/
namespace SmoFramework.Runtime
open Library

inductive ContractLifecycleState
  | registered | loaded | initialized | ready | idle | unloaded | loadFailed | initFailed | initTimeout
  | crashLoop
  deriving DecidableEq, Repr

structure ContractLifecycle where
  state : ContractLifecycleState := .registered
  errorMessage : String := ""

/-- What can be done to a contract. -/
inductive Deed
  | initialized | initFailed | shutDown | unloaded
  deriving DecidableEq, Repr

/-- The lifecycles, and beside them a log of what was done to which contract, the last first. -/
structure ContractManager where
  lifecycle : AssocMap String ContractLifecycle := .empty
  log : List (String × Deed) := []

def RuntimeError.notFound (message : String) : RuntimeError := ⟨.notFound,1001,message,false,false⟩

namespace ContractManager

variable (m : ContractManager) (id : String)

def getState : ContractLifecycleState :=
  match m.lifecycle.find id with
  | none => .registered
  | some lc => lc.state

/-- `lifecycle_[id]`. -/
def entry : ContractLifecycle := (m.lifecycle.find id).getD {}

def put (lc : ContractLifecycle) : ContractManager :=
  { m with lifecycle := m.lifecycle.insert id lc }

def record (deed : Deed) : ContractManager :=
  { m with log := (id,deed)::m.log }

def latest : Option Deed :=
  (m.log.find? fun done => done.1 = id).map Prod.snd

def isFaulted : Bool :=
  let s := m.getState id
  s = .loadFailed ∨ s = .initFailed ∨ s = .initTimeout ∨ s = .crashLoop

abbrev Call := ContractManager → Result Unit × ContractManager

section
variable (hasContract : String → Bool) (id : String)

def load : Call := fun m =>
  if ¬hasContract id then
    (.error (RuntimeError.notFound ("contract not found in registry: " ++ id)).toError,m)
  else
    let lc := m.entry id
    if lc.state ≠ .registered ∧ lc.state ≠ .idle ∧ lc.state ≠ .loadFailed then (.ok (),m.put id lc)
    else (.ok (),m.put id { lc with state := .loaded, errorMessage := "" })

def initializeContract (hook : Result Unit) : Call := fun m =>
  if ¬hasContract id then (.error (RuntimeError.notFound ("contract not found: " ++ id)).toError,m)
  else
    let lc := m.entry id
    if lc.state ≠ .loaded ∧ lc.state ≠ .initFailed then
      (.error (RuntimeError.validation ("contract not in Loaded state: " ++ id)).toError,m.put id lc)
    else
      -- while the hook runs
      let m := m.put id { lc with state := .initialized }
      match hook with
      | .error e =>
        (.error e,(m.put id { lc with state := .initFailed, errorMessage := e.message }).record id
          .initFailed)
      | .ok () => (.ok (),(m.put id { lc with state := .ready }).record id .initialized)

def shutdown (hook : Result Unit) : Call := fun m =>
  if ¬hasContract id then (.error (RuntimeError.notFound ("contract not found: " ++ id)).toError,m)
  else
    let lc := m.entry id
    if lc.state ≠ .ready ∧ lc.state ≠ .initialized then (.ok (),m.put id lc)
    else (hook,(m.put id { lc with state := .idle }).record id .shutDown)

def unload : Call := fun m =>
  if ¬hasContract id then (.error (RuntimeError.notFound ("contract not found: " ++ id)).toError,m)
  else (.ok (),(m.put id { m.entry id with state := .unloaded }).record id .unloaded)

def recover : Call := fun m =>
  if ¬m.isFaulted id then (.ok (),m)
  else (.ok (),m.put id { m.entry id with state := .registered, errorMessage := "" })

/-- A contract that is only registered is loaded and initialized on the way. -/
def ensureReady (hook : Result Unit) : Call := fun m =>
  if ¬hasContract id then (.error (RuntimeError.notFound ("contract: " ++ id)).toError,m)
  else if m.getState id = .ready then (.ok (),m)
  else
    let prepared : Result Unit × ContractManager :=
      if m.getState id = .registered then
        match load hasContract id m with
        | (.error e,m) => (.error e,m)
        | (.ok (),m) => initializeContract hasContract id hook m
      else (.ok (),m)
    match prepared with
    | (.error e,m) => (.error e,m)
    | (.ok (),m) =>
      if m.isFaulted id then (.error (RuntimeError.internal ("contract faulted: " ++ id)).toError,m)
      else (.ok (),m)

/-- The calls, with what the hook answers if it is called. -/
inductive Op
  | load (id : String)
  | initializeContract (id : String) (hook : Result Unit)
  | shutdown (id : String) (hook : Result Unit)
  | unload (id : String)
  | recover (id : String)
  | ensureReady (id : String) (hook : Result Unit)

def call : Op → Call
  | .load id => load hasContract id
  | .initializeContract id hook => initializeContract hasContract id hook
  | .shutdown id hook => shutdown hasContract id hook
  | .unload id => unload hasContract id
  | .recover id => recover id
  | .ensureReady id hook => ensureReady hasContract id hook

def run (ops : List Op) : ContractManager :=
  ops.foldl (fun m op => (call hasContract op m).2) {}

end

/-! What a call does to the state and to the log. -/

variable {m : ContractManager} {id k : String} {lc : ContractLifecycle} {deed : Deed} {m} {id}

@[simp] lemma state_entry : (m.entry id).state = m.getState id := by
  unfold entry getState
  cases m.lifecycle.find id with
  | none => rfl
  | some lc => rfl

@[simp] lemma getState_put :
    (m.put id lc).getState k = if k = id then lc.state else m.getState k := by
  unfold getState put
  rw [AssocMap.find_insert]
  split_ifs with h
  · rfl
  · rfl

@[simp] lemma getState_record : (m.record id deed).getState k = m.getState k := by
  unfold getState record
  rfl

@[simp] lemma latest_put : (m.put id lc).latest k = m.latest k := by
  unfold latest put
  rfl

@[simp] lemma latest_record :
    (m.record id deed).latest k = if k = id then some deed else m.latest k := by
  unfold latest record
  rw [List.find?_cons]
  by_cases h : k = id
  · simp [h]
  · simp [h,Ne.symm h]

/-- Between two calls no contract is in the middle of its initialization, and those that are ready are
those to which nothing was done since their hook succeeded. -/
structure Consistent (m : ContractManager) : Prop where
  settled : ∀ id, m.getState id ≠ .initialized
  ready_iff : ∀ id, m.getState id = .ready ↔ m.latest id = some .initialized

/-- A call that changes one contract. -/
theorem Consistent.change {m' : ContractManager} (h : Consistent m) (id : String)
    (hother : ∀ k ≠ id, m'.getState k = m.getState k ∧ m'.latest k = m.latest k)
    (hsettled : m'.getState id ≠ .initialized)
    (hready : m'.getState id = .ready ↔ m'.latest id = some .initialized) : Consistent m' := by
  constructor <;> intro k <;> by_cases hk : k = id
  · rwa [hk]
  · rw [(hother k hk).1]
    exact h.settled k
  · rwa [hk]
  · rw [(hother k hk).1,(hother k hk).2]
    exact h.ready_iff k

lemma Consistent.put_entry (h : Consistent m) (id : String) : Consistent (m.put id (m.entry id)) :=
  h.change id (fun k hk => by simp [hk]) (by simpa using h.settled id) (by simpa using h.ready_iff id)

lemma Consistent.put (h : Consistent m) (hnot : m.getState id ≠ .ready)
    (hsettled : lc.state ≠ .initialized) (hready : lc.state ≠ .ready) : Consistent (m.put id lc) := by
  rw [ne_eq,h.ready_iff] at hnot
  exact h.change id (fun k hk => by simp [hk]) (by simpa using hsettled) (by simp [hready,hnot])

variable {hasContract : String → Bool} {hook : Result Unit}

lemma Consistent.load (h : Consistent m) : Consistent (load hasContract id m).2 := by
  unfold ContractManager.load
  dsimp only
  split_ifs with _ hkeep
  · exact h.put_entry id
  · exact h.put (fun hready => hkeep (by simp [hready])) (by simp) (by simp)
  · exact h

lemma Consistent.initializeContract (h : Consistent m) :
    Consistent (initializeContract hasContract id hook m).2 := by
  unfold ContractManager.initializeContract
  dsimp only
  split_ifs
  · exact h.put_entry id
  · cases hook <;> exact h.change id (fun k hk => by simp [hk]) (by simp) (by simp)
  · exact h

lemma ready_of_initializeContract (h : (initializeContract hasContract id hook m).1 = .ok ()) :
    (initializeContract hasContract id hook m).2.getState id = .ready := by
  unfold initializeContract at h ⊢
  dsimp only at h ⊢
  split_ifs at h ⊢
  cases hook with
  | error e => cases h
  | ok u => simp

lemma ensureReady_of_registered (hhas : hasContract id) (hstate : m.getState id = .registered) :
    ensureReady hasContract id hook m =
      initializeContract hasContract id hook (load hasContract id m).2 := by
  have hload : load hasContract id m = (.ok (),(load hasContract id m).2) := by
    simp [load,hhas,hstate]
  rw [ensureReady,if_neg (not_not.mpr hhas),if_neg (by simp [hstate]),hload]
  simp only [hstate,if_true]
  cases hres : initializeContract hasContract id hook (load hasContract id m).2 with
  | mk res m' =>
    cases res with
    | error e => rfl
    | ok u =>
      have hready : m'.getState id = .ready := by
        have h := ready_of_initializeContract (congrArg Prod.fst hres)
        rwa [hres] at h
      simp [isFaulted,hready]

lemma ensureReady_of_not_registered (hhas : hasContract id) (hstate : m.getState id ≠ .registered) :
    ensureReady hasContract id hook m = if m.isFaulted id then
      (.error (RuntimeError.internal ("contract faulted: " ++ id)).toError,m) else (.ok (),m) := by
  rw [ensureReady,if_neg (not_not.mpr hhas)]
  split_ifs with hready hfaulted hfaulted
  · simp [isFaulted,hready] at hfaulted
  · rfl
  · simp [hfaulted]
  · simp [hfaulted]

lemma Consistent.ensureReady (h : Consistent m) :
    Consistent (ensureReady hasContract id hook m).2 := by
  by_cases hhas : hasContract id
  · by_cases hstate : m.getState id = .registered
    · rw [ensureReady_of_registered hhas hstate]
      exact h.load.initializeContract
    · rw [ensureReady_of_not_registered hhas hstate]
      split_ifs
      · exact h
      · exact h
  · rw [ContractManager.ensureReady,if_pos hhas]
    exact h

lemma Consistent.call (h : Consistent m) (op : Op) : Consistent (call hasContract op m).2 := by
  cases op with
  | load id => exact h.load
  | initializeContract id hook => exact h.initializeContract
  | shutdown id hook =>
    change Consistent (shutdown hasContract id hook m).2
    unfold shutdown
    dsimp only
    split_ifs
    · exact h.put_entry id
    · exact h.change id (fun k hk => by simp [hk]) (by simp) (by simp)
    · exact h
  | unload id =>
    change Consistent (unload hasContract id m).2
    unfold unload
    split_ifs
    · exact h.change id (fun k hk => by simp [hk]) (by simp) (by simp)
    · exact h
  | recover id =>
    change Consistent (recover id m).2
    unfold recover
    split_ifs with hfaulted
    · exact h.put (fun hready => by simp [isFaulted,hready] at hfaulted) (by simp) (by simp)
    · exact h
  | ensureReady id hook => exact h.ensureReady

lemma consistent_run (ops : List Op) : Consistent (run hasContract ops) := by
  have hfrom (m : ContractManager) (h : Consistent m) :
      Consistent (ops.foldl (fun m op => (call hasContract op m).2) m) := by
    induction ops generalizing m with
    | nil => exact h
    | cons op ops ih => exact ih _ (h.call op)
  have hstart (id : String) : ({} : ContractManager).getState id = .registered := rfl
  exact hfrom {} ⟨fun id => by simp [hstart],fun id => by simp [hstart,latest]⟩

/-- Whatever was called before, a success of `ensure_ready` means that the contract is ready, and that
nothing was done to it since its hook succeeded, unless it was loaded, idle or unloaded. -/
theorem ensureReady_ready_iff (hasContract : String → Bool) (ops : List Op) (id : String)
    (hook : Result Unit) : ((ensureReady hasContract id hook (run hasContract ops)).1 = .ok () →
      (ensureReady hasContract id hook (run hasContract ops)).2.getState id = .ready ∧
      (ensureReady hasContract id hook (run hasContract ops)).2.latest id = some .initialized) ↔
    ¬(hasContract id ∧ (run hasContract ops).getState id ∈
      [ContractLifecycleState.loaded,.idle,.unloaded]) := by
  have hconsistent : Consistent (run hasContract ops) := consistent_run ops
  rw [← hconsistent.ensureReady.ready_iff,and_self]
  by_cases hhas : hasContract id
  · by_cases hstate : (run hasContract ops).getState id = .registered
    · rw [ensureReady_of_registered hhas hstate]
      simp only [hstate]
      exact iff_of_true ready_of_initializeContract (by simp)
    · rw [ensureReady_of_not_registered hhas hstate]
      have hsettled := hconsistent.settled id
      cases hs : (run hasContract ops).getState id <;> simp_all [isFaulted]
  · rw [ensureReady,if_pos hhas]
    simp [hhas]

/-- A contract that was only loaded, one that was shut down and one that was unloaded. -/
theorem ensureReady_not_ready :
    let ready (ops : List Op) := ensureReady (fun _ => true) "a" (.ok ()) (run (fun _ => true) ops)
    ((ready [.load "a"]).1 = .ok () ∧ (ready [.load "a"]).2.getState "a" = .loaded) ∧
    ((ready [.ensureReady "a" (.ok ()),.shutdown "a" (.ok ())]).1 = .ok () ∧
      (ready [.ensureReady "a" (.ok ()),.shutdown "a" (.ok ())]).2.getState "a" = .idle) ∧
    ((ready [.unload "a"]).1 = .ok () ∧ (ready [.unload "a"]).2.getState "a" = .unloaded) :=
  ⟨⟨rfl,rfl⟩,⟨rfl,rfl⟩,rfl,rfl⟩

end ContractManager
end SmoFramework.Runtime
