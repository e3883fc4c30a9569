import SmoFramework.Genesis.RecoveryEngine

/-! Runs of the recovery engine. Sessions are values the caller keeps, so the state of a run is
the list of the sessions started so far, and an operation names the session it is called on. -/
namespace SmoFramework.Genesis.RecoveryEngine
open Governance

/-- What a start is given, with the files and the random words it finds. -/
structure StartArgs where
  files : String → Option Bytes
  meshId : Bytes
  rootNodeId : Bytes
  currentEpoch : UInt64
  passphrase : Bytes
  now : Int64
  draw : UInt64 × UInt64

inductive Op
  | startSoft (args : StartArgs)
  | startHard (args : StartArgs)
  | addSignature (i : ℕ) (sig : GovernanceSignature) (now : Int64)
  | execute (i : ℕ) (now : Int64)
  | cancel (i : ℕ)

structure Engine where
  config : RecoveryConfig
  openEnvelope : Bytes → Bytes → Bytes → Result Bytes

def startWith (e : Engine) (mode : RecoveryMode) (a : StartArgs) (pool : List RecoverySession) :
    Option (List RecoverySession) :=
  (start e.config a.files e.openEnvelope mode a.meshId a.rootNodeId a.currentEpoch a.passphrase
    a.now a.draw).map fun
      | .ok s => pool ++ [s]
      | .error _ => pool

def apply (e : Engine) (pool : List RecoverySession) : Op → Option (List RecoverySession)
  | .startSoft a => startWith e .soft a pool
  | .startHard a => startWith e .hard a pool
  | .addSignature i sig now => some (pool.modify i fun s => (addSignature s sig now).2)
  | .execute i now => some (pool.modify i fun s => (execute s now).2)
  | .cancel i => some (pool.modify i fun s => (cancel s).2)

def run (e : Engine) (ops : List Op) : Option (List RecoverySession) := ops.foldlM (apply e) []

/-! One operation. -/

def effect (i : ℕ) (s : RecoverySession) : Op → RecoverySession
  | .addSignature j sig now => if j = i then (addSignature s sig now).2 else s
  | .execute j now => if j = i then (execute s now).2 else s
  | .cancel j => if j = i then (cancel s).2 else s
  | _ => s

variable {e : Engine} {pool pool' : List RecoverySession} {s s' : RecoverySession} {i : ℕ} {op : Op}

lemma startWith_cases (h : startWith e mode a pool = some pool') :
    pool' = pool ∨ ∃ s, s.state = .awaitingRoot ∧ pool' = pool ++ [s] := by
  unfold startWith start at h
  cases hv : verifyRecoveryPackage e.config a.files e.openEnvelope a.passphrase with
  | none => simp [hv] at h
  | some r =>
    cases r with
    | error _ =>
      left
      simpa [hv,Except.toBool] using h.symm
    | ok b =>
      right
      refine ⟨_,?_,by simpa [hv,Except.toBool] using h.symm⟩
      rfl

/-- The sessions of one list go to those of another, which may have a fresh one more. -/
structure Updates (f : ℕ → RecoverySession → RecoverySession) (pool pool' : List RecoverySession) :
    Prop where
  old : ∀ {i : ℕ} {s : RecoverySession}, pool[i]? = some s → pool'[i]? = some (f i s)
  new : ∀ {i : ℕ} {s' : RecoverySession}, pool'[i]? = some s' →
    (∃ s, pool[i]? = some s) ∨ s'.state = .awaitingRoot

lemma updates_modify (j : ℕ) (f : RecoverySession → RecoverySession) :
    Updates (fun i s => if j = i then f s else s) pool (pool.modify j f) where
  old {i s} hs := by
    rw [List.getElem?_modify]
    split_ifs with hji <;> simp [hs]
  new {i s'} hs := by
    rw [List.getElem?_modify] at hs
    left
    cases hp : pool[i]? with
    | none => simp [hp] at hs
    | some s => exact ⟨s,rfl⟩

lemma updates_append (hs : s.state = .awaitingRoot) :
    Updates (fun _ t => t) pool (pool ++ [s]) where
  old ht := by rwa [List.getElem?_append_left (List.getElem?_eq_some_iff.mp ht).1]
  new {i s'} ht := by
    rcases lt_or_ge i pool.length with hi | hi
    · exact Or.inl ⟨_,List.getElem?_eq_getElem hi⟩
    · rw [List.getElem?_append_right hi] at ht
      have hmem := List.mem_of_getElem? ht
      rw [List.mem_singleton] at hmem
      exact Or.inr (hmem ▸ hs)

lemma startWith_updates
    (h : startWith e mode a pool = some pool') : Updates (fun _ s => s) pool pool' := by
  rcases startWith_cases h with rfl | ⟨t,ht,rfl⟩
  · exact ⟨id,fun hs => Or.inl ⟨_,hs⟩⟩
  · exact updates_append ht

lemma apply_updates (h : apply e pool op = some pool') :
    Updates (fun i s => effect i s op) pool pool' := by
  cases op with
  | startSoft a => exact startWith_updates h
  | startHard a => exact startWith_updates h
  | addSignature j sig now => cases h; exact updates_modify j _
  | execute j now => cases h; exact updates_modify j _
  | cancel j => cases h; exact updates_modify j _

/-! What an operation makes of one session. -/

lemma isValid_eq_true : s.isValid now = true ↔
    s.state ≠ .inactive ∧ s.state ≠ .failed ∧ s.state ≠ .complete ∧
      (s.expiresAt = 0 ∨ now ≤ s.expiresAt) := by
  simp [RecoverySession.isValid,and_assoc]

lemma isValid_of_over (h : s.state = .failed ∨ s.state = .complete) (now : Int64) :
    s.isValid now = false := by
  rcases h with h | h <;> simp [RecoverySession.isValid,h]

lemma addSignature_state (sig : GovernanceSignature) (now : Int64) :
    (addSignature s sig now).2.state ≠ .complete := by
  unfold addSignature
  split_ifs with hv hstate
  · simp
  · have hvalid := isValid_eq_true.mp (Bool.eq_true_of_not_eq_false hv)
    exact hvalid.2.2.1
  · simp

lemma execute_complete (h : (execute s now).2.state = .complete) :
    (s.state = .awaitingRoot ∨ s.state = .signing) ∧ (s.expiresAt = 0 ∨ now ≤ s.expiresAt) := by
  unfold execute at h
  split_ifs at h with hv hstate hmode
  · have hvalid := isValid_eq_true.mp (Bool.eq_true_of_not_eq_false hv)
    exact absurd h hvalid.2.2.1
  all_goals
    have hvalid := isValid_eq_true.mp (Bool.eq_true_of_not_eq_false hv)
    exact ⟨by tauto,hvalid.2.2.2⟩

@[simp] lemma addSignature_expiresAt (s : RecoverySession) (sig : GovernanceSignature)
    (now : Int64) : (addSignature s sig now).2.expiresAt = s.expiresAt := by
  unfold addSignature
  split_ifs <;> rfl

@[simp] lemma execute_expiresAt (s : RecoverySession) (now : Int64) :
    (execute s now).2.expiresAt = s.expiresAt := by
  unfold execute
  split_ifs <;> rfl

lemma effect_cases (i : ℕ) (s : RecoverySession) (op : Op) : effect i s op = s ∨
      (∃ sig now, op = .addSignature i sig now ∧ effect i s op = (addSignature s sig now).2) ∨
      (∃ now, op = .execute i now ∧ effect i s op = (execute s now).2) ∨
      (op = .cancel i ∧ effect i s op = (cancel s).2) := by
  cases op with
  | startSoft | startHard => exact Or.inl rfl
  | addSignature j sig now =>
    by_cases hj : j = i
    · subst hj
      exact Or.inr (Or.inl ⟨sig,now,rfl,if_pos rfl⟩)
    · exact Or.inl (if_neg hj)
  | execute j now =>
    by_cases hj : j = i
    · subst hj
      exact Or.inr (Or.inr (Or.inl ⟨now,rfl,if_pos rfl⟩))
    · exact Or.inl (if_neg hj)
  | cancel j =>
    by_cases hj : j = i
    · subst hj
      exact Or.inr (Or.inr (Or.inr ⟨rfl,if_pos rfl⟩))
    · exact Or.inl (if_neg hj)

lemma effect_expiresAt (i : ℕ) (s : RecoverySession) (op : Op) :
    (effect i s op).expiresAt = s.expiresAt := by
  rcases effect_cases i s op with h | ⟨sig,now,-,h⟩ | ⟨now,-,h⟩ | ⟨-,h⟩ <;> simp [h,cancel]

lemma effect_of_over (h : s.state = .failed ∨ s.state = .complete) (i : ℕ) (op : Op) :
    effect i s op = s ∨ (effect i s op).state = .failed := by
  rcases effect_cases i s op with heq | ⟨sig,now,-,heq⟩ | ⟨now,-,heq⟩ | ⟨-,heq⟩
  · exact Or.inl heq
  · exact Or.inr (by simp [heq,addSignature,isValid_of_over h])
  · exact Or.inr (by simp [heq,execute,isValid_of_over h])
  · exact Or.inr (by simp [heq,cancel])

lemma effect_complete (h : (effect i s op).state = .complete) :
    effect i s op = s ∨ ∃ now, op = .execute i now ∧
      (s.state = .awaitingRoot ∨ s.state = .signing) ∧ (s.expiresAt = 0 ∨ now ≤ s.expiresAt) := by
  rcases effect_cases i s op with heq | ⟨sig,now,-,heq⟩ | ⟨now,rfl,heq⟩ | ⟨-,heq⟩
  · exact Or.inl heq
  · rw [heq] at h
    exact absurd h (addSignature_state sig now)
  · rw [heq] at h
    exact Or.inr ⟨now,rfl,execute_complete h⟩
  · rw [heq] at h
    cases h

/-! Whole runs. -/

lemma run_append (e : Engine) (ops later : List Op) :
    run e (ops ++ later) = (run e ops).bind (fun pool => later.foldlM (apply e) pool) := by
  simp [run]

/-- No execution finds session `i` without a signature or without an expiry time, and no
operation is called on it once it is complete. -/
structure Careful (i : ℕ) (s : RecoverySession) (op : Op) : Prop where
  signed : ∀ now, op = .execute i now → s.signatures ≠ [] ∧ s.expiresAt ≠ 0
  finished : s.state = .complete → op ≠ .cancel i ∧
    ∀ sig now, op ≠ .addSignature i sig now ∧ op ≠ .execute i now

def CarefulRun (e : Engine) (i : ℕ) (ops : List Op) : Prop :=
  ∀ pre op post before s, ops = pre ++ op::post → run e pre = some before → before[i]? = some s →
    Careful i s op

lemma Careful.effect_state (h : Careful i s op) (hover : s.state = .failed ∨ s.state = .complete) :
    (effect i s op).state = s.state := by
  rcases hover with hfailed | hcomplete
  · rcases effect_of_over (Or.inl hfailed) i op with heq | heq <;> rw [heq]
    exact hfailed.symm
  · obtain ⟨hcancel,hcalls⟩ := h.finished hcomplete
    rcases effect_cases i s op with heq | ⟨sig,now,hop,-⟩ | ⟨now,hop,-⟩ | ⟨hop,-⟩
    · rw [heq]
    · exact absurd hop (hcalls sig now).1
    · exact absurd hop (hcalls ⟨List.Vector.replicate 32 0,[],0⟩ now).2
    · exact absurd hop hcancel

lemma over_later {ops later : List Op} (hrun : run e ops = some pool) (hs : pool[i]? = some s)
    (hover : s.state = .failed ∨ s.state = .complete) (h : run e (ops ++ later) = some pool')
    (hcareful : CarefulRun e i (ops ++ later)) :
    ∃ s', pool'[i]? = some s' ∧ s'.state = s.state := by
  induction later generalizing ops pool s with
  | nil =>
    rw [List.append_nil,hrun] at h
    cases h
    exact ⟨s,hs,rfl⟩
  | cons op later ih =>
    have hop : ops ++ op::later = (ops ++ [op]) ++ later := by simp
    have hstate := (hcareful ops op later pool s rfl hrun hs).effect_state hover
    have hfold : (op::later).foldlM (apply e) pool = some pool' := by
      rwa [run_append,hrun] at h
    obtain ⟨mid,hmid,-⟩ := Option.bind_eq_some_iff.mp hfold
    have hrun' : run e (ops ++ [op]) = some mid := by
      rw [run_append,hrun]
      simpa using hmid
    obtain ⟨s',hs',h'⟩ := ih hrun' ((apply_updates hmid).old hs) (by rwa [hstate]) (hop ▸ h)
      (hop ▸ hcareful)
    exact ⟨s',hs',h'.trans hstate⟩

lemma completed_by_execute (hrun : run e ops = some pool)
    (hs : pool[i]? = some s) (hstate : s.state = .complete) :
    ∃ pre now post before s₀, ops = pre ++ .execute i now::post ∧ run e pre = some before ∧
      before[i]? = some s₀ ∧ (s₀.state = .awaitingRoot ∨ s₀.state = .signing) ∧
      s₀.expiresAt = s.expiresAt ∧ (s.expiresAt = 0 ∨ now ≤ s.expiresAt) := by
  induction ops using List.reverseRecOn generalizing pool s with
  | nil =>
    cases hrun
    simp at hs
  | append_singleton ops op ih =>
    rw [run_append] at hrun
    obtain ⟨before,hbefore,hop⟩ := Option.bind_eq_some_iff.mp hrun
    have happly : apply e before op = some pool := by simpa using hop
    rcases (apply_updates happly).new hs with ⟨s₀,hs₀⟩ | hnew
    · obtain rfl : effect i s₀ op = s := Option.some.inj ((apply_updates happly).old hs₀ ▸ hs)
      rcases effect_complete hstate with heq | ⟨now,rfl,hlive,htime⟩
      · rw [heq] at hstate ⊢
        obtain ⟨pre,now,post,mid,t,rfl,h⟩ := ih hbefore hs₀ hstate
        exact ⟨pre,now,post ++ [op],mid,t,by simp,h⟩
      · exact ⟨ops,now,[],before,s₀,rfl,hbefore,hs₀,hlive,(effect_expiresAt i s₀ _).symm,
          by rwa [effect_expiresAt]⟩
    · rw [hstate] at hnew
      cases hnew

/-- In every run that is careful with a session, it is completed only by an execution in time of
a session with a signature, and once complete or failed it stays so. -/
theorem recovery_session_careful_runs (e : Engine) (ops later : List Op)
    (pool pool' : List RecoverySession) (i : ℕ) (s : RecoverySession) (hrun : run e ops = some pool)
    (hs : pool[i]? = some s) (hlater : run e (ops ++ later) = some pool')
    (hcareful : CarefulRun e i (ops ++ later)) :
    (s.state = .complete → ∃ pre now post before s₀, ops = pre ++ .execute i now::post ∧
      run e pre = some before ∧ before[i]? = some s₀ ∧ s₀.expiresAt = s.expiresAt ∧
      now ≤ s₀.expiresAt ∧ s₀.signatures ≠ []) ∧
    (s.state = .failed ∨ s.state = .complete → ∃ s', pool'[i]? = some s' ∧ s'.state = s.state) := by
  refine ⟨fun hcomplete => ?_,fun hover => over_later hrun hs hover hlater hcareful⟩
  obtain ⟨pre,now,post,before,s₀,rfl,hbefore,hs₀,-,hexp,htime⟩ :=
    completed_by_execute hrun hs hcomplete
  obtain ⟨hsigned,hexpires⟩ := (hcareful pre (.execute i now) (post ++ later) before s₀ (by simp)
    hbefore hs₀).signed now rfl
  refine ⟨pre,now,post,before,s₀,rfl,hbefore,hs₀,hexp,?_,hsigned⟩
  rw [hexp] at hexpires ⊢
  exact htime.resolve_left hexpires

def sampleEngine : Engine := ⟨⟨3600,"recovery.json"⟩,fun _ _ _ => .ok []⟩

def sampleStart : StartArgs where
  files := fun _ => some RecoveryPackage.samplePackage.jsonText
  meshId := text "mesh-1"
  rootNodeId := text "root-node"
  currentEpoch := 1
  passphrase := text "secret"
  now := 10
  draw := (1,2)

def sampleSession (state : RecoveryState) (signatures : List GovernanceSignature) :
    RecoverySession where
  mode := .soft
  state
  sessionId := text "SMO-REC-12"
  meshId := text "mesh-1"
  rootNodeId := text "root-node"
  newEpoch := 2
  createdAt := 10
  expiresAt := 3610
  signatures

def sampleSignature : GovernanceSignature := ⟨List.Vector.replicate 32 1,[],20⟩

def signedOps : List Op :=
  [.startSoft sampleStart,.addSignature 0 sampleSignature 20,.execute 0 30]

lemma signedOps_careful : CarefulRun sampleEngine 0 (signedOps ++ [.startSoft sampleStart]) := by
  have hone : run sampleEngine [.startSoft sampleStart] = some [sampleSession .awaitingRoot []] := by
    decide +kernel
  have htwo : run sampleEngine [.startSoft sampleStart,.addSignature 0 sampleSignature 20] =
      some [sampleSession .signing [sampleSignature]] := by decide +kernel
  intro pre op post before s hops hpre hs
  rcases pre with _ | ⟨a,_ | ⟨b,_ | ⟨c,pre⟩⟩⟩
  · cases hpre
    cases hs
  · obtain ⟨rfl,rfl,-⟩ := by simpa [signedOps] using hops
    obtain rfl := Option.some.inj (hone.symm.trans hpre)
    cases hs
    exact ⟨nofun,nofun⟩
  · obtain ⟨rfl,rfl,rfl,-⟩ := by simpa [signedOps] using hops
    obtain rfl := Option.some.inj (htwo.symm.trans hpre)
    cases hs
    exact ⟨fun _ _ => ⟨nofun,by decide⟩,nofun⟩
  · -- The last start names no session.
    have hlast : [Op.startSoft sampleStart] = pre ++ op::post := by
      simpa [signedOps] using congrArg (List.drop 3) hops
    have hmem : op ∈ [Op.startSoft sampleStart] := hlast ▸ by simp
    obtain rfl := List.mem_singleton.mp hmem
    exact ⟨nofun,fun _ => ⟨nofun,fun _ _ => ⟨nofun,nofun⟩⟩⟩

theorem recovery_session_signed_run : ∃ pool pool' s, run sampleEngine signedOps = some pool ∧
    pool[0]? = some s ∧ run sampleEngine (signedOps ++ [.startSoft sampleStart]) = some pool' ∧
    (∃ pre now post before s₀, signedOps = pre ++ .execute 0 now::post ∧
      run sampleEngine pre = some before ∧ before[0]? = some s₀ ∧ s₀.expiresAt = s.expiresAt ∧
      now ≤ s₀.expiresAt ∧ s₀.signatures ≠ []) ∧
    ∃ s', pool'[0]? = some s' ∧ s'.state = .complete := by
  have hrun : run sampleEngine signedOps = some [sampleSession .complete [sampleSignature]] := by
    decide +kernel
  have hlater : run sampleEngine (signedOps ++ [.startSoft sampleStart]) =
      some [sampleSession .complete [sampleSignature],sampleSession .awaitingRoot []] := by
    decide +kernel
  have h := recovery_session_careful_runs sampleEngine signedOps _ _ _ 0 _ hrun rfl hlater
    signedOps_careful
  exact ⟨_,_,_,hrun,rfl,hlater,h.1 rfl,h.2 (Or.inr rfl)⟩

/-- An execution right after the start completes a soft session without any signature, and a
second one reports it expired and fails it. -/
theorem recovery_session_unsigned_run : (∃ (e : Engine) (a : StartArgs) (s t : RecoverySession),
      run e [.startSoft a,.execute 0 30] = some [s] ∧ s.state = .complete ∧ s.signatures = [] ∧
      run e ([.startSoft a,.execute 0 30] ++ [.execute 0 40]) = some [t] ∧ t.state = .failed) ∧
    ∃ (e : Engine) (a : StartArgs) (s : RecoverySession),
      run e [.startSoft a,.execute 0 30] = some [s] ∧ s.state = .complete ∧ s.expiresAt < 30 := by
  refine ⟨⟨sampleEngine,sampleStart,sampleSession .complete [],sampleSession .failed [],
    ?_,rfl,rfl,?_,rfl⟩,⟨{ sampleEngine with config := ⟨0,"recovery.json"⟩ },
    { sampleStart with now := 0 },
    { sampleSession .complete [] with createdAt := 0, expiresAt := 0 },?_,rfl,by decide⟩⟩
  · decide +kernel
  · decide +kernel
  · decide +kernel

end SmoFramework.Genesis.RecoveryEngine
