import SmoFramework.Session.Manager

/-! The session table as a map from session ids. The table is keyed by the first half of an id,
so it is a map from ids exactly as long as no two ids in use share that half. -/
namespace SmoFramework.SessionManager
open Library List AssocMap

inductive TableCall
  | openSession (session : Session)
  | transition (id : Id16) (event : SessionEvent) (now : Int64)
  | close (id : Id16) (now : Int64)
  | lookup (id : Id16)

def TableCall.id : TableCall → Id16
  | .openSession s => s.id
  | .transition id _ _ => id
  | .close id _ => id
  | .lookup id => id

/-- The table, and the ids that have been opened. None of these calls removes a session. -/
structure Journal where
  manager : SessionManager
  opened : List Id16 := []

def TableCall.apply (j : Journal) : TableCall → Journal
  | .openSession s => match j.manager.openSession s with
    | (.ok (),m) => ⟨m,s.id::j.opened⟩
    | (.error _,m) => { j with manager := m }
  | .transition id event now => { j with manager := (j.manager.transition id event now).2 }
  | .close id now => { j with manager := (j.manager.close id now).2 }
  | .lookup _ => j

variable (crl : Option (String → Result Bool)) (calls : List TableCall)

def runCalls : Journal :=
  calls.foldl TableCall.apply { manager := { crl } }

/-- What a caller who knows the ids of `ids` may expect of the table. -/
structure MapsIds (ids : Set Id16) (j : Journal) : Prop where
  lookup_isSome : ∀ id ∈ ids, (j.manager.lookup id).isSome = true ↔ id ∈ j.opened
  lookup_id : ∀ id ∈ ids, ∀ s, j.manager.lookup id = some s → s.id = id
  duplicate : ∀ s : Session, s.id ∈ ids → (j.manager.openSession s).1 =
      .error (smoErrSession 504 .warn .noRetry .none "session already exists") →
    ∃ k s', j.manager.sessions.find k = some s' ∧ s'.id = s.id
  transition_others : ∀ id ∈ ids, ∀ event now k s, j.manager.sessions.find k = some s → s.id ≠ id →
    (j.manager.transition id event now).2.sessions.find k = some s
  close_others : ∀ id ∈ ids, ∀ now k s, j.manager.sessions.find k = some s → s.id ≠ id →
    (j.manager.close id now).2.sessions.find k = some s

variable {m : SessionManager} {j : Journal} {ids : Set Id16}

lemma openSession_cases (m : SessionManager) (s : Session) :
    (∃ e : Error, e.code.code ≠ 504 ∧ m.openSession s = (.error e,m)) ∨
    (∃ s', m.sessions.find (toKey s.id) = some s' ∧ m.openSession s =
      (.error (smoErrSession 504 .warn .noRetry .none "session already exists"),m)) ∨
    (m.sessions.find (toKey s.id) = none ∧ m.openSession s =
      (.ok (),{ m with sessions := m.sessions.insert (toKey s.id) s })) := by
  have hcheck : (∃ e : Error, e.code.code ≠ 504 ∧ m.openSession s = (.error e,m)) ∨
      m.openSession s = if m.sessions.contains (toKey s.id) then
          (.error (smoErrSession 504 .warn .noRetry .none "session already exists"),m)
        else (.ok (),{ m with sessions := m.sessions.insert (toKey s.id) s }) := by
    obtain ⟨sessions,crl⟩ := m
    cases crl with
    | none => exact .inr rfl
    | some isRevoked =>
      by_cases hfp : s.certFingerprint = ""
      · exact .inr (by simp only [openSession,hfp,if_true])
      · cases hr : isRevoked s.certFingerprint with
        | error e =>
          refine .inl ⟨_,?_,by simp only [openSession,hfp,hr,if_false]; rfl⟩
          simp [smoErrSession,smoErr]
        | ok revoked =>
          cases revoked with
          | true =>
            refine .inl ⟨_,?_,by simp only [openSession,hfp,hr,if_false]; rfl⟩
            simp [smoErrSession,smoErr]
          | false => exact .inr (by simp only [openSession,hfp,hr,if_false])
  refine hcheck.imp_right fun h => ?_
  rw [h,AssocMap.contains]
  cases hfind : m.sessions.find (toKey s.id) with
  | some s' => exact .inl ⟨s',rfl,rfl⟩
  | none => exact .inr ⟨rfl,rfl⟩

lemma openSession_duplicate {s : Session} (h : (m.openSession s).1 =
    .error (smoErrSession 504 .warn .noRetry .none "session already exists")) :
    ∃ s', m.sessions.find (toKey s.id) = some s' := by
  obtain ⟨e,hcode,heq⟩ | ⟨s',hfind,-⟩ | ⟨-,heq⟩ := openSession_cases m s
  · rw [heq] at h
    cases h
    exact absurd rfl hcode
  · exact ⟨s',hfind⟩
  · rw [heq] at h
    cases h

lemma onEvent_id (s : Session) (event : SessionEvent) (now : Int64) :
    (s.onEvent event now).2.id = s.id := by
  unfold Session.onEvent
  split_ifs
  · rfl
  · dsimp only
    split_ifs <;> rfl

lemma find_transition (m : SessionManager) (id : Id16) (event : SessionEvent) (now : Int64)
    (k : UInt64) : (m.transition id event now).2.sessions.find k =
      if k = toKey id then (m.sessions.find k).map (fun s => (s.onEvent event now).2)
      else m.sessions.find k := by
  unfold transition
  cases hl : m.lookup id with
  | none =>
    split_ifs with hk
    · rw [hk]
      exact hl.trans (by rw [← lookup,hl]; rfl)
    · rfl
  | some s =>
    dsimp only
    rw [find_put]
    split_ifs with hk
    · rw [hk,← lookup,hl]
      rfl
    · rfl

/-- Every stored session has been opened and stands under the key of its own id, and every
opened id has a session. -/
structure Indexed (j : Journal) : Prop where
  stored : ∀ k s, j.manager.sessions.find k = some s → k = toKey s.id ∧ s.id ∈ j.opened
  present : ∀ id ∈ j.opened, ∃ s, j.manager.sessions.find (toKey id) = some s

lemma Indexed.empty : Indexed { manager := { crl } } :=
  ⟨fun _ _ h => (by cases h),fun _ h => (by cases h)⟩

lemma Indexed.transition (h : Indexed j) (id : Id16) (event : SessionEvent) (now : Int64) :
    Indexed { j with manager := (j.manager.transition id event now).2 } := by
  constructor
  · intro k s hfind
    rw [find_transition] at hfind
    split_ifs at hfind with hk
    · obtain ⟨old,hold,rfl⟩ := Option.map_eq_some_iff.mp hfind
      rw [onEvent_id]
      exact h.stored k old hold
    · exact h.stored k s hfind
  · intro id' hid'
    obtain ⟨s,hs⟩ := h.present id' hid'
    change ∃ t, (j.manager.transition id event now).2.sessions.find (toKey id') = some t
    rw [find_transition,hs]
    split_ifs
    · exact ⟨_,rfl⟩
    · exact ⟨s,rfl⟩

lemma apply_openSession_cases (j : Journal) (s : Session) :
    (TableCall.openSession s).apply j = j ∨ (TableCall.openSession s).apply j = ⟨{ j.manager with
      sessions := j.manager.sessions.insert (toKey s.id) s },s.id::j.opened⟩ := by
  obtain ⟨e,-,heq⟩ | ⟨s',-,heq⟩ | ⟨-,heq⟩ := openSession_cases j.manager s
  · exact .inl (by simp only [TableCall.apply,heq])
  · exact .inl (by simp only [TableCall.apply,heq])
  · exact .inr (by simp only [TableCall.apply,heq])

lemma Indexed.openSession (h : Indexed j) (s : Session) :
    Indexed ((TableCall.openSession s).apply j) := by
  obtain heq | heq := apply_openSession_cases j s
  · rw [heq]
    exact h
  rw [heq]
  constructor
  · intro k t hfind
    rw [find_insert] at hfind
    split_ifs at hfind with hk
    · cases hfind
      exact ⟨hk,mem_cons_self⟩
    · obtain ⟨hkey,hmem⟩ := h.stored k t hfind
      exact ⟨hkey,mem_cons_of_mem _ hmem⟩
  · intro id hid
    rw [find_insert]
    split_ifs with hk
    · exact ⟨s,rfl⟩
    · rcases mem_cons.mp hid with rfl | hid
      · exact absurd rfl hk
      · exact h.present id hid

lemma Indexed.apply (h : Indexed j) (call : TableCall) : Indexed (call.apply j) := by
  cases call with
  | openSession s => exact h.openSession s
  | transition id event now => exact h.transition id event now
  | close id now => exact h.transition id .close now
  | lookup id => exact h

lemma apply_opened (call : TableCall) {id : Id16} (h : id ∈ (call.apply j).opened) :
    id ∈ j.opened ∨ id = call.id := by
  cases call with
  | openSession s =>
    obtain heq | heq := apply_openSession_cases j s
    · exact .inl (heq ▸ h)
    · rw [heq] at h
      exact (mem_cons.mp h).symm
  | transition id event now => exact .inl h
  | close id now => exact .inl h
  | lookup id => exact .inl h

lemma Indexed.run :
    Indexed (runCalls crl calls) := by
  induction calls using reverseRecOn with
  | nil => exact Indexed.empty crl
  | append_singleton calls call ih =>
    rw [runCalls,foldl_append]
    exact ih.apply call

lemma opened_run {crl : Option (String → Result Bool)} {calls : List TableCall}
    (hids : ∀ call ∈ calls, call.id ∈ ids) : ∀ id ∈ (runCalls crl calls).opened, id ∈ ids := by
  induction calls using reverseRecOn with
  | nil => exact fun _ h => by cases h
  | append_singleton calls call ih =>
    intro id hid
    rw [runCalls,foldl_append] at hid
    rcases apply_opened call hid with hold | rfl
    · exact ih (fun c hc => hids c (mem_append_left _ hc)) id hold
    · exact hids call (by simp)

lemma Indexed.mapsIds (h : Indexed j) (hopened : ∀ id ∈ j.opened, id ∈ ids)
    (hinj : Set.InjOn toKey ids) : MapsIds ids j := by
  have hid : ∀ id ∈ ids, ∀ s, j.manager.sessions.find (toKey id) = some s → s.id = id := by
    intro id hmem s hs
    obtain ⟨hkey,hop⟩ := h.stored _ s hs
    exact hinj (hopened _ hop) hmem hkey.symm
  have hothers : ∀ id ∈ ids, ∀ event now k s, j.manager.sessions.find k = some s → s.id ≠ id →
      (j.manager.transition id event now).2.sessions.find k = some s := by
    intro id hmem event now k s hs hne
    rw [find_transition,if_neg,hs]
    rintro rfl
    exact hne (hid id hmem s hs)
  refine ⟨?_,hid,?_,hothers,fun id hmem => hothers id hmem .close⟩
  · intro id hmem
    rw [Option.isSome_iff_exists]
    constructor
    · rintro ⟨s,hs⟩
      exact hid id hmem s hs ▸ (h.stored _ s hs).2
    · exact h.present id
  · intro s hmem hdup
    obtain ⟨s',hs'⟩ := openSession_duplicate hdup
    exact ⟨_,s',hs',hid s.id hmem s' hs'⟩

lemma lookup_of_toKey_eq {id id' : Id16} (h : toKey id = toKey id') :
    (runCalls none [.openSession { id }]).manager.lookup id' = some { id } := by
  have hfind : (empty.insert (toKey id) ({ id } : Session)).find (toKey id') =
      some { id } := by
    rw [find_insert,if_pos h.symm]
  exact hfind

/-- The table is a map from the ids of a set, in every run of calls on them, exactly when no two
of these ids share a key. -/
theorem mapsIds_iff_injOn (ids : Set Id16) :
    (∀ crl calls, (∀ call ∈ calls, TableCall.id call ∈ ids) → MapsIds ids (runCalls crl calls)) ↔
      Set.InjOn toKey ids := by
  constructor
  · intro h id hid id' hid' hkey
    have hmaps := h none [.openSession { id }] (by simpa [TableCall.id] using hid)
    exact hmaps.lookup_id id' hid' _ (lookup_of_toKey_eq hkey)
  · intro hinj crl calls hids
    exact (Indexed.run crl calls).mapsIds (opened_run hids) hinj

def lowId : Id16 := List.Vector.replicate 16 1
def highId : Id16 := ⟨List.replicate 15 1 ++ [2],rfl⟩

/-- `1…12` is found with the wrong id, cannot be opened, and a close call for it closes the other
session. -/
theorem lookup_other_id : let j := runCalls none [.openSession { id := lowId, state := .handshake }]
    (j.manager.lookup highId).map Session.id = some lowId ∧ highId ∉ j.opened ∧
      (j.manager.openSession { id := highId }).1 =
        .error (smoErrSession 504 .warn .noRetry .none "session already exists") ∧
      ((j.manager.close highId 5).2.lookup lowId).map Session.state = some .closed := by
  decide +kernel

end SmoFramework.SessionManager
