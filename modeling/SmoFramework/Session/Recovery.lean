import SmoFramework.Session.Persistence

/-! Sessions read back after a crash (`SessionManager::recover`). Whatever the file holds, only closed
sessions are added to the table. -/
namespace SmoFramework.SessionManager
open Library

/-- The file of the session store, as the calls on the stream find it. -/
inductive SessionStore
  | missing
  | unreadable
  | content (data : Bytes)

structure Recovered where
  manager : SessionManager
  recovered : ℕ := 0
  orphans : ℕ := 0

/-- The session without what the table does not keep here; the stream has no fingerprint. -/
def stored (s : StoredSession) (state : SessionState) : Session where
  id := s.id
  state := state
  createdAt := s.createdAt
  expiresAt := s.expiresAt
  lastActive := s.lastActive
  securityState := s.securityState

def addClosed (r : Recovered) (persisted : StoredSession) (state : SessionState) (now : Int64) :
    Recovered :=
  let session := ((stored persisted state).onEvent .close now).2
  let key := toKey session.id
  if r.manager.sessions.contains key then r
  else { r with
    manager := { r.manager with sessions := r.manager.sessions.insert key session }
    recovered := r.recovered+1 }

/-- Every byte that is not one of three states is dropped. -/
def addPersisted (r : Recovered) (persisted : StoredSession) (now : Int64) : Recovered :=
  if persisted.state = SessionState.active.toByte then
    { addClosed r persisted .active now with orphans := r.orphans+1 }
  else if persisted.state = SessionState.established.toByte then addClosed r persisted .established now
  else if persisted.state = SessionState.renewing.toByte then addClosed r persisted .renewing now
  else r

/-- A record that does not fit into the rest of the file ends the loop, one that cannot be read is
passed over. -/
def recoverLoop (now : Int64) : ℕ → Bytes → Recovered → Recovered
  | 0,_,r => r
  | n+1,data,r =>
    let len := ((data.take 4).foldl BigEndian.shiftIn32 0).toNat
    let rest := data.drop 4
    if rest.length < len then r
    else match PeerSession.deserialize (rest.take len) with
      | .error _ => recoverLoop now n (rest.drop len) r
      | .ok persisted => recoverLoop now n (rest.drop len) (addPersisted r persisted now)

def recover (m : SessionManager) (path : String) (store : SessionStore) (now : Int64) :
    Result ℕ × SessionManager :=
  match store with
  | .missing => (.ok 0,m)
  | .unreadable =>
    (.error (smoErrSession 500 .error .noRetry .reconnect ("failed reading session store: " ++ path)),m)
  | .content [] => (.ok 0,m)
  | .content data =>
    let count := ((data.take 4).foldl BigEndian.shiftIn32 0).toNat
    let r := recoverLoop now count (data.drop 4) { manager := m }
    (.ok r.recovered,r.manager)

/-- The table `m'` is the table `m` with `n` closed sessions behind it. -/
def Extends (m m' : SessionManager) (n : ℕ) : Prop :=
  ∃ added : List (UInt64 × Session), m'.sessions.entries = m.sessions.entries ++ added ∧
    added.length = n ∧ (∀ e ∈ added, e.2.state = .closed) ∧ m'.crl = m.crl

lemma addClosed_extends (h : Extends m r.manager r.recovered)
    (persisted : StoredSession) (hstate : isValidTransition state .close = true) (now : Int64) :
    Extends m (addClosed r persisted state now).manager (addClosed r persisted state now).recovered := by
  have hclosed : ((stored persisted state).onEvent .close now).2.state = .closed := by
    cases state with
    | closed => cases hstate
    | handshake | established | active | renewing => rfl
  unfold addClosed
  dsimp only
  split_ifs with hcontains
  · exact h
  · obtain ⟨added,hentries,hlen,hall,hcrl⟩ := h
    let session := ((stored persisted state).onEvent .close now).2
    refine ⟨added ++ [(toKey session.id,session)],?_,?_,?_,hcrl⟩
    · rw [← List.append_assoc,← hentries]
      exact AssocMap.insertIn_eq_append (by simpa [AssocMap.contains,AssocMap.find] using hcontains)
    · rw [List.length_append,hlen]
      rfl
    · intro e he
      obtain he | he := List.mem_append.mp he
      · exact hall e he
      · rw [List.mem_singleton.mp he]
        exact hclosed

lemma addPersisted_extends
    (h : Extends m r.manager r.recovered) (persisted : StoredSession) (now : Int64) :
    Extends m (addPersisted r persisted now).manager (addPersisted r persisted now).recovered := by
  unfold addPersisted
  split_ifs
  · exact addClosed_extends h persisted rfl now
  · exact addClosed_extends h persisted rfl now
  · exact addClosed_extends h persisted rfl now
  · exact h

lemma recoverLoop_extends (now : Int64) (n : ℕ) (data : Bytes)
    (h : Extends m r.manager r.recovered) : Extends m (recoverLoop now n data r).manager
      (recoverLoop now n data r).recovered := by
  induction n generalizing data r with
  | zero => exact h
  | succ n ih =>
    rw [recoverLoop]
    split_ifs
    · exact h
    · split
      · exact ih _ h
      · exact ih _ (addPersisted_extends h _ now)

/-- Whatever the store holds, the sessions of the table stay as they are, those that are added are
closed, and a call that succeeds returns their number. -/
theorem recover_adds_closed (m : SessionManager) (path : String) (store : SessionStore) (now : Int64) :
    ∃ n, Extends m (m.recover path store now).2 n ∧
      ∀ returned, (m.recover path store now).1 = .ok returned → returned = n := by
  have hsame : Extends m m 0 := ⟨[],by simp⟩
  match store with
  | .missing => exact ⟨0,hsame,fun _ h => by cases h; rfl⟩
  | .unreadable => exact ⟨0,hsame,fun _ h => by cases h⟩
  | .content [] => exact ⟨0,hsame,fun _ h => by cases h; rfl⟩
  | .content (b::data) =>
    exact ⟨_,recoverLoop_extends now _ ((b::data).drop 4) hsame,fun _ h => by cases h; rfl⟩

end SmoFramework.SessionManager
