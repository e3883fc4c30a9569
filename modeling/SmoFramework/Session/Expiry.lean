import SmoFramework.Session.Manager

/-! What a tick leaves behind. A session that is past its expiry is closed, unless a contract is in
progress in it: the timeout event is not one of an active session, which is closed by the first
tick after its contract has ended. -/
namespace SmoFramework.SessionManager
open Library Session

variable {now : Int64} {s : Session}

lemma tickSession_closed (hexp : s.expiresAt ≤ now)
    (hactive : s.state ≠ .active) : (tickSession now s).state = .closed := by
  have hinv : s.isValidAt now = false := by
    simp [isValidAt,Int64.not_lt.mpr hexp]
  unfold tickSession onEvent
  rw [hinv]
  cases hs : s.state with
  | active => exact absurd hs hactive
  | closed => simp [isValidTransition,hs]
  | handshake | established | renewing => simp [isValidTransition,applyTransition]

lemma tickSession_active (now : Int64) (h : s.state = .active) :
    tickSession now s = s := by
  unfold tickSession onEvent
  split_ifs with hv ht
  · rfl
  · rfl
  · exact absurd (by rw [h]; rfl) ht

lemma tickSession_valid (h : s.isValidAt now = true) : tickSession now s = s := if_pos h

lemma tickSession_cases (s : Session) (now : Int64) :
    tickSession now s = s ∨ ((tickSession now s).state = .closed ∧ s.expiresAt ≤ now) := by
  by_cases hv : s.isValidAt now = true
  · exact .inl (tickSession_valid hv)
  by_cases hactive : s.state = .active
  · exact .inl (tickSession_active now hactive)
  by_cases hexp : s.expiresAt ≤ now
  · exact .inr ⟨tickSession_closed hexp hactive,hexp⟩
  · have hclosed : s.state = .closed := by
      by_contra hne
      exact hv (by simpa [isValidAt,hne] using Int64.not_le.mp hexp)
    refine .inl ?_
    unfold tickSession onEvent
    rw [if_neg hv,if_pos (by rw [hclosed]; rfl)]

/-- After a tick every session past its expiry is closed, except those that were active before it,
which it leaves as they are. -/
theorem tick_closes_expired (m : SessionManager) (now : Int64) (k : UInt64) (s : Session)
    (hfind : (m.tick now).sessions.find k = some s) (hexp : s.expiresAt ≤ now) :
    s.state = .closed ∨ (s.state = .active ∧ m.sessions.find k = some s) := by
  rw [tick,AssocMap.find_mapValues] at hfind
  obtain ⟨old,hold,rfl⟩ := Option.map_eq_some_iff.mp hfind
  by_cases hactive : old.state = .active
  · rw [tickSession_active now hactive]
    exact .inr ⟨hactive,hold⟩
  · left
    obtain hsame | ⟨hclosed,-⟩ := tickSession_cases old now
    · rw [hsame] at hexp
      exact tickSession_closed hexp hactive
    · exact hclosed

def shortSession : Session :=
  { id := List.Vector.replicate 16 1, state := .established, expiresAt := 30 }

theorem tick_closes_established :
    ((({} : SessionManager).put shortSession.id shortSession).tick 40).sessions.find
        (toKey shortSession.id) = some (tickSession 40 shortSession) ∧
      (tickSession 40 shortSession).state = .closed := by
  have hfind : ((({} : SessionManager).put shortSession.id shortSession).tick 40).sessions.find
      (toKey shortSession.id) = some (tickSession 40 shortSession) := by
    rw [tick,AssocMap.find_mapValues,find_put,if_pos rfl]
    rfl
  refine ⟨hfind,?_⟩
  refine (tick_closes_expired _ 40 _ _ hfind (by decide +kernel)).resolve_right fun h => ?_
  exact absurd h.1 (by decide +kernel)

/-- A session that is created, established and activated, and whose time is over at 30, is still
active after a tick at 40. -/
theorem tick_keeps_expired_active : ∃ s, Session.create (List.Vector.replicate 16 1) 10 20 = .ok s ∧
      let active := ((s.onEvent .established 11).2.onEvent .activate 12).2
      ((((({} : SessionManager).openSession active).2.tick 40).lookup active.id).map
        fun t => (t.state,decide (t.expiresAt ≤ 40))) = some (.active,true) :=
  ⟨_,rfl,by decide +kernel⟩

end SmoFramework.SessionManager
