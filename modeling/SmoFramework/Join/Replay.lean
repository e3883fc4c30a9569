import SmoFramework.Join.Protocol

/-! Replayed join requests. A nonce that was seen is kept until its token expires, and the token is
accepted until then; but the cache drops the nonce in the second in which the token is accepted for
the last time. -/
namespace SmoFramework.Join
open Library List ExpiringSet
open Authority
open Enroll (JoinToken parseToken encodeTokenWire)

structure Joining where
  authority : MeshAuthority
  call : JoinCall
  req : JoinRequest

def serve (p : Platform) (s : Server) (j : Joining) : Server :=
  (processJoinRequest p j.authority j.call j.req s).2

def after (p : Platform) (s : Server) (js : List Joining) : Server := js.foldl (serve p) s

def PassesNonce (p : Platform) (s : Server) (j : Joining) : Prop :=
  ∃ token, (admitRequest p j.call.nowSec j.req s.cache).1 = .ok token

def NoReplay (p : Platform) (s : Server) (js : List Joining) : Prop :=
  ∀ pre i mid j post, js = pre ++ i::(mid ++ j::post) → i.req.token = j.req.token →
    i.req.nonce = j.req.nonce → PassesNonce p (after p s pre) i →
    ¬PassesNonce p (after p s (pre ++ i::mid)) j

section
variable {p : Platform} {s : Server} {j : Joining}

lemma PassesNonce.admitted (h : PassesNonce p s j) :
    ∃ token, admitRequest p j.call.nowSec j.req s.cache = (.ok token,(serve p s j).cache) := by
  obtain ⟨token,htoken⟩ := h
  refine ⟨token,Prod.ext htoken ?_⟩
  exact (cache_processJoinRequest p j.authority j.call j.req s).symm

lemma find_serve_of_find (h : s.cache.find key = some expiry)
    (hlive : ¬expiry ≤ j.call.nowSec) : (serve p s j).cache.find key = some expiry := by
  rw [serve,cache_processJoinRequest]
  obtain ⟨⟨stop,hstop⟩,-⟩ | ⟨token,-,-,-,hrun⟩ := admitRequest_cases p j.call.nowSec j.req
  · rw [hstop]
    exact h
  · rw [hrun]
    exact find_enter_of_find h (by simpa using hlive)

lemma find_after_of_find
    (h : s.cache.find key = some expiry) (hlive : ∀ j ∈ js, ¬expiry ≤ j.call.nowSec) :
    (after p s js).cache.find key = some expiry := by
  induction js generalizing s with
  | nil => exact h
  | cons j js ih =>
    obtain ⟨hj,hjs⟩ := forall_mem_cons.mp hlive
    exact ih (find_serve_of_find h hj) hjs

lemma PassesNonce.find_serve (h : PassesNonce p s j) :
    ∃ token, parseToken j.req.token = .ok token ∧ (0 < token.expiryUnixSec →
      ¬token.expiryUnixSec < j.call.nowSec ∧
      (serve p s j).cache.find (p.nonceHash (token.meshId ++ j.req.nonce.toList)) =
        some token.expiryUnixSec) := by
  obtain ⟨token,hadmitted⟩ := h.admitted
  obtain ⟨hparse,-,hexpired,hcheck⟩ := admitRequest_eq_ok.mp hadmitted
  refine ⟨token,hparse,fun hpos => ⟨fun hlt => hexpired ⟨hpos,hlt⟩,?_⟩⟩
  have hfind : (checkAndInsert p.nonceHash token.meshId j.req.nonce token.expiryUnixSec
      j.call.nowSec s.cache).2.find (p.nonceHash (token.meshId ++ j.req.nonce.toList)) = some _ :=
    find_enter (congrArg Prod.fst hcheck)
  rw [hcheck,if_pos hpos] at hfind
  exact hfind

lemma not_passesNonce_of_find (hparse : parseToken j.req.token = .ok token)
    (h : s.cache.find (p.nonceHash (token.meshId ++ j.req.nonce.toList)) = some expiry)
    (hlive : ¬expiry ≤ j.call.nowSec) : ¬PassesNonce p s j := by
  intro hpass
  obtain ⟨token',hadmitted⟩ := hpass.admitted
  obtain ⟨hparse',-,-,hcheck⟩ := admitRequest_eq_ok.mp hadmitted
  cases hparse.symm.trans hparse'
  have hrefused : (checkAndInsert p.nonceHash token.meshId j.req.nonce token.expiryUnixSec
      j.call.nowSec s.cache).1 = false := enter_of_find h (by simpa using hlive)
  rw [hcheck] at hrefused
  cases hrefused

end

/-- Replays are noticed in every run in which no call is made in the very second in which its token
expires. -/
theorem noReplay_of_ne_expiry (p : Platform) (s : Server) (js : List Joining)
    (hclock : js.Pairwise fun i j => i.call.nowSec ≤ j.call.nowSec)
    (hexpiry : ∀ j ∈ js, ∀ token, parseToken j.req.token = .ok token → 0 < token.expiryUnixSec)
    (hsecond : ∀ j ∈ js, ∀ token, parseToken j.req.token = .ok token →
      j.call.nowSec ≠ token.expiryUnixSec) : NoReplay p s js := by
  rintro pre i mid j post rfl htoken hnonce hi hj
  have hmem : j ∈ pre ++ i::(mid ++ j::post) := by simp
  obtain ⟨token,hparse,hleft⟩ := hi.find_serve
  rw [htoken] at hparse
  have hpos := hexpiry j hmem token hparse
  -- The second call passes too, so its token has not expired, and it is not the last second.
  have hlast : ¬token.expiryUnixSec ≤ j.call.nowSec := by
    obtain ⟨token',hparse',hvalid⟩ := hj.find_serve
    cases hparse.symm.trans hparse'
    have hne := hsecond j hmem token hparse
    intro hle
    exact hne (Int64.le_antisymm (Int64.not_lt.mp (hvalid hpos).1) hle)
  have hmid : ∀ k ∈ mid, ¬token.expiryUnixSec ≤ k.call.nowSec := by
    intro k hk hle
    have hkj : k.call.nowSec ≤ j.call.nowSec := by
      rw [pairwise_append] at hclock
      have hmid := (pairwise_append.mp (pairwise_cons.mp hclock.2.1).2).2.2
      exact hmid k hk j (mem_cons_self ..)
    exact hlast (Int64.le_trans hle hkj)
  have hfind : (after p s (pre ++ i::mid)).cache.find
      (p.nonceHash (token.meshId ++ j.req.nonce.toList)) = some token.expiryUnixSec := by
    rw [after,foldl_append,foldl_cons,← hnonce]
    exact find_after_of_find (hleft hpos).2 hmid
  exact not_passesNonce_of_find hparse hfind hlast hj

/-- A call that passes in the second in which its token expires passes again if it is repeated in
that second. -/
theorem PassesNonce.again (h : PassesNonce p s j)
    (hparse : parseToken j.req.token = .ok token)
    (hpos : 0 < token.expiryUnixSec) (hnow : j.call.nowSec = token.expiryUnixSec) :
    PassesNonce p (serve p s j) j := by
  obtain ⟨token',hparse',hleft⟩ := h.find_serve
  cases hparse.symm.trans hparse'
  obtain ⟨token',hadmitted⟩ := h.admitted
  obtain ⟨hparse',htime,hexpired,-⟩ := admitRequest_eq_ok.mp hadmitted
  cases hparse.symm.trans hparse'
  have hagain : (checkAndInsert p.nonceHash token.meshId j.req.nonce token.expiryUnixSec
      j.call.nowSec (serve p s j).cache).1 = true :=
    enter_of_dead (hleft hpos).2 (by simp [hnow])
  have hadmitted' : admitRequest p j.call.nowSec j.req (serve p s j).cache =
      (.ok token,(checkAndInsert p.nonceHash token.meshId j.req.nonce token.expiryUnixSec
        j.call.nowSec (serve p s j).cache).2) :=
    admitRequest_eq_ok.mpr ⟨hparse,htime,hexpired,Prod.ext hagain rfl⟩
  exact ⟨token,congrArg Prod.fst hadmitted'⟩

def lastMinuteToken : JoinToken where
  meshId := [109]
  expiryUnixSec := 1000
  issuer := [114]
  signature := List.replicate 32 5

lemma parseToken_lastMinuteToken : parseToken (encodeTokenWire lastMinuteToken) = .ok lastMinuteToken :=
  Enroll.parseToken_wire (by decide) (by decide) (by decide) (by decide) (by decide)

def lastMinuteJoin (nowSec : Int64) : Joining where
  authority := {}
  call := { nowSec }
  req := { token := encodeTokenWire lastMinuteToken, timestamp := nowSec }

def plainPlatform : Platform where
  nonceHash := id
  suites _ := .error (smoErrCrypto 8 .error .noRetry .none "unsupported crypto suite")

lemma passesNonce_lastMinuteJoin (h : nowSec ≤ 1000) :
    PassesNonce plainPlatform {} (lastMinuteJoin nowSec) := by
  have htime : ¬(nowSec-nowSec).abs > 30 := by
    rw [Int64.sub_self]
    decide
  have hadmitted : admitRequest plainPlatform nowSec (lastMinuteJoin nowSec).req .empty =
      (.ok lastMinuteToken,_) := admitRequest_eq_ok.mpr
    ⟨parseToken_lastMinuteToken,htime,fun hexpired => Int64.not_lt.mpr h hexpired.2,rfl⟩
  exact ⟨lastMinuteToken,congrArg Prod.fst hadmitted⟩

theorem noReplay_before_expiry : NoReplay plainPlatform {} [lastMinuteJoin 999,lastMinuteJoin 999] ∧
    PassesNonce plainPlatform {} (lastMinuteJoin 999) := by
  have hparse : ∀ j ∈ [lastMinuteJoin 999,lastMinuteJoin 999], ∀ token,
      parseToken j.req.token = .ok token → token = lastMinuteToken := by
    intro j hj token htoken
    have hreq : j.req.token = encodeTokenWire lastMinuteToken := by
      simp only [mem_cons,not_mem_nil,or_false,or_self] at hj
      rw [hj]
      rfl
    rw [hreq,parseToken_lastMinuteToken] at htoken
    exact (Except.ok.inj htoken).symm
  refine ⟨noReplay_of_ne_expiry _ _ _ (by decide) ?_ ?_,passesNonce_lastMinuteJoin (by decide)⟩
  · intro j hj token htoken
    rw [hparse j hj token htoken]
    decide
  · intro j hj token htoken
    rw [hparse j hj token htoken]
    simp only [mem_cons,not_mem_nil,or_false,or_self] at hj
    rw [hj]
    decide

/-- In second 1000 the request passes twice. -/
theorem replay_at_expiry : Function.Injective plainPlatform.nonceHash ∧
    [lastMinuteJoin 1000,lastMinuteJoin 1000].Pairwise (fun i j => i.call.nowSec ≤ j.call.nowSec) ∧
    (∀ j ∈ [lastMinuteJoin 1000,lastMinuteJoin 1000], ∃ token,
      parseToken j.req.token = .ok token ∧ 0 < token.expiryUnixSec) ∧
    ¬NoReplay plainPlatform {} [lastMinuteJoin 1000,lastMinuteJoin 1000] := by
  refine ⟨fun _ _ h => h,by decide,?_,fun h => ?_⟩
  · intro j hj
    simp only [mem_cons,not_mem_nil,or_false,or_self] at hj
    exact ⟨lastMinuteToken,hj ▸ parseToken_lastMinuteToken,by decide⟩
  · have hfirst : PassesNonce plainPlatform {} (lastMinuteJoin 1000) :=
      passesNonce_lastMinuteJoin (by decide)
    exact h [] _ [] _ [] rfl rfl rfl hfirst
      (hfirst.again parseToken_lastMinuteToken (by decide) rfl)

end SmoFramework.Join
