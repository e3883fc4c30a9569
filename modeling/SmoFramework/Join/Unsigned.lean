import SmoFramework.Join.Certification
import SmoFramework.Join.Replay

/-! Join requests without valid signatures. The nonce of a request is entered into the cache before any
signature is looked at, so that a rejected request changes what becomes of later ones. -/
namespace SmoFramework.Join
open Library
open Authority
open Enroll (JoinToken parseToken validateToken encodeTokenWire signedPayload)

/-! Later calls. -/

def outcomes (p : Platform) : Server → List Joining → List (Except Stop JoinResponse)
  | _, [] => []
  | s, j::js => (processJoinRequest p j.authority j.call j.req s).1::outcomes p (serve p s j) js

def InOrder (now : Int64) (js : List Joining) : Prop :=
  (now::js.map (·.call.nowSec)).Pairwise (· ≤ ·)

def Traceless (p : Platform) (s : Server) (j : Joining) : Prop :=
  ∀ js, InOrder j.call.nowSec js → outcomes p (serve p s j) js = outcomes p s js

/-- The signature of the token or of the request is missing or does not verify. -/
def Unsigned (p : Platform) (j : Joining) : Prop :=
  ∀ token, parseToken j.req.token = .ok token → ∃ crypto, suiteOf p token = .ok crypto ∧
    (authenticateToken crypto j.call.validatedSec j.authority token ≠ .ok () ∨
      ∃ csr, CertificateSigningRequest.deserialize (hexToBytes j.req.csrPem) = .ok csr ∧
        crypto.verify (signedBytes j.req.token j.req.timestamp j.req.nonce j.req.csrHash)
          j.req.requestSignature csr.newPublicKey ≠ .ok true)

def keptUntil (token : JoinToken) (nowSec : Int64) : Int64 :=
  if token.expiryUnixSec > 0 then token.expiryUnixSec else nowSec+300

/-! Two servers that agree in all entries that still count. -/

/-- Same registry, and same entries after a second. -/
structure Alike (now : Int64) (s s' : Server) : Prop where
  registry : s.registry = s'.registry
  cache : ExpiringSet.Agree (fun expiry => ¬expiry ≤ now) s.cache s'.cache

section
variable {p : Platform} {now : Int64} {s s' : Server} {j : Joining}

variable {cache : NonceCache}

lemma admitRequest_agree (req : JoinRequest)
    (h : ExpiringSet.Agree (fun expiry => ¬expiry ≤ now) cache cache') :
    (admitRequest p now req cache).1 = (admitRequest p now req cache').1 ∧
      ExpiringSet.Agree (fun expiry => ¬expiry ≤ now) (admitRequest p now req cache).2
        (admitRequest p now req cache').2 := by
  obtain ⟨⟨stop,hstop⟩,-⟩ | ⟨token,-,-,-,hrun⟩ := admitRequest_cases p now req
  · rw [hstop,hstop]
    exact ⟨rfl,h⟩
  · obtain ⟨hpassed,hcache⟩ : _ ∧ _ := h.enter
      (p.nonceHash (token.meshId ++ req.nonce.toList)) (keptUntil token now)
    rw [hrun,hrun]
    exact ⟨congrArg (fun passed => if passed = true then _ else _) hpassed,hcache⟩

lemma Alike.later (h : Alike now s s') (hle : now ≤ now') : Alike now' s s' where
  registry := h.registry
  cache := h.cache.mono fun expiry hlive => by
    rw [decide_eq_true_eq] at hlive ⊢
    exact fun hdead => hlive (Int64.le_trans hdead hle)

lemma Alike.step (h : Alike j.call.nowSec s s') :
    (processJoinRequest p j.authority j.call j.req s).1 =
        (processJoinRequest p j.authority j.call j.req s').1 ∧
      Alike j.call.nowSec (serve p s j) (serve p s' j) := by
  obtain ⟨hresult,hcache⟩ := admitRequest_agree (p := p) j.req h.cache
  have hboth : (processJoinRequest p j.authority j.call j.req s).1 =
        (processJoinRequest p j.authority j.call j.req s').1 ∧
      (serve p s j).registry = (serve p s' j).registry := by
    unfold serve processJoinRequest
    rcases hleft : admitRequest p j.call.nowSec j.req s.cache with ⟨result,cache⟩
    rcases hright : admitRequest p j.call.nowSec j.req s'.cache with ⟨result',cache'⟩
    rw [hleft,hright] at hresult
    cases (show result = result' from hresult)
    rcases result with stop | token
    · exact ⟨rfl,h.registry⟩
    · dsimp only
      rcases authorise p j.call.validatedSec j.authority token j.req with stop | ⟨crypto,csr⟩
      · exact ⟨rfl,h.registry⟩
      · dsimp only
        rw [h.registry]
        rcases j.authority.signCsr j.call.sign (hexToBytes j.req.csrPem) token.meshId s'.registry with
          ⟨e | cert,registry⟩
        · exact ⟨rfl,rfl⟩
        · cases j.authority.registry_ <;> exact ⟨rfl,rfl⟩
  refine ⟨hboth.1,hboth.2,?_⟩
  unfold serve
  rw [cache_processJoinRequest,cache_processJoinRequest]
  exact hcache

lemma Alike.outcomes (h : Alike now s s') (horder : InOrder now js) :
    Join.outcomes p s js = Join.outcomes p s' js := by
  induction js generalizing now s s' with
  | nil => rfl
  | cons j js ih =>
    obtain ⟨hfirst,hrest⟩ := List.pairwise_cons.mp horder
    have hle : now ≤ j.call.nowSec := hfirst _ (List.mem_cons_self ..)
    obtain ⟨hresult,halike⟩ := (h.later hle).step (p := p)
    rw [Join.outcomes,Join.outcomes,hresult,ih halike hrest]

/-! What a call leaves behind. -/

def replayed : Stop := failed 219 .none "JoinRequest nonce replay detected"

lemma returned_ne_replayed (h : e.code.code ≠ 219) : Stop.returned e ≠ replayed := by
  rintro ⟨⟩
  exact h rfl

lemma failed_ne_replayed (hcode : code % 1024 ≠ 219) (recovery : Recovery)
    (message : String) : failed code recovery message ≠ replayed := returned_ne_replayed hcode

variable {token : JoinToken}

lemma validateToken_error {verify : Bytes → Bytes → Bytes → Result Bool}
    (h : validateToken verify key nowSec token = .error e) :
    e = Enroll.tokenExpired ∨ ∃ message, e = Enroll.tokenErr message := by
  unfold validateToken at h
  split_ifs at h
  · exact .inl (Except.error.inj h).symm
  · exact .inr ⟨_,(Except.error.inj h).symm⟩
  · exact .inr ⟨_,(Except.error.inj h).symm⟩
  · split at h
    · exact .inr ⟨_,(Except.error.inj h).symm⟩
    · exact .inr ⟨_,(Except.error.inj h).symm⟩
    · cases h

def NeverReplayed {α : Type} (x : Except Stop α) : Prop := ∀ stop, x = .error stop → stop ≠ replayed

namespace NeverReplayed
variable {α : Type}

lemma error (h : stop ≠ replayed) : NeverReplayed (.error stop : Except Stop α) := by
  rintro _ ⟨⟩
  exact h

lemma failed (hcode : code % 1024 ≠ 219) (recovery : Recovery) (message : String) :
    NeverReplayed (.error (Join.failed code recovery message) : Except Stop α) :=
  .error (failed_ne_replayed hcode recovery message)

lemma ok (a : α) : NeverReplayed (.ok a) := by
  rintro stop ⟨⟩

lemma ite {c : Prop} [Decidable c] (hx : NeverReplayed x) (hy : NeverReplayed y) :
    NeverReplayed (if c then x else y) := by
  split_ifs
  · exact hx
  · exact hy

end NeverReplayed

lemma neverReplayed_authenticateToken (crypto : CryptoProvider) (validatedSec : Int64)
    (a : MeshAuthority) (token : JoinToken) :
    NeverReplayed (authenticateToken crypto validatedSec a token) := by
  refine .ite (.failed (by decide) _ _) ?_
  cases issuerKey a token.issuer with
  | none => exact .failed (by decide) _ _
  | some found =>
    refine .ite (.failed (by decide) _ _) (.ite (.failed (by decide) _ _) ?_)
    cases hvalidate : validateToken crypto.verify found.1 validatedSec token with
    | error e =>
      rcases validateToken_error hvalidate with rfl | ⟨message,rfl⟩
      · exact .error (returned_ne_replayed (by decide))
      · exact .error (failed_ne_replayed (by decide) _ _)
    | ok u => exact .ok u

/-- Behind the check of the nonce, an unsigned request is rejected. -/
theorem Unsigned.rejected (h : Unsigned p j) (hparse : parseToken j.req.token = .ok token) :
    ∃ stop, authorise p j.call.validatedSec j.authority token j.req = .error stop ∧
      stop ≠ replayed := by
  obtain ⟨crypto,hsuite,hbad⟩ := h token hparse
  unfold authorise
  rw [hsuite]
  dsimp only
  cases htoken : authenticateToken crypto j.call.validatedSec j.authority token with
  | error stop => exact ⟨stop,rfl,neverReplayed_authenticateToken _ _ _ _ stop htoken⟩
  | ok u =>
    rcases hbad with hbad | ⟨csr,hcsr,hverify⟩
    · exact absurd htoken hbad
    · refine ⟨failed 216 .none "JoinRequest signature verification failed",?_,
        failed_ne_replayed (by decide) _ _⟩
      have hcheck : checkCsr crypto j.req =
          .error (failed 216 .none "JoinRequest signature verification failed") := by
        unfold checkCsr
        rw [hcsr]
        dsimp only
        split
        · rename_i hok
          exact absurd hok hverify
        · rfl
      rw [hcheck]
      rfl

/-- An unsigned request that gets past the check of its nonce. -/
theorem Unsigned.process (h : Unsigned p j)
    (hadmitted : admitRequest p j.call.nowSec j.req s.cache = (.ok token,cache)) :
    ∃ stop, processJoinRequest p j.authority j.call j.req s = (.error stop,{ s with cache }) ∧
      stop ≠ replayed := by
  obtain ⟨stop,hstop,hne⟩ := h.rejected (admitRequest_eq_ok.mp hadmitted).1
  refine ⟨stop,?_,hne⟩
  unfold processJoinRequest
  rw [hadmitted]
  dsimp only
  rw [hstop]

lemma Unsigned.registry_serve (h : Unsigned p j) (s : Server) :
    (serve p s j).registry = s.registry := by
  rcases hadmitted : admitRequest p j.call.nowSec j.req s.cache with ⟨stop | token,cache⟩
  · unfold serve processJoinRequest
    rw [hadmitted]
  · obtain ⟨stop,hprocess,-⟩ := h.process hadmitted
    rw [serve,hprocess]

lemma agree_admitRequest (h : ∀ token, parseToken j.req.token = .ok token → PassesNonce p s j →
      keptUntil token j.call.nowSec ≤ j.call.nowSec) :
    ExpiringSet.Agree (fun expiry => ¬expiry ≤ j.call.nowSec) s.cache
      (admitRequest p j.call.nowSec j.req s.cache).2 := by
  obtain ⟨⟨stop,hstop⟩,-⟩ | ⟨token,hparse,htime,hexpired,hrun⟩ :=
    admitRequest_cases p j.call.nowSec j.req
  · rw [hstop]
    exact .refl _ _
  · rw [hrun]
    refine ExpiringSet.agree_enter fun hpassed => ?_
    have hadmitted := admitRequest_eq_ok.mpr ⟨hparse,htime,hexpired,Prod.ext hpassed rfl⟩
    have hdead := h token hparse ⟨token,congrArg Prod.fst hadmitted⟩
    exact decide_eq_false (not_not.mpr hdead)

lemma alike_serve (hunsigned : Unsigned p j) (h : ∀ token, parseToken j.req.token = .ok token →
      PassesNonce p s j → keptUntil token j.call.nowSec ≤ j.call.nowSec) :
    Alike j.call.nowSec s (serve p s j) := by
  refine ⟨(hunsigned.registry_serve s).symm,?_⟩
  rw [serve,cache_processJoinRequest]
  exact agree_admitRequest h

lemma find_serve_of_admitted (h : admitRequest p j.call.nowSec j.req s.cache = (.ok token,cache)) :
    (serve p s j).cache.find (p.nonceHash (token.meshId ++ j.req.nonce.toList)) =
      some (keptUntil token j.call.nowSec) := by
  have hcheck := (admitRequest_eq_ok.mp h).2.2.2
  have hentered : (checkAndInsert p.nonceHash token.meshId j.req.nonce token.expiryUnixSec
      j.call.nowSec s.cache).2.find (p.nonceHash (token.meshId ++ j.req.nonce.toList)) =
        some (keptUntil token j.call.nowSec) := ExpiringSet.find_enter (congrArg Prod.fst hcheck)
  rw [serve,cache_processJoinRequest,h]
  rwa [hcheck] at hentered

lemma process_of_find (hparse : parseToken j.req.token = .ok token)
    (htime : ¬(j.call.nowSec-j.req.timestamp).abs > 30)
    (hexpired : ¬(token.expiryUnixSec > 0 ∧ j.call.nowSec > token.expiryUnixSec))
    (hfind : s.cache.find (p.nonceHash (token.meshId ++ j.req.nonce.toList)) = some expiry)
    (hlive : ¬expiry ≤ j.call.nowSec) :
    (processJoinRequest p j.authority j.call j.req s).1 = .error replayed := by
  have hrefused : (checkAndInsert p.nonceHash token.meshId j.req.nonce token.expiryUnixSec
      j.call.nowSec s.cache).1 = false := ExpiringSet.enter_of_find hfind (by simpa using hlive)
  obtain ⟨-,hbad⟩ | ⟨token',hparse',-,-,hrun⟩ := admitRequest_cases p j.call.nowSec j.req
  · exact absurd (hbad token hparse htime) hexpired
  · cases hparse.symm.trans hparse'
    rw [processJoinRequest,hrun,hrefused]
    rfl

lemma not_traceless_of_kept (hunsigned : Unsigned p j)
    (hparse : parseToken j.req.token = .ok token) (hpass : PassesNonce p s j)
    (hkept : ¬keptUntil token j.call.nowSec ≤ j.call.nowSec) : ¬Traceless p s j := by
  obtain ⟨token',hadmitted⟩ := hpass.admitted
  obtain ⟨hparse',htime,hexpired,-⟩ := admitRequest_eq_ok.mp hadmitted
  cases hparse.symm.trans hparse'
  have hagain := process_of_find hparse htime hexpired (find_serve_of_admitted hadmitted) hkept
  obtain ⟨stop,hfirst,hne⟩ := hunsigned.process hadmitted
  intro htraceless
  have hsame := htraceless [j] (by simp [InOrder])
  simp only [outcomes,hfirst,hagain,List.cons.injEq,Except.error.injEq,and_true] at hsame
  exact hne hsame.symm

end

/-- A request without a valid signature leaves no trace exactly if it does not get past the check of its
nonce, or if its nonce is not kept beyond the second of the check. -/
theorem traceless_iff (p : Platform) (s : Server) (j : Joining) (h : Unsigned p j) :
    Traceless p s j ↔ ∀ token, parseToken j.req.token = .ok token → PassesNonce p s j →
      keptUntil token j.call.nowSec ≤ j.call.nowSec := by
  constructor
  · intro htraceless token hparse hpass
    by_contra hkept
    exact not_traceless_of_kept h hparse hpass hkept htraceless
  · intro hkept js horder
    exact ((alike_serve h hkept).outcomes horder).symm

def silentPlatform : Platform where
  nonceHash := id
  suites _ := .ok (listProvider [])

/-- A request in the last second of its token. -/
theorem traceless_last_second : Unsigned silentPlatform (lastMinuteJoin 1000) ∧
    Traceless silentPlatform {} (lastMinuteJoin 1000) := by
  have htoken : ∀ token, parseToken (lastMinuteJoin 1000).req.token = .ok token →
      token = lastMinuteToken := fun token h =>
    (Except.ok.inj (parseToken_lastMinuteToken.symm.trans h)).symm
  have hunsigned : Unsigned silentPlatform (lastMinuteJoin 1000) := by
    intro token h
    rw [htoken token h]
    exact ⟨listProvider [],rfl,Or.inl nofun⟩
  refine ⟨hunsigned,(traceless_iff silentPlatform {} (lastMinuteJoin 1000) hunsigned).mpr ?_⟩
  intro token h _
  rw [htoken token h]
  decide

def honestJoin : Joining := ⟨smallAuthority,{},smallRequest "Member" [39]⟩

def forgedJoin : Joining := ⟨smallAuthority,{},smallRequest "Authority" [39]⟩

lemma parseToken_forged : parseToken forgedJoin.req.token = .ok (smallToken "Authority") :=
  Enroll.parseToken_wire (by decide) (by decide) (by decide) (by decide) (by decide)

lemma authenticateToken_forged : authenticateToken (listProvider (smallSigned "Member" [39])) 0
    smallAuthority (smallToken "Authority") =
      .error (.returned (Enroll.tokenErr "Join Token signature mismatch")) := rfl

/-- The honest request is answered, unless the forged one was sent before it. -/
theorem forged_burns_nonce :
    Unforgeable (smallPlatform "Member" [39])
      (fun _ key message => (key,message) ∈ smallSigned "Member" [39]) ∧
    Unsigned (smallPlatform "Member" [39]) forgedJoin ∧
    (∃ resp, outcomes (smallPlatform "Member" [39]) {} [honestJoin] = [.ok resp]) ∧
    outcomes (smallPlatform "Member" [39]) {} [forgedJoin,honestJoin] =
      [.error (.returned (Enroll.tokenErr "Join Token signature mismatch")),.error replayed] := by
  have htime : ¬((0 : Int64)-0).abs > 30 := by decide
  have hadmitted : admitRequest (smallPlatform "Member" [39]) 0 forgedJoin.req .empty =
      (.ok (smallToken "Authority"),_) := admitRequest_eq_ok.mpr
    ⟨parseToken_forged,htime,by simp [smallToken],rfl⟩
  have hforged : (processJoinRequest (smallPlatform "Member" [39]) smallAuthority {} forgedJoin.req
      {}).1 = .error (.returned (Enroll.tokenErr "Join Token signature mismatch")) := by
    unfold processJoinRequest
    rw [hadmitted]
    dsimp only
    unfold authorise suiteOf smallPlatform
    dsimp only
    rw [authenticateToken_forged]
    rfl
  -- Mesh and nonce are those of the honest request.
  have hfind : (serve (smallPlatform "Member" [39]) {} forgedJoin).cache.find
      ([109] ++ honestJoin.req.nonce.toList) = some 300 := by
    have hkept := find_serve_of_admitted (s := {}) (j := forgedJoin) hadmitted
    exact hkept
  have hhonest : (processJoinRequest (smallPlatform "Member" [39]) smallAuthority {} honestJoin.req
      (serve (smallPlatform "Member" [39]) {} forgedJoin)).1 = .error replayed :=
    process_of_find (j := honestJoin) parseToken_smallToken htime (by simp [smallToken]) hfind
      (by decide)
  refine ⟨unforgeable_small "Member" [39],?_,?_,?_⟩
  · intro token h
    cases (parseToken_forged.symm.trans h)
    refine ⟨listProvider (smallSigned "Member" [39]),rfl,Or.inl fun hok => ?_⟩
    cases authenticateToken_forged.symm.trans hok
  · obtain ⟨resp,s',hresp⟩ := answered_small [39]
    exact ⟨resp,congrArg (fun r => [Prod.fst r]) hresp⟩
  · unfold outcomes outcomes outcomes
    rw [show (processJoinRequest (smallPlatform "Member" [39]) forgedJoin.authority forgedJoin.call
      forgedJoin.req {}).1 = _ from hforged]
    exact congrArg (fun r => [_,r]) hhonest

end SmoFramework.Join
