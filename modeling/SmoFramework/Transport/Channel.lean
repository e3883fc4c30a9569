import SmoFramework.Transport.Handshake

/-! Messages over an established session (`core/transport/secure_session`): what an attacker can make
the receiver accept, and which messages arrive when nothing interferes. -/
namespace SmoFramework.Transport
open Library Library.BigEndian Library.Attempt List

/-! The session during a call. -/

variable (s : SecureSession)

lemma keeps_writeAll (data : Bytes) :
    Keeps (fun c : Connection => c.session = s) (writeAll data) := by
  intro c r c' h hc
  obtain ⟨w,-,hw⟩ := Option.map_eq_some_iff.mp h
  cases hw
  exact hc

lemma keeps_readAll (n : ℕ) :
    Keeps (fun c : Connection => c.session = s) (readAll n) := by
  intro c r c' h hc
  unfold outcome readAll at h
  change (if n ≤ c.socket.input.length then _ else _) = _ at h
  split_ifs at h with hn
  · cases h
    exact hc
  · dsimp only at h
    split at h
    · cases h
    · cases h
      exact hc
    · cases h
      exact hc

lemma keeps_takeFrame :
    Keeps (fun c : Connection => c.session = s) takeFrame :=
  (Keeps.view _).bind fun _ => (Keeps.ensure _ _).bind fun _ =>
  (keeps_readAll s _).bind fun _ => (Keeps.ensure _ _).bind fun _ =>
  (keeps_readAll s _).bind fun _ => (Keeps.ensure _ _).bind fun _ =>
  (Keeps.ensure _ _).bind fun _ => .pure _

def countSend : SecureSession := { s with txCounter := s.txCounter+1 }

def countRecv : SecureSession := { s with rxCounter := s.rxCounter+1 }

/-- The bytes that `send` writes for one use of the cipher. -/
def Sealed.frame (m : Sealed) : Bytes :=
  toBE 4 (kSecureNonceLen+m.ciphertext.length) ++ (m.nonce ++ m.ciphertext)

section
variable {p : Suite} {c c' : Connection} {plaintext : Bytes}

lemma outcome_sealNext (h : c.session.secure = true) : (sealNext p plaintext).outcome c =
      some ((p.aead.encrypt plaintext [] c.session.txKey
          (buildNonce c.session.txNoncePre (c.session.txCounter+1))).map fun ciphertext =>
        ⟨buildNonce c.session.txNoncePre (c.session.txCounter+1),plaintext,ciphertext⟩,
        { c with session := countSend c.session }) := by
  unfold sealNext setSession ensure
  simp only [outcome_bind,outcome_view,outcome_lift,outcome_update,Option.bind_some,if_pos h]
  cases p.aead.encrypt plaintext [] c.session.txKey
    (buildNonce c.session.txNoncePre (c.session.txCounter+1)) with
  | error e => rfl
  | ok ct => rfl

lemma session_send (h : c.session.secure = true)
    (hsend : (send p plaintext).outcome c = some (r,c')) : c'.session = countSend c.session := by
  rw [send,outcome_bind,outcome_sealNext h,Option.bind_some] at hsend
  cases hct : p.aead.encrypt plaintext [] c.session.txKey
    (buildNonce c.session.txNoncePre (c.session.txCounter+1)) with
  | error e =>
    rw [hct] at hsend
    cases hsend
    rfl
  | ok ct =>
    rw [hct] at hsend
    exact ((keeps_writeAll _ _).bind fun _ => (keeps_writeAll _ _).bind fun _ =>
      keeps_writeAll _ _) _ _ _ hsend rfl

lemma returns_takeFrame (h : Returns takeFrame c enc c') :
    enc.length ≤ kMaxFrame ∧ kSecureNonceLen+16 ≤ enc.length ∧
      enc.take kSecureNonceLen = buildNonce c.session.rxNoncePre (c.session.rxCounter+1) := by
  simp only [takeFrame,returns_bind,returns_view,returns_ensure,returns_pure,and_assoc,exists_and_left,
    exists_eq_left,exists_const] at h
  obtain ⟨-,header,c₁,-,hheader,enc',c₂,henc,htag,hnonce,rfl,-⟩ := h
  exact ⟨by rwa [(took_readAll henc).2],htag,hnonce⟩

lemma recv_cases (h : (recv p).outcome c = some (r,c')) :
    (c'.session = c.session ∧ ∃ e, r = .error e) ∨
    (c'.session = countRecv c.session ∧ ∃ ct, r = p.aead.decrypt ct [] c.session.rxKey
      (buildNonce c.session.rxNoncePre (c.session.rxCounter+1))) := by
  rw [recv,outcome_bind] at h
  obtain ⟨⟨r',d⟩,hframe,h⟩ := Option.bind_eq_some_iff.mp h
  have hsession := keeps_takeFrame c.session _ _ _ hframe rfl
  cases r' with
  | error e =>
    cases h
    exact .inl ⟨hsession,e,rfl⟩
  | ok enc =>
    obtain ⟨-,-,hnonce⟩ := returns_takeFrame hframe
    cases h
    refine .inr ⟨by simp [countRecv,hsession],enc.drop kSecureNonceLen,?_⟩
    simp only [hsession,hnonce]

end

lemma length_buildNonce (h : noncePre.length = kNoncePrefixLen) (n : UInt64) :
    (buildNonce noncePre n).length = kSecureNonceLen := by
  simp [buildNonce,h,kNoncePrefixLen,kSecureNonceLen]

theorem outcome_recv_frame {m : Sealed}
    (hsecure : c.session.secure = true) (hinput : c.socket.input = m.frame ++ rest)
    (hnonce : m.nonce = buildNonce c.session.rxNoncePre (c.session.rxCounter+1))
    (hlen : m.nonce.length = kSecureNonceLen) (htag : 16 ≤ m.ciphertext.length)
    (hsize : kSecureNonceLen+m.ciphertext.length ≤ kMaxFrame) :
    (recv p).outcome c = some (p.aead.decrypt m.ciphertext [] c.session.rxKey m.nonce,
      { c with session := countRecv c.session, socket := { c.socket with input := rest } }) := by
  have hheader : ofBE (toBE 4 (kSecureNonceLen+m.ciphertext.length)) =
      kSecureNonceLen+m.ciphertext.length := ofBE_toBE_of_lt (by
    simp only [kMaxFrame] at hsize
    omega)
  have hframe : Returns takeFrame c (m.nonce ++ m.ciphertext)
      { c with socket := { c.socket with input := rest } } := by
    simp only [takeFrame,returns_bind,returns_view,returns_ensure,returns_pure,and_assoc,
      exists_and_left,exists_eq_left,exists_const]
    refine ⟨hsecure,_,_,returns_readAll (length_toBE 4 _)
      (hinput.trans (append_assoc _ _ _)),by rwa [hheader],_,_,
      returns_readAll (by rw [hheader,length_append,hlen]) rfl,?_,?_,rfl,rfl⟩
    · rw [length_append,hlen]
      omega
    · rw [take_left' hlen,hnonce]
  rw [recv,hframe.outcome_bind]
  simp only [setSession,outcome_bind,outcome_update,outcome_view,outcome_lift,Option.bind_some,
    take_left' hlen,drop_left' hlen,countRecv]

/-! Under attack. -/

def sealedBy (p : Suite) (plaintext : Bytes) (c : Connection) : List Sealed :=
  match (sealNext p plaintext).outcome c with
  | some (.ok m,_) => [m]
  | _ => []

def sendLog (p : Suite) : List Bytes → Connection → List Sealed
  | [],_ => []
  | plaintext::plaintexts,c => sealedBy p plaintext c ++
    match (send p plaintext).outcome c with
    | some (_,c') => sendLog p plaintexts c'
    | none => []

def recvLog (p : Suite) : ℕ → Connection → List Bytes
  | 0,_ => []
  | n+1,c => match (recv p).outcome c with
    | some (.ok plaintext,c') => plaintext::recvLog p n c'
    | some (.error _,c') => recvLog p n c'
    | none => []

/-- Only what the log holds can be decrypted under the key. -/
def IdealAead (aead : AeadImpl) (key : Bytes) (log : List Sealed) : Prop :=
  ∀ nonce ciphertext plaintext, aead.decrypt ciphertext [] key nonce = .ok plaintext →
    ⟨nonce,plaintext,ciphertext⟩ ∈ log

lemma buildNonce_inj :
    buildNonce noncePre n = buildNonce noncePre n' ↔ n = n' := by
  constructor
  · intro h
    have hbe := congrArg ofBE (append_cancel_left h)
    rw [ofBE_toBE_of_lt (by simpa using n.toNat_lt),ofBE_toBE_of_lt (by simpa using n'.toNat_lt)] at hbe
    exact UInt64.toNat_inj.mp hbe
  · rintro rfl
    rfl

lemma ofNat_inj_of_le (hm : m ≤ 2^64) (hn : 0 < n) (hn' : n < 2^64)
    (h : UInt64.ofNat m = UInt64.ofNat n) : m = n := by
  have hmod := congrArg UInt64.toNat h
  rw [UInt64.toNat_ofNat',UInt64.toNat_ofNat'] at hmod
  omega

section
variable {p : Suite} {c : Connection} {plaintext : Bytes} {plaintexts : List Bytes}

lemma counter_succ (h : n = UInt64.ofNat k) : n+1 = UInt64.ofNat (k+1) := by
  rw [h,UInt64.ofNat_add]
  rfl

lemma sealedBy_cases (plaintext : Bytes) (hsecure : c.session.secure = true) :
    sealedBy p plaintext c = [] ∨ ∃ ciphertext, sealedBy p plaintext c =
      [⟨buildNonce c.session.txNoncePre (c.session.txCounter+1),plaintext,ciphertext⟩] := by
  rw [sealedBy,outcome_sealNext hsecure]
  cases p.aead.encrypt plaintext [] c.session.txKey
    (buildNonce c.session.txNoncePre (c.session.txCounter+1)) with
  | error e => exact .inl rfl
  | ok ct => exact .inr ⟨ct,rfl⟩

lemma mem_sendLog (hsecure : c.session.secure = true)
    (hcounter : c.session.txCounter = UInt64.ofNat k) (hm : m ∈ sendLog p plaintexts c) :
    ∃ i, plaintexts[i]? = some m.plaintext ∧
      m.nonce = buildNonce c.session.txNoncePre (UInt64.ofNat (k+i+1)) := by
  induction plaintexts generalizing c k with
  | nil => cases hm
  | cons plaintext plaintexts ih =>
    rcases mem_append.mp hm with hm | hm
    · refine ⟨0,?_⟩
      rcases sealedBy_cases (p := p) plaintext hsecure with h | ⟨ct,h⟩
      · rw [h] at hm
        cases hm
      · rw [h] at hm
        obtain rfl := mem_singleton.mp hm
        exact ⟨rfl,by rw [counter_succ hcounter,Nat.add_zero]⟩
    · cases hsend : (send p plaintext).outcome c with
      | none =>
        rw [hsend] at hm
        cases hm
      | some out =>
        obtain ⟨r,c'⟩ := out
        rw [hsend] at hm
        have hsession := session_send hsecure hsend
        obtain ⟨i,hi,hnonce⟩ := ih (k := k+1) (by rw [hsession]; exact hsecure)
          (by rw [hsession]; exact counter_succ hcounter) hm
        refine ⟨i+1,hi,?_⟩
        rw [hnonce,hsession,countSend]
        congr 2
        omega

lemma nodup_sendLog (hsecure : c.session.secure = true)
    (hcounter : c.session.txCounter = UInt64.ofNat k) (hlen : k+plaintexts.length < 2^64) :
    ((sendLog p plaintexts c).map Sealed.nonce).Nodup := by
  induction plaintexts generalizing c k with
  | nil => exact List.nodup_nil
  | cons plaintext plaintexts ih =>
    rw [List.length_cons] at hlen
    rw [sendLog]
    cases hsend : (send p plaintext).outcome c with
    | none =>
      rcases sealedBy_cases (p := p) plaintext hsecure with h | ⟨ct,h⟩
      · simp [h]
      · simp [h]
    | some out =>
      obtain ⟨r,c'⟩ := out
      have hsession := session_send hsecure hsend
      have hsecure' : c'.session.secure = true := by rw [hsession]; exact hsecure
      have hcounter' : c'.session.txCounter = UInt64.ofNat (k+1) := by
        rw [hsession]
        exact counter_succ hcounter
      have hrest := ih hsecure' hcounter' (by omega)
      rcases sealedBy_cases (p := p) plaintext hsecure with h | ⟨ct,h⟩
      · rwa [h,List.nil_append]
      rw [h,List.singleton_append,List.map_cons,List.nodup_cons]
      refine ⟨?_,hrest⟩
      -- A later call with this nonce would have counted once around.
      intro hmem
      obtain ⟨m,hm,hnonce⟩ := List.mem_map.mp hmem
      obtain ⟨i,hi,hnonce'⟩ := mem_sendLog hsecure' hcounter' hm
      have hlt : i < plaintexts.length := (List.getElem?_eq_some_iff.mp hi).1
      rw [hnonce',hsession,counter_succ hcounter] at hnonce
      have := ofNat_inj_of_le (by omega) (by omega) (by omega) (buildNonce_inj.mp hnonce)
      omega

lemma recvLog_sublist (hopen : ∀ j ct plaintext, j < 2^64 → p.aead.decrypt ct [] key
      (buildNonce noncePre (UInt64.ofNat (j+1))) = .ok plaintext → plaintexts[j]? = some plaintext)
    (hkey : c.session.rxKey = key) (hpre : c.session.rxNoncePre = noncePre)
    (hcounter : c.session.rxCounter = UInt64.ofNat k) (hn : k+n ≤ 2^64) :
    (recvLog p n c).Sublist (plaintexts.drop k) := by
  induction n generalizing c k with
  | zero => exact List.nil_sublist _
  | succ n ih =>
    rw [recvLog]
    cases hrecv : (recv p).outcome c with
    | none => exact List.nil_sublist _
    | some out =>
      obtain ⟨r,c'⟩ := out
      have hnext := counter_succ hcounter
      rcases recv_cases hrecv with ⟨hsession,e,rfl⟩ | ⟨hsession,ct,hr⟩
      · exact ih (by rw [hsession,hkey]) (by rw [hsession,hpre]) (by rw [hsession,hcounter]) (by omega)
      · have hrest : (recvLog p n c').Sublist (plaintexts.drop (k+1)) :=
          ih (by rw [hsession,← hkey]; rfl) (by rw [hsession,← hpre]; rfl) (by rw [hsession,← hnext]; rfl)
            (by omega)
        cases r with
        | error e => exact hrest.trans (List.drop_sublist_drop_left _ (Nat.le_succ k))
        | ok plaintext =>
          rw [hkey,hpre,hnext] at hr
          have hget := hopen k ct plaintext (by omega) hr.symm
          obtain ⟨hlt,hget⟩ := List.getElem?_eq_some_iff.mp hget
          rw [List.drop_eq_getElem_cons hlt,hget]
          exact hrest.cons_cons _

end

/-- Between two ends of an established session, an attacker who delivers whatever bytes can at most
drop messages, as long as the receiver's counter does not come round; and no nonce is used twice. -/
theorem channel_ordered (p : Suite) (a b : Connection) (hlink : Linked a.session b.session)
    (hsecure : a.session.secure = true) (hsent : a.session.txCounter = 0)
    (hreceived : b.session.rxCounter = 0) (plaintexts : List Bytes) (n : ℕ)
    (hsends : plaintexts.length < 2^64) (hrecvs : n ≤ 2^64)
    (hideal : IdealAead p.aead a.session.txKey (sendLog p plaintexts a)) :
    (recvLog p n b).Sublist plaintexts ∧ ((sendLog p plaintexts a).map Sealed.nonce).Nodup := by
  refine ⟨?_,nodup_sendLog (k := 0) hsecure hsent (by omega)⟩
  rw [← List.drop_zero (l := plaintexts)]
  apply recvLog_sublist (k := 0) _ hlink.key.symm hlink.noncePre.symm hreceived (by omega)
  · intro j ct plaintext hj hdec
    obtain ⟨i,hi,hnonce⟩ := mem_sendLog (k := 0) hsecure hsent (hideal _ _ _ hdec)
    have hlt : i < plaintexts.length := (List.getElem?_eq_some_iff.mp hi).1
    have hsame := ofNat_inj_of_le (by omega) (by omega) (by omega) (buildNonce_inj.mp hnonce)
    rw [show j = i by omega]
    exact hi

def zeroPrefix : Bytes := replicate 16 0

def onlyMessage : Sealed := ⟨buildNonce zeroPrefix 1,[5],5::replicate 16 0⟩

def onceSuite : Suite :=
  { openSuite with
    aead := ⟨fun plaintext _ _ _ => .ok (plaintext ++ replicate 16 0),
      fun ciphertext _ _ nonce =>
        if nonce = onlyMessage.nonce ∧ ciphertext = onlyMessage.ciphertext then .ok [5]
        else .error (smoErrCrypto 102 .error .noRetry .none "decryption failed")⟩ }

def receiver (k : ℕ) (input : Bytes) : Connection where
  session := { secure := true, rxNoncePre := zeroPrefix, rxCounter := UInt64.ofNat k }
  socket := { input }

def sender : Connection where
  session := { secure := true, txNoncePre := zeroPrefix }
  socket := { outs := replicate 3 (.wrote 100) }

lemma linked_sender (k : ℕ) (input : Bytes) : Linked sender.session (receiver k input).session :=
  ⟨rfl,rfl,rfl⟩

lemma sendLog_sender : sendLog onceSuite [[5]] sender = [onlyMessage] := rfl

lemma idealAead_onceSuite :
    IdealAead onceSuite.aead sender.session.txKey (sendLog onceSuite [[5]] sender) := by
  intro nonce ciphertext plaintext h
  simp only [onceSuite] at h
  split_ifs at h with hm
  cases h
  rw [sendLog_sender,hm.1,hm.2]
  exact mem_singleton_self _

theorem channel_ordered_once :
    IdealAead onceSuite.aead sender.session.txKey (sendLog onceSuite [[5]] sender) ∧
    (recvLog onceSuite 2 (receiver 0 (onlyMessage.frame ++ onlyMessage.frame))).Sublist [[5]] :=
  ⟨idealAead_onceSuite,(channel_ordered onceSuite sender (receiver 0 _) (linked_sender 0 _) rfl rfl rfl
    [[5]] 2 (by decide) (by decide) idealAead_onceSuite).1⟩

def forged (k : ℕ) : Sealed := ⟨buildNonce zeroPrefix (UInt64.ofNat (k+1)),[],replicate 16 0⟩

def forgeries : ℕ → ℕ → Bytes
  | _,0 => []
  | k,m+1 => (forged k).frame ++ forgeries (k+1) m

lemma countRecv_receiver (k : ℕ) (input input' : Bytes) : ({ receiver k input with
        session := countRecv (receiver k input).session
        socket := { (receiver k input).socket with input := input' } } : Connection) =
      receiver (k+1) input' := by
  simp only [receiver,countRecv,UInt64.ofNat_add]
  rfl

lemma recvLog_forgeries (m n : ℕ) (hk : 1 ≤ k) (hm : k+m ≤ 2^64) (rest : Bytes) :
    recvLog onceSuite (m+n) (receiver k (forgeries k m ++ rest)) =
      recvLog onceSuite n (receiver (k+m) rest) := by
  induction m generalizing k with
  | zero => rw [Nat.zero_add]; rfl
  | succ m ih =>
    have hnonce : (forged k).nonce ≠ onlyMessage.nonce := by
      intro h
      have hsame := ofNat_inj_of_le (n := 1) (by omega) (by omega) (by omega) (buildNonce_inj.mp h)
      omega
    have hinput : (receiver k (forgeries k (m+1) ++ rest)).socket.input =
        (forged k).frame ++ (forgeries (k+1) m ++ rest) := append_assoc _ _ _
    have hout := outcome_recv_frame (p := onceSuite) rfl hinput
      (by simp only [forged,receiver,UInt64.ofNat_add]; rfl) (length_buildNonce rfl _)
      (le_of_eq rfl) (Nat.le_of_ble_eq_true rfl)
    rw [countRecv_receiver] at hout
    rw [show m+1+n = (m+n)+1 by omega,recvLog,hout]
    simp only [onceSuite,hnonce,false_and,if_false]
    rw [show k+(m+1) = k+1+m by omega]
    exact ih (by omega) (by omega)

lemma recvLog_replay {m : ℕ} (hm : m+1 = 2^64) :
    recvLog onceSuite (m+2) (receiver 0 (onlyMessage.frame ++ (forgeries 1 m ++ onlyMessage.frame))) =
      [[5],[5]] := by
  have haccept : ∀ k rest, UInt64.ofNat k = 0 →
      (recv onceSuite).outcome (receiver k (onlyMessage.frame ++ rest)) =
        some (.ok [5],receiver (k+1) rest) := by
    intro k rest hk
    have hout := outcome_recv_frame (p := onceSuite) (m := onlyMessage)
      (c := receiver k (onlyMessage.frame ++ rest)) rfl rfl
      (by simp only [onlyMessage,receiver,hk]; rfl) (length_buildNonce rfl _) (by decide) (by decide)
    rw [countRecv_receiver] at hout
    rw [hout]
    rfl
  have hwrap : UInt64.ofNat (1+m) = 0 := by
    apply UInt64.toNat_inj.mp
    rw [UInt64.toNat_ofNat']
    change (1+m) % 2^64 = 0
    omega
  rw [show m+2 = (m+1)+1 by omega,recvLog,haccept 0 _ rfl]
  dsimp only
  rw [recvLog_forgeries m 1 (by omega) (by omega),recvLog]
  have hlast := haccept (1+m) [] hwrap
  rw [append_nil] at hlast
  rw [hlast]
  rfl

/-- One message is sent and delivered twice, after so many frames that the counter has come round. -/
theorem message_replayed : ∃ input,
    Linked sender.session (receiver 0 input).session ∧
    IdealAead onceSuite.aead sender.session.txKey (sendLog onceSuite [[5]] sender) ∧
    ¬(recvLog onceSuite (2^64+1) (receiver 0 input)).Sublist [[5]] := by
  refine ⟨onlyMessage.frame ++ (forgeries 1 (2^64-1) ++ onlyMessage.frame),linked_sender 0 _,
    idealAead_onceSuite,?_⟩
  rw [show 2^64+1 = (2^64-1)+2 by omega,recvLog_replay (by omega)]
  intro hsub
  exact absurd hsub.length_le (by decide)

end SmoFramework.Transport
