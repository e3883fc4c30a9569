import SmoFramework.Transport.Channel

/-! Messages over an established session when nothing interferes (`core/transport/secure_session`):
which of the messages that `send` and `send_framed` accept arrive. -/
namespace SmoFramework.Transport
open Library Library.BigEndian Library.Attempt List

/-- Decryption undoes encryption; ciphertexts have a tag of 16 bytes. -/
structure AeadImpl.Correct (aead : AeadImpl) : Prop where
  decrypt_encrypt : ∀ {plaintext aad key nonce ciphertext},
    aead.encrypt plaintext aad key nonce = .ok ciphertext →
      aead.decrypt ciphertext aad key nonce = .ok plaintext
  length : ∀ {plaintext aad key nonce ciphertext},
    aead.decrypt ciphertext aad key nonce = .ok plaintext → ciphertext.length = plaintext.length+16

/-! The stream between the two ends. -/

/-- The receiver finds the bytes that the sender puts out between two states. -/
def Delivered (a z b : Connection) : Prop :=
  ∃ wire rest, z.socket.written = a.socket.written ++ wire ∧ b.socket.input = wire ++ rest

variable (base : Bytes)

def Appends (c : Connection) : Prop := base <+: c.socket.written

lemma Delivered.split (h : Delivered a z b)
    (hdata : a'.socket.written = a.socket.written ++ data) (hlater : Appends a'.socket.written z) :
    ∃ rest, b.socket.input = data ++ rest ∧ ∀ b' : Connection, b'.socket.input = rest →
      Delivered a' z b' := by
  obtain ⟨wire,rest,hwire,hinput⟩ := h
  obtain ⟨wire',hwire'⟩ := hlater
  have hcut : wire = data ++ wire' := by
    rw [← hwire',hdata,append_assoc] at hwire
    exact (append_cancel_left hwire).symm
  refine ⟨wire' ++ rest,by rw [hinput,hcut,append_assoc],?_⟩
  intro b' hb'
  exact ⟨wire',rest,hwire'.symm,hb'⟩

lemma appends_writeAll (base data : Bytes) : Keeps (Appends base) (writeAll data) := by
  intro c r c' h hc
  obtain ⟨w,-,hw⟩ := Option.map_eq_some_iff.mp h
  cases hw
  exact hc.trans (prefix_append _ _)

lemma appends_setSession (f : SecureSession → SecureSession) :
    Keeps (Appends base) (setSession f) := Keeps.update fun _ hc => hc

lemma appends_sealNext (p : Suite) (plaintext : Bytes) :
    Keeps (Appends base) (sealNext p plaintext) :=
  (Keeps.view _).bind fun _ => (Keeps.ensure _ _).bind fun _ =>
  (appends_setSession base _).bind fun _ => (Keeps.lift _).bind fun _ => .pure _

lemma appends_send (p : Suite) (plaintext : Bytes) : Keeps (Appends base) (send p plaintext) :=
  (appends_sealNext base p plaintext).bind fun _ => (appends_writeAll base _).bind fun _ =>
  (appends_writeAll base _).bind fun _ => appends_writeAll base _

lemma appends_sendFramed (base payload : Bytes) : Keeps (Appends base) (sendFramed payload) := by
  intro c r c' h hc
  obtain ⟨w,-,hw⟩ := Option.map_eq_some_iff.mp h
  cases hw
  exact hc.trans (prefix_append _ _)

/-! Encrypted messages. -/

section
variable {p : Suite} {a a' z b b' : Connection} {plaintext : Bytes}

lemma returns_send (h : Returns (send p plaintext) a () a') :
    a'.session = countSend a.session ∧ ∃ ciphertext,
      p.aead.encrypt plaintext [] a.session.txKey
        (buildNonce a.session.txNoncePre (a.session.txCounter+1)) = .ok ciphertext ∧
      a'.socket.written = a.socket.written ++ Sealed.frame
        ⟨buildNonce a.session.txNoncePre (a.session.txCounter+1),plaintext,ciphertext⟩ := by
  simp only [send,sealNext,setSession,returns_bind,returns_view,returns_ensure,returns_update,
    returns_lift,returns_pure,and_assoc,exists_and_left,exists_eq_left,exists_const] at h
  obtain ⟨-,_,_,⟨ciphertext,hct,rfl,rfl⟩,_,c₁,h₁,_,c₂,h₂,h₃⟩ := h
  have hwrote := ((wrote_writeAll h₁).trans (wrote_writeAll h₂)).trans (wrote_writeAll h₃)
  refine ⟨hwrote.session,ciphertext,hct,?_⟩
  rw [hwrote.written,Sealed.frame,append_assoc]

/-- The two ends of an established session have come equally far. -/
structure Sync (a z b : Connection) : Prop where
  secure : b.session.secure = true
  linked : Linked a.session b.session
  counter : a.session.txCounter = b.session.rxCounter
  delivered : Delivered a z b

/-- The longest message that `recv` takes. -/
def Fits (plaintext : Bytes) : Prop := kSecureNonceLen+(plaintext.length+16) ≤ kMaxFrame

lemma Sync.recv_fits (hp : p.aead.Correct) (hsync : Sync a z b)
    (hsend : Returns (send p plaintext) a () a') (hlater : Appends a'.socket.written z)
    (hfits : Fits plaintext) : ∃ b', Returns (recv p) b plaintext b' ∧ Sync a' z b' := by
  obtain ⟨hsession,ciphertext,hct,hwritten⟩ := returns_send hsend
  obtain ⟨rest,hinput,hrest⟩ := hsync.delivered.split hwritten hlater
  have hdec := hp.decrypt_encrypt hct
  have hlen := hp.length hdec
  have hnonce : buildNonce a.session.txNoncePre (a.session.txCounter+1) =
      buildNonce b.session.rxNoncePre (b.session.rxCounter+1) := by
    rw [hsync.linked.noncePre,hsync.counter]
  have hout := outcome_recv_frame (p := p) hsync.secure hinput hnonce
    (length_buildNonce hsync.linked.noncePre_length _) (by rw [hlen]; omega) (by rwa [hlen])
  rw [← hsync.linked.key,hdec] at hout
  refine ⟨_,hout,hsync.secure,?_,?_,hrest _ rfl⟩
  · rw [hsession]
    exact ⟨hsync.linked.key,hsync.linked.noncePre,hsync.linked.noncePre_length⟩
  · rw [hsession]
    exact congrArg (·+1) hsync.counter

lemma fits_of_recv (hp : p.aead.Correct) (h : Returns (recv p) b plaintext b') :
    Fits plaintext := by
  obtain ⟨enc,c,hframe,h⟩ := returns_bind.mp h
  obtain ⟨hsize,htag,-⟩ := returns_takeFrame hframe
  simp only [setSession,returns_bind,returns_view,returns_update,returns_lift,and_assoc,exists_and_left,
    exists_eq_left,exists_const] at h
  have hlen := hp.length h.1
  rw [length_drop] at hlen
  unfold Fits
  omega

lemma recv_sent_iff (hp : p.aead.Correct)
    (hsent : Returns (each (send p) plaintexts) a () z) (hsync : Sync a z b) :
    (∃ b', Returns (times (recv p) plaintexts.length) b plaintexts b') ↔
      ∀ plaintext ∈ plaintexts, Fits plaintext := by
  refine times_each_iff Sync ?_ ?_ hsent hsync
  · rintro m a a' z b hm ⟨ms,hms⟩ hsync hfits
    exact hsync.recv_fits hp hm
      (Keeps.each (appends_send a'.socket.written p) ms _ _ _ hms prefix_rfl) hfits
  · intro m a a' z b b' _ _ _ hrecv
    exact fits_of_recv hp hrecv

end

/-! Framed messages. -/

section
variable {a a' z b b' : Connection} {payload : Bytes}

lemma returns_sendFramed (h : Returns (sendFramed payload) a () a') :
    a'.socket.written = a.socket.written ++ (toBE 4 payload.length ++ payload) := by
  obtain ⟨w,hw,hc⟩ := Option.map_eq_some_iff.mp h
  obtain ⟨hres,rfl⟩ := Prod.mk.inj hc
  rw [(Network.sendFramed_ok hw hres).2,Network.frameHeader]

lemma returns_recvFramed (hsecure : b.session.secure = true)
    (hinput : b.socket.input = toBE 4 payload.length ++ payload ++ rest)
    (hsize : payload.length ≤ kMaxFrame) : Returns recvFramed b payload
      { b with socket := { b.socket with input := rest } } := by
  have hheader : ofBE (toBE 4 payload.length) = payload.length := ofBE_toBE_of_lt (by
    simp only [kMaxFrame] at hsize
    omega)
  simp only [recvFramed,returns_bind,returns_view,returns_ensure,and_assoc,exists_and_left,
    exists_eq_left,exists_const]
  exact ⟨hsecure,_,_,returns_readAll (length_toBE 4 _) (hinput.trans (append_assoc _ _ _)),
    by rwa [hheader],returns_readAll hheader.symm rfl⟩

lemma size_of_recvFramed (h : Returns recvFramed b payload b') : payload.length ≤ kMaxFrame := by
  simp only [recvFramed,returns_bind,returns_view,returns_ensure,and_assoc,exists_and_left,
    exists_eq_left,exists_const] at h
  obtain ⟨-,header,c,-,hheader,hpayload⟩ := h
  rwa [(took_readAll hpayload).2]

lemma recvFramed_sent_iff (hsent : Returns (each sendFramed payloads) a () z)
    (hsecure : b.session.secure = true) (hdelivered : Delivered a z b) :
    (∃ b', Returns (times recvFramed payloads.length) b payloads b') ↔
      ∀ payload ∈ payloads, payload.length ≤ kMaxFrame := by
  refine times_each_iff (fun a z b => b.session.secure = true ∧ Delivered a z b) ?_ ?_ hsent
    ⟨hsecure,hdelivered⟩
  · rintro m a a' z b hm ⟨ms,hms⟩ ⟨hsecure,hdelivered⟩ hsize
    obtain ⟨rest,hinput,hrest⟩ := hdelivered.split (returns_sendFramed hm)
      (Keeps.each (appends_sendFramed a'.socket.written) ms _ _ _ hms prefix_rfl)
    exact ⟨_,returns_recvFramed hsecure hinput hsize,hsecure,hrest _ rfl⟩
  · intro m a a' z b b' _ _ _ hrecv
    exact size_of_recvFramed hrecv

end

/-- The messages that one end of an established session has sent arrive at the other end as they are
exactly if none is longer than the receiver's limit, which the sender does not check. -/
theorem channel_roundtrip_iff (p : Suite) (hp : p.aead.Correct) (a z b : Connection)
    (hsync : Sync a z b) (messages : List Bytes) :
    (Attempt.Returns (Attempt.each (send p) messages) a () z →
      ((∃ b', Attempt.Returns (Attempt.times (recv p) messages.length) b messages b') ↔
        ∀ plaintext ∈ messages, kSecureNonceLen+(plaintext.length+16) ≤ kMaxFrame)) ∧
    (Attempt.Returns (Attempt.each sendFramed messages) a () z →
      ((∃ b', Attempt.Returns (Attempt.times recvFramed messages.length) b messages b') ↔
        ∀ payload ∈ messages, payload.length ≤ kMaxFrame)) :=
  ⟨fun hsent => recv_sent_iff hp hsent hsync,
    fun hsent => recvFramed_sent_iff hsent hsync.secure hsync.delivered⟩

def taggingSuite : Suite :=
  { openSuite with
    aead := ⟨fun plaintext _ _ _ => .ok (plaintext ++ List.replicate 16 0),fun ciphertext _ _ _ =>
        if 16 ≤ ciphertext.length then .ok (ciphertext.take (ciphertext.length-16))
        else .error (smoErrCrypto 102 .error .noRetry .none "decryption failed")⟩ }

lemma correct_taggingSuite : taggingSuite.aead.Correct where
  decrypt_encrypt := by
    rintro plaintext aad key nonce _ ⟨⟩
    simp [taggingSuite]
  length := by
    intro plaintext aad key nonce ciphertext h
    simp only [taggingSuite] at h
    split_ifs at h with hlen
    cases h
    rw [length_take]
    omega

def writer (sizes : List ℕ) : Connection :=
  { sender with socket := { outs := sizes.map .wrote } }

lemma sync_writer (sizes : List ℕ) (z : Connection) :
    Sync (writer sizes) z (receiver 0 z.socket.written) where
  secure := rfl
  linked := linked_sender 0 _
  counter := rfl
  delivered := ⟨z.socket.written,[],rfl,(append_nil _).symm⟩

theorem channel_roundtrip_short :
    (∃ z, Attempt.Returns (Attempt.each (send taggingSuite) [[1,2],[]]) (writer [4,24,18,4,24,16]) () z ∧
      ∃ b', Attempt.Returns (Attempt.times (recv taggingSuite) 2) (receiver 0 z.socket.written)
        [[1,2],[]] b') ∧
    ∃ z, Attempt.Returns (Attempt.each sendFramed [[1,2],[]]) (writer [4,2,4]) () z ∧
      ∃ b', Attempt.Returns (Attempt.times recvFramed 2) (receiver 0 z.socket.written) [[1,2],[]] b' :=
  ⟨⟨_,rfl,((channel_roundtrip_iff taggingSuite correct_taggingSuite _ _ _
      (sync_writer [4,24,18,4,24,16] _) [[1,2],[]]).1 rfl).mpr (by decide)⟩,
    _,rfl,((channel_roundtrip_iff taggingSuite correct_taggingSuite _ _ _
      (sync_writer [4,2,4] _) [[1,2],[]]).2 rfl).mpr (by decide)⟩

lemma returns_writeAll (outs : List Network.WriteOutcome)
    (hdata : data ≠ []) (houts : c.socket.outs = .wrote data.length::outs) :
    Returns (writeAll data) c () { c with
      socket := { c.socket with outs, written := c.socket.written ++ data } } := by
  unfold Returns outcome writeAll
  change Option.map _ (Network.writeAll c.socket.outs data) = _
  rw [houts,Network.writeAll_wrote data outs hdata]
  rfl

lemma returns_send_writer (plaintext : Bytes) : ∃ z,
    Returns (each (send taggingSuite) [plaintext]) (writer [4,24,plaintext.length+16]) () z := by
  have hsealed : Returns (sealNext taggingSuite plaintext) (writer [4,24,plaintext.length+16])
      ⟨buildNonce zeroPrefix 1,plaintext,plaintext ++ replicate 16 0⟩ _ := outcome_sealNext rfl
  refine ⟨_,returns_bind.mpr ⟨(),_,returns_bind.mpr ⟨_,_,hsealed,
    returns_bind.mpr ⟨(),_,returns_writeAll [.wrote 24,.wrote (plaintext.length+16)] ?_ ?_,
    returns_bind.mpr ⟨(),_,returns_writeAll [.wrote (plaintext.length+16)] ?_ ?_,
    returns_writeAll [] ?_ ?_⟩⟩⟩,rfl⟩⟩
  · exact ne_nil_of_length_pos (by rw [length_toBE]; omega)
  · rw [length_toBE]
    rfl
  · exact ne_nil_of_length_pos (by rw [length_buildNonce rfl]; decide)
  · rw [length_buildNonce rfl]
    rfl
  · simp
  · rw [length_append]
    rfl

lemma returns_sendFramed_writer (h : payload ≠ []) : ∃ z,
    Returns (each sendFramed [payload]) (writer [4,payload.length]) () z := by
  have hsecure : (⟨true,sender.session.cryptoContext⟩ : Network.SecureSession).secure = true := rfl
  have hframed := Network.sendFramed_wrote hsecure h
  exact ⟨_,returns_bind.mpr ⟨(),_,congrArg (Option.map _) hframed,rfl⟩⟩

def overlong : Bytes := List.replicate (kMaxFrame+1) 0

lemma length_overlong : overlong.length = kMaxFrame+1 := length_replicate

/-- A message over the limit goes out and is refused at the other end, encrypted or not. -/
theorem overlong_message_lost : (∃ z, Attempt.Returns (Attempt.each (send taggingSuite) [overlong])
        (writer [4,24,overlong.length+16]) () z ∧
      ¬∃ b', Attempt.Returns (Attempt.times (recv taggingSuite) 1) (receiver 0 z.socket.written)
        [overlong] b') ∧
    ∃ z, Attempt.Returns (Attempt.each sendFramed [overlong]) (writer [4,overlong.length]) () z ∧
      ¬∃ b', Attempt.Returns (Attempt.times recvFramed 1) (receiver 0 z.socket.written)
        [overlong] b' := by
  constructor
  · obtain ⟨z,hz⟩ := returns_send_writer overlong
    refine ⟨z,hz,fun hrecv => ?_⟩
    have hfits := (recv_sent_iff correct_taggingSuite hz (sync_writer _ z)).mp hrecv overlong
      (mem_singleton_self _)
    unfold Fits at hfits
    rw [length_overlong] at hfits
    omega
  · have hne : overlong ≠ [] := ne_nil_of_length_pos (by rw [length_overlong]; omega)
    obtain ⟨z,hz⟩ := returns_sendFramed_writer hne
    refine ⟨z,hz,fun hrecv => ?_⟩
    have hfits := (recvFramed_sent_iff hz rfl (sync_writer _ z).delivered).mp hrecv overlong
      (mem_singleton_self _)
    rw [length_overlong] at hfits
    omega

end SmoFramework.Transport
