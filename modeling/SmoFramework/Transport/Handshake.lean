import SmoFramework.Transport.SecureSession

/-! The handshake between two sessions (`core/transport/secure_session`): what either side has sent,
received and checked when it completes, the keys on which both sides agree, and who the peer is. -/
namespace SmoFramework.Transport
open Library Library.BigEndian Library.Delegation Library.Attempt List Certificate

/-! A completed handshake. -/

/-- What the client has drawn, sent, received and checked. -/
structure ClientRun (p : Suite) (call : HandshakeCall) (c c' : Connection) where
  kp : KeypairResult
  helloSig : Bytes
  peerPk : Bytes
  ct : Bytes
  peerCert : Bytes
  signature : Bytes
  cert : Certificate
  ss1 : Bytes
  enc2 : EncapsResult
  keypair : p.kem.generateKeypair call.keygen = .ok kp
  signed : p.crypto.sign call.signing (clientHello kp.publicKey)
    c.session.config.clientSigningSecretKey = .ok helloSig
  sent : c'.socket.written = c.socket.written ++ (field kp.publicKey ++
    (field c.session.config.clientCert ++ (field helloSig ++ field enc2.ciphertext)))
  received : c.socket.input = field peerPk ++ (field ct ++ (field peerCert ++ (field signature ++
    c'.socket.input)))
  fits : peerPk.length < 2^16 ∧ ct.length < 2^16 ∧ peerCert.length < 2^16 ∧ signature.length < 2^16
  accepted : verifyPeerCertificate call.nowSec c.session.config peerCert = .ok ()
  parsed : deserialize peerCert = .ok cert
  verified : p.crypto.verify (serverHello kp.publicKey peerPk ct) signature cert.subjectPubkey = .ok true
  opened : p.kem.decapsulate kp.secretKey ct = .ok ss1
  locked : p.kem.encapsulate call.encaps peerPk = .ok enc2
  session : c'.session = deriveKeys p ss1 enc2.sharedSecret kp.publicKey peerPk
    { c.session with localPk := kp.publicKey, localSk := kp.secretKey, peerPk, peerCert }

structure ServerRun (p : Suite) (call : HandshakeCall) (c c' : Connection) where
  peerPk : Bytes
  peerCert : Bytes
  clientSignature : Bytes
  cert : Certificate
  kp : KeypairResult
  enc : EncapsResult
  signature : Bytes
  ct2 : Bytes
  ss2 : Bytes
  received : c.socket.input = field peerPk ++ (field peerCert ++ (field clientSignature ++
    (field ct2 ++ c'.socket.input)))
  fits : peerPk.length < 2^16 ∧ peerCert.length < 2^16 ∧ clientSignature.length < 2^16 ∧
    ct2.length < 2^16
  accepted : verifyPeerCertificate call.nowSec c.session.config peerCert = .ok ()
  parsed : deserialize peerCert = .ok cert
  verified : p.crypto.verify (clientHello peerPk) clientSignature cert.subjectPubkey = .ok true
  keypair : p.kem.generateKeypair call.keygen = .ok kp
  locked : p.kem.encapsulate call.encaps peerPk = .ok enc
  signed : p.crypto.sign call.signing (serverHello peerPk kp.publicKey enc.ciphertext)
    c.session.config.signingSecretKey = .ok signature
  sent : c'.socket.written = c.socket.written ++ (field kp.publicKey ++ (field enc.ciphertext ++
    (field c.session.config.serverCert ++ field signature)))
  opened : p.kem.decapsulate kp.secretKey ct2 = .ok ss2
  session : c'.session = swapKeys (deriveKeys p enc.sharedSecret ss2 peerPk kp.publicKey
    { c.session with peerPk, peerCert, localPk := kp.publicKey, localSk := kp.secretKey })

section
variable {p : Suite} {call : HandshakeCall} {c c' : Connection} {u : Unit}

lemma clientRun_of_returns (h : Returns (clientHandshake p call) c u c') :
    Nonempty (ClientRun p call c c') := by
  simp only [clientHandshake,setSession,checkPeerSignature,returns_bind,returns_lift,returns_update,
    returns_view,returns_ensure,and_assoc,exists_and_left,exists_eq_left,exists_const] at h
  obtain ⟨kp,keypair,_,c₁,hpk,helloSig,signed,_,c₂,hcert,_,c₃,hsig,peerPk,c₄,hpeerPk,ct,c₅,hct,
    peerCert,c₆,hpeerCert,_,accepted,signature,c₇,hsignature,cert,parsed,verified,ss1,opened,enc2,
    locked,_,c₈,hct2,rfl⟩ := h
  have w := ((wrote_writeField hpk).trans (wrote_writeField hcert)).trans (wrote_writeField hsig)
  obtain ⟨r₁,hlen₁⟩ := took_readField hpeerPk
  obtain ⟨r₂,hlen₂⟩ := took_readField hct
  obtain ⟨r₃,hlen₃⟩ := took_readField hpeerCert
  obtain ⟨r₄,hlen₄⟩ := took_readField hsignature
  have w' := wrote_writeField hct2
  refine ⟨{ kp, helloSig, peerPk, ct, peerCert, signature, cert, ss1, enc2, keypair, signed, accepted
            parsed, verified, opened, locked
            fits := ⟨hlen₁,hlen₂,hlen₃,hlen₄⟩
            sent := ?_
            received := ?_
            session := ?_ }⟩
  · have hin : c₇.socket.written = c.socket.written ++
        (field kp.publicKey ++ field c.session.config.clientCert ++ field helloSig) :=
      r₄.written.trans (r₃.written.trans (r₂.written.trans (r₁.written.trans w.written)))
    change c₈.socket.written = _
    rw [w'.written,hin]
    simp only [append_assoc]
  · change c.socket.input = _ ++ (_ ++ (_ ++ (_ ++ c₈.socket.input)))
    rw [w'.input,← r₄.input,← r₃.input,← r₂.input,← r₁.input]
    exact w.input.symm
  · change deriveKeys p ss1 enc2.sharedSecret kp.publicKey peerPk c₈.session = _
    rw [w'.session,r₄.session,r₃.session,r₂.session,r₁.session,w.session]

lemma serverRun_of_returns (h : Returns (serverHandshake p call) c u c') :
    Nonempty (ServerRun p call c c') := by
  simp only [serverHandshake,setSession,checkPeerSignature,returns_bind,returns_lift,returns_update,
    returns_view,returns_ensure,and_assoc,exists_and_left,exists_eq_left,exists_const] at h
  obtain ⟨peerPk,c₁,hpeerPk,peerCert,c₂,hpeerCert,_,accepted,clientSignature,c₃,hclientSig,cert,
    parsed,verified,kp,keypair,enc,locked,signature,signed,_,c₄,hpk,_,c₅,hct,_,c₆,hcert,_,c₇,hsig,
    ct2,c₈,hct2,ss2,opened,rfl⟩ := h
  obtain ⟨r₁,hlen₁⟩ := took_readField hpeerPk
  obtain ⟨r₂,hlen₂⟩ := took_readField hpeerCert
  obtain ⟨r₃,hlen₃⟩ := took_readField hclientSig
  obtain ⟨r₄,hlen₄⟩ := took_readField hct2
  have w := (((wrote_writeField hpk).trans (wrote_writeField hct)).trans
    (wrote_writeField hcert)).trans (wrote_writeField hsig)
  refine ⟨{ kp, peerPk, peerCert, clientSignature, cert, enc, signature, ct2, ss2, keypair, signed
            accepted, parsed, verified, opened, locked
            fits := ⟨hlen₁,hlen₂,hlen₃,hlen₄⟩
            received := ?_
            sent := ?_
            session := ?_ }⟩
  · have hrest : c₃.socket.input = field ct2 ++ c₈.socket.input := w.input.symm.trans r₄.input
    change c.socket.input = _ ++ (_ ++ (_ ++ (_ ++ c₈.socket.input)))
    rw [← hrest,← r₃.input]
    change c.socket.input = field peerPk ++ (field peerCert ++ c₂.socket.input)
    rw [← r₂.input]
    exact r₁.input
  · change c₈.socket.written = _
    have hin : c₃.socket.written = c.socket.written :=
      r₃.written.trans (r₂.written.trans r₁.written)
    rw [r₄.written,w.written]
    change c₃.socket.written ++ _ = _
    rw [hin]
    simp only [append_assoc]
  · change swapKeys (deriveKeys p enc.sharedSecret ss2 peerPk kp.publicKey c₈.session) = _
    rw [r₄.session,w.session,r₃.session,r₂.session,r₁.session]

end

lemma handshake_returns
    (h : Returns (handshake p call) c () c') (hsecure : c.session.secure = false) :
    ∃ d, Returns (roleHandshake p call c.session.config.role) c () d ∧
      c' = { d with session := secured d.session } := by
  obtain ⟨s,_,hs,h⟩ := returns_bind.mp h
  obtain ⟨rfl,rfl⟩ := returns_view.mp hs
  rw [hsecure,if_neg (by decide)] at h
  obtain ⟨_,d,hrole,hset⟩ := returns_bind.mp h
  exact ⟨d,hrole,returns_update.mp hset⟩

/-! Agreement. -/

/-- Decapsulating what was encapsulated for a generated key gives the secret back. -/
def Kem.Correct (kem : Kem) : Prop :=
  ∀ r r' kp enc, kem.generateKeypair r = .ok kp → kem.encapsulate r' kp.publicKey = .ok enc →
    kem.decapsulate kp.secretKey enc.ciphertext = .ok enc.sharedSecret

/-- No field of the handshake is longer than its length prefix can say. -/
structure FieldsFit (p : Suite) (client server : Config) : Prop where
  publicKey : ∀ r kp, p.kem.generateKeypair r = .ok kp → kp.publicKey.length ≤ 65535
  ciphertext : ∀ r pk enc, p.kem.encapsulate r pk = .ok enc → enc.ciphertext.length ≤ 65535
  clientSignature : ∀ r m signature, p.crypto.sign r m client.clientSigningSecretKey = .ok signature →
    signature.length ≤ 65535
  serverSignature : ∀ r m signature, p.crypto.sign r m server.signingSecretKey = .ok signature →
    signature.length ≤ 65535
  clientCert : client.clientCert.length ≤ 65535
  serverCert : server.serverCert.length ≤ 65535

/-- The keys of one direction are the same at its two ends. -/
structure Linked (sender receiver : SecureSession) : Prop where
  key : sender.txKey = receiver.rxKey
  noncePre : sender.txNoncePre = receiver.rxNoncePre
  noncePre_length : sender.txNoncePre.length = kNoncePrefixLen

section
variable {p : Suite} {callC callS : HandshakeCall} {client client' server server' : Connection}

/-- Whatever the two sides have read of each other's fields are those fields. -/
theorem ClientRun.delivered (cr : ClientRun p callC client client')
    (sr : ServerRun p callS server server')
    (hfit : FieldsFit p client.session.config server.session.config)
    (hfromC : client'.socket.written = client.socket.written ++ fromC)
    (hfromS : server'.socket.written = server.socket.written ++ fromS)
    (htoC : client.socket.input = fromS ++ restC) (htoS : server.socket.input = fromC ++ restS) :
    cr.peerPk = sr.kp.publicKey ∧ cr.ct = sr.enc.ciphertext ∧ sr.peerPk = cr.kp.publicKey ∧
      sr.ct2 = cr.enc2.ciphertext := by
  have hlt : ∀ {n : ℕ}, n ≤ 65535 → n < 2^16 := fun h => by omega
  have hsentC := append_cancel_left (hfromC.symm.trans cr.sent)
  have hsentS := append_cancel_left (hfromS.symm.trans sr.sent)
  have hC := cr.received.symm.trans htoC
  have hS := sr.received.symm.trans htoS
  rw [hsentS] at hC
  rw [hsentC] at hS
  simp only [append_assoc] at hC hS
  obtain ⟨hpk,hC⟩ := field_append_inj cr.fits.1 (hlt (hfit.publicKey _ _ sr.keypair)) hC
  obtain ⟨hct,-⟩ := field_append_inj cr.fits.2.1 (hlt (hfit.ciphertext _ _ _ sr.locked)) hC
  obtain ⟨hpk',hS⟩ := field_append_inj sr.fits.1 (hlt (hfit.publicKey _ _ cr.keypair)) hS
  obtain ⟨-,hS⟩ := field_append_inj sr.fits.2.1 (hlt hfit.clientCert) hS
  obtain ⟨-,hS⟩ := field_append_inj sr.fits.2.2.1 (hlt (hfit.clientSignature _ _ _ cr.signed)) hS
  obtain ⟨hct2,-⟩ := field_append_inj sr.fits.2.2.2 (hlt (hfit.ciphertext _ _ _ cr.locked)) hS
  exact ⟨hpk,hct,hpk',hct2⟩

/-- Both sides have the same two secrets, so they derive the same keys. -/
theorem ClientRun.agree (cr : ClientRun p callC client client') (sr : ServerRun p callS server server')
    (hkem : p.kem.Correct) (hpk : cr.peerPk = sr.kp.publicKey) (hct : cr.ct = sr.enc.ciphertext)
    (hpk' : sr.peerPk = cr.kp.publicKey) (hct2 : sr.ct2 = cr.enc2.ciphertext) :
    client'.session.sessionId = server'.session.sessionId ∧
      Linked client'.session server'.session ∧ Linked server'.session client'.session := by
  have hss1 : cr.ss1 = sr.enc.sharedSecret := by
    have hopened := cr.opened
    have hlocked := sr.locked
    rw [hpk'] at hlocked
    rw [hct,hkem _ _ _ _ cr.keypair hlocked] at hopened
    exact (Except.ok.inj hopened).symm
  have hss2 : sr.ss2 = cr.enc2.sharedSecret := by
    have hopened := sr.opened
    have hlocked := cr.locked
    rw [hpk] at hlocked
    rw [hct2,hkem _ _ _ _ sr.keypair hlocked] at hopened
    exact (Except.ok.inj hopened).symm
  rw [cr.session,sr.session,hss1,hss2,hpk,hpk']
  refine ⟨rfl,⟨rfl,rfl,?_⟩,⟨rfl,rfl,?_⟩⟩
  · simp [deriveKeys,kNoncePrefixLen]
  · simp [deriveKeys,swapKeys,kNoncePrefixLen]

/-- A client and a server, neither of them secure yet, whose handshakes complete. -/
structure Completed (p : Suite) (callC callS : HandshakeCall)
    (client client' server server' : Connection) : Prop where
  roleC : client.session.config.role = .client
  roleS : server.session.config.role = .server
  newC : client.session.secure = false
  newS : server.session.secure = false
  ranC : Attempt.Returns (handshake p callC) client () client'
  ranS : Attempt.Returns (handshake p callS) server () server'

lemma Completed.runs (h : Completed p callC callS client client' server server') :
    ∃ c s, Nonempty (ClientRun p callC client c) ∧ Nonempty (ServerRun p callS server s) ∧
      client' = { c with session := secured c.session } ∧
      server' = { s with session := secured s.session } := by
  obtain ⟨c,hc,hclient⟩ := handshake_returns h.ranC h.newC
  obtain ⟨s,hs,hserver⟩ := handshake_returns h.ranS h.newS
  rw [h.roleC] at hc
  rw [h.roleS] at hs
  exact ⟨c,s,clientRun_of_returns hc,serverRun_of_returns hs,hclient,hserver⟩

lemma Completed.agree (h : Completed p callC callS client client' server server')
    (hkem : p.kem.Correct) (hfit : FieldsFit p client.session.config server.session.config)
    (hfromC : client'.socket.written = client.socket.written ++ fromC)
    (hfromS : server'.socket.written = server.socket.written ++ fromS)
    (htoC : client.socket.input = fromS ++ restC) (htoS : server.socket.input = fromC ++ restS) :
    client'.session.sessionId = server'.session.sessionId ∧
      Linked client'.session server'.session ∧ Linked server'.session client'.session := by
  obtain ⟨c,s,⟨cr⟩,⟨sr⟩,rfl,rfl⟩ := h.runs
  obtain ⟨hpk,hct,hpk',hct2⟩ := cr.delivered sr hfit hfromC hfromS htoC htoS
  obtain ⟨hid,hlink,hlink'⟩ := cr.agree sr hkem hpk hct hpk' hct2
  exact ⟨hid,⟨hlink.key,hlink.noncePre,hlink.noncePre_length⟩,
    ⟨hlink'.key,hlink'.noncePre,hlink'.noncePre_length⟩⟩

/-- A client and a server whose handshakes complete and who receive each other's bytes unchanged have
the same session id and the same keys, each one's transmit keys being the other's receive keys. -/
theorem handshakes_agree (p : Suite) (hkem : p.kem.Correct) (callC callS : HandshakeCall)
    (client client' server server' : Connection) (hroleC : client.session.config.role = .client)
    (hroleS : server.session.config.role = .server) (hnewC : client.session.secure = false)
    (hnewS : server.session.secure = false)
    (hfit : FieldsFit p client.session.config server.session.config)
    (hC : Attempt.Returns (handshake p callC) client () client')
    (hS : Attempt.Returns (handshake p callS) server () server') (fromC fromS restC restS : Bytes)
    (hfromC : client'.socket.written = client.socket.written ++ fromC)
    (hfromS : server'.socket.written = server.socket.written ++ fromS)
    (htoC : client.socket.input = fromS ++ restC) (htoS : server.socket.input = fromC ++ restS) :
    client'.session.sessionId = server'.session.sessionId ∧
      client'.session.txKey = server'.session.rxKey ∧
      client'.session.txNoncePre = server'.session.rxNoncePre ∧
      client'.session.rxKey = server'.session.txKey ∧
      client'.session.rxNoncePre = server'.session.txNoncePre := by
  have hcompleted : Completed p callC callS client client' server server' :=
    ⟨hroleC,hroleS,hnewC,hnewS,hC,hS⟩
  obtain ⟨hid,hlink,hlink'⟩ := hcompleted.agree hkem hfit hfromC hfromS htoC htoS
  exact ⟨hid,hlink.key,hlink.noncePre,hlink'.key.symm,hlink'.noncePre.symm⟩

end

/-- Public and secret keys are the same, and the key material is handed on as it is. -/
def openSuite : Suite where
  crypto :=
    { verify := fun _ signature key => .ok (signature = 0::key)
      sign := fun _ _ secret => .ok (0::secret)
      hash := .ok }
  kem :=
    { generateKeypair := fun r => .ok ⟨[UInt8.ofNat r],[UInt8.ofNat r]⟩
      encapsulate := fun r pk => .ok ⟨[UInt8.ofNat r],pk ++ [UInt8.ofNat r]⟩
      decapsulate := fun sk ct => .ok (sk ++ ct) }
  aead := ⟨fun text _ _ _ => .ok (text ++ List.replicate 16 0),fun _ _ _ _ => .ok []⟩
  hkdf _ ikm _ n := ⟨(ikm ++ List.replicate n 0).take n,by simp⟩

lemma kem_correct_openSuite : openSuite.kem.Correct := by
  rintro r r' _ _ ⟨⟩ ⟨⟩
  rfl

def nodeCert (key : UInt8) : Certificate := { subjectPubkey := [key], epoch := 1 }

def clientStart (input : Bytes) : Connection where
  session := { config := { clientCert := (nodeCert 7).serialize, clientSigningSecretKey := [7] } }
  socket := { input, outs := List.replicate 8 (.wrote 100) }

def serverStart (input : Bytes) : Connection where
  session := { config :=
    { role := .server, serverCert := (nodeCert 8).serialize, signingSecretKey := [8] } }
  socket := { input, outs := List.replicate 8 (.wrote 100) }

def clientBytes : Bytes := field [1] ++ (field (nodeCert 7).serialize ++ (field [0,7] ++ field [2]))

def serverBytes : Bytes := field [3] ++ (field [4] ++ (field (nodeCert 8).serialize ++ field [0,8]))

lemma fieldsFit_openSuite : FieldsFit openSuite (clientStart serverBytes).session.config
    (serverStart clientBytes).session.config where
  publicKey := by rintro r _ ⟨⟩; simp
  ciphertext := by rintro r pk _ ⟨⟩; simp
  clientSignature := by rintro r m _ ⟨⟩; decide
  serverSignature := by rintro r m _ ⟨⟩; decide
  clientCert := by decide
  serverCert := by decide

theorem handshakes_agree_open : ∃ client server : Connection,
    Attempt.Returns (handshake openSuite { keygen := 1, encaps := 2 }) (clientStart serverBytes) ()
      client ∧
    Attempt.Returns (handshake openSuite { keygen := 3, encaps := 4 }) (serverStart clientBytes) ()
      server ∧
    client.session.sessionId = server.session.sessionId ∧
    client.session.txKey = server.session.rxKey ∧ client.session.txKey ≠ client.session.rxKey := by
  refine ⟨_,_,rfl,rfl,?_⟩
  have h := handshakes_agree openSuite kem_correct_openSuite { keygen := 1, encaps := 2 }
    { keygen := 3, encaps := 4 } (clientStart serverBytes) _ (serverStart clientBytes) _ rfl rfl rfl
    rfl fieldsFit_openSuite rfl rfl clientBytes serverBytes [] [] rfl rfl rfl rfl
  exact ⟨h.1,h.2.1,by decide⟩

/-! Who the peer is. -/

/-- The owner of the key has signed the exchange. -/
def Possesses (Signed : Bytes → Bytes → Prop) (s : SecureSession) (key : Bytes) : Prop :=
  match s.config.role with
  | .client => ∃ ct, Signed key (serverHello s.localPk s.peerPk ct)
  | .server => Signed key (clientHello s.peerPk)

/-- The certificate of the peer leads to the configured root by signatures that verify, and the owner
of its key has signed the exchange. -/
def Authenticated (p : Suite) (Signed : Bytes → Bytes → Prop) (s : SecureSession) : Prop :=
  ∃ cert, deserialize s.peerCert = .ok cert ∧
    (rules p.crypto (· = s.config.rootPublicKey)).Anchored cert ∧ Possesses Signed s cert.subjectPubkey

def Connection.withRoot (root : Bytes) (c : Connection) : Connection :=
  { c with session := { c.session with config := { c.session.config with rootPublicKey := root } } }

section
variable {root : Bytes}

lemma ignores_writeAll (data : Bytes) : Ignores (Connection.withRoot root) (writeAll data) := by
  intro c
  change (Network.writeAll c.socket.outs data).map _ =
    ((Network.writeAll c.socket.outs data).map _).map _
  rw [Option.map_map]
  rfl

lemma ignores_readAll (n : ℕ) : Ignores (Connection.withRoot root) (readAll n) := by
  rintro ⟨session,input,ending,outs,written⟩
  by_cases h : n ≤ input.length
  · simp [outcome,readAll,Connection.withRoot,ExceptT.run,StateT.run,h]
  · cases ending <;> simp [outcome,readAll,Connection.withRoot,ExceptT.run,StateT.run,h]

lemma ignores_writeField (data : Bytes) : Ignores (Connection.withRoot root) (writeField data) :=
  (ignores_writeAll _).bind fun _ => ignores_writeAll _

lemma ignores_readField : Ignores (Connection.withRoot root) readField :=
  (ignores_readAll _).bind fun _ => ignores_readAll _

lemma ignores_setSession {f : SecureSession → SecureSession}
    (h : ∀ c : Connection, f (c.withRoot root).session =
      (Connection.withRoot root ⟨f c.session,c.socket⟩).session) :
    Ignores (Connection.withRoot root) (setSession f) :=
  .update fun c => congrArg (Connection.mk · c.socket) (h c)

/-- The configured root is never looked at. -/
lemma ignores_handshake (p : Suite) (call : HandshakeCall) :
    Ignores (Connection.withRoot root) (handshake p call) := by
  refine .view (fun s => ?_) fun c => rfl
  split
  · exact .lift (.ok ())
  · refine .bind ?_ fun _ => ignores_setSession fun c => rfl
    cases s.config.role
    all_goals
      -- Either side is a sequence of the calls above, behind one look at its configuration.
      refine .view (fun cfg => ?_) fun c => rfl
      repeat first
        | exact .lift _
        | exact ignores_writeField _
        | exact ignores_readField
        | exact ignores_setSession fun c => rfl
        | refine .bind ?_ fun _ => ?_

end

variable {Signed : Bytes → Bytes → Prop}

lemma handshake_possesses {p : Suite}
    (hsigned : p.crypto.Unforgeable Signed) {call : HandshakeCall} {c c' : Connection}
    (hnew : c.session.secure = false) (h : Returns (handshake p call) c () c') :
    ∃ cert, deserialize c'.session.peerCert = .ok cert ∧
      Possesses Signed c'.session cert.subjectPubkey := by
  obtain ⟨d,hd,rfl⟩ := handshake_returns h hnew
  cases hrole : c.session.config.role with
  | client =>
    rw [hrole] at hd
    obtain ⟨run⟩ := clientRun_of_returns hd
    simp only [Possesses,secured,run.session,deriveKeys,hrole]
    exact ⟨run.cert,run.parsed,run.ct,(hsigned _ _).mp ⟨_,run.verified⟩⟩
  | server =>
    rw [hrole] at hd
    obtain ⟨run⟩ := serverRun_of_returns hd
    simp only [Possesses,secured,run.session,swapKeys,deriveKeys,hrole]
    exact ⟨run.cert,run.parsed,(hsigned _ _).mp ⟨_,run.verified⟩⟩

lemma not_anchored {crypto : CryptoProvider}
    (hsigned : crypto.Unforgeable Signed) {root : Bytes} (hroot : ∀ message, ¬Signed root message)
    (cert : Certificate) : ¬(rules crypto (· = root)).Anchored cert := by
  rintro ⟨rest,path⟩
  induction rest generalizing cert with
  | nil =>
    obtain ⟨hvalid,rfl⟩ := Rules.path_singleton.mp path
    exact hroot _ ((hsigned _ _).mp ⟨_,hvalid⟩)
  | cons next rest ih => exact ih next (Rules.path_cons_cons.mp path).2.2

/-- A handshake that completes has checked that the peer possesses its key, and completes whatever
root is configured: with one that has signed nothing, the peer is not authenticated. -/
theorem handshake_ignores_root (p : Suite) (Signed : Bytes → Bytes → Prop)
    (hsigned : p.crypto.Unforgeable Signed) (call : HandshakeCall) (c c' : Connection)
    (hnew : c.session.secure = false) (h : Attempt.Returns (handshake p call) c () c')
    (root : Bytes) (hroot : ∀ message, ¬Signed root message) :
    (∃ cert, Certificate.deserialize c'.session.peerCert = .ok cert ∧
      Possesses Signed c'.session cert.subjectPubkey) ∧
    (∀ other, Attempt.Returns (handshake p call) (c.withRoot other) () (c'.withRoot other)) ∧
    ¬Authenticated p Signed (c'.withRoot root).session := by
  refine ⟨handshake_possesses hsigned hnew h,fun other => (ignores_handshake p call).returns h,?_⟩
  rintro ⟨cert,-,hanchored,-⟩
  exact not_anchored hsigned hroot cert hanchored

/-- The owner of key 1, the root, has signed nothing. -/
def rootlessSuite : Suite :=
  { openSuite with
    crypto := { openSuite.crypto with
      verify := fun _ signature key => .ok (signature = 0::key ∧ key ≠ [1]) } }

lemma unforgeable_rootlessSuite : rootlessSuite.crypto.Unforgeable fun key _ => key ≠ [1] := by
  intro key message
  simp [rootlessSuite]

def rootedServer : Connection :=
  { serverStart clientBytes with
    session := { (serverStart clientBytes).session with
      config := { (serverStart clientBytes).session.config with rootPublicKey := [1] } } }

theorem handshake_ignores_root_rootless : ∃ c',
    Attempt.Returns (handshake rootlessSuite { keygen := 3, encaps := 4 })
      ((serverStart clientBytes).withRoot [1]) () (Connection.withRoot [1] c') ∧
    ¬Authenticated rootlessSuite (fun key _ => key ≠ [1]) (Connection.withRoot [1] c').session := by
  obtain ⟨-,haccepted,hnot⟩ := handshake_ignores_root rootlessSuite _ unforgeable_rootlessSuite
    { keygen := 3, encaps := 4 } (serverStart clientBytes) _ rfl rfl [1] fun _ h => h rfl
  exact ⟨_,haccepted [1],hnot⟩

/-- A certificate that nobody has signed is accepted. -/
theorem unsigned_peer_accepted : rootedServer.session.config.rootPublicKey = [1] ∧
    rootlessSuite.crypto.Unforgeable (fun key _ => key ≠ [1]) ∧ ∃ c',
    Attempt.Returns (handshake rootlessSuite { keygen := 3, encaps := 4 }) rootedServer () c' ∧
    ¬Authenticated rootlessSuite (fun key _ => key ≠ [1]) c'.session := by
  refine ⟨rfl,unforgeable_rootlessSuite,_,rfl,?_⟩
  rintro ⟨cert,-,hanchored,-⟩
  exact not_anchored unforgeable_rootlessSuite (fun _ h => h rfl) cert hanchored

end SmoFramework.Transport
