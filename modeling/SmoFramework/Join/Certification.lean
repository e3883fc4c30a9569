import SmoFramework.Join.Protocol

/-! What a granted join request binds together: the request that was signed and the one that was
certified, and the role in the certificate and the role in the registry. -/
namespace SmoFramework.Join
open Library
open Authority
open Enroll (JoinToken parseToken validateToken encodeTokenWire signedPayload)
open Genesis (text bytesToHex)

def Answered (p : Platform) (a : MeshAuthority) (call : JoinCall) (s : Server) (req : JoinRequest) :
    Prop := ∃ resp s', processJoinRequest p a call req s = (.ok resp,s')

/-- `registry()` dereferences the pointer that opening the registry has moved from. -/
theorem not_answered_of_openRegistry {a a' : MeshAuthority}
    (h : a.openRegistry outcome = (.ok (),a')) (p : Platform) (call : JoinCall) (s : Server)
    (req : JoinRequest) : ¬Answered p a' call s req := by
  rintro ⟨resp,s',hresp⟩
  obtain ⟨token,crypto,csr,cert,db,hgranted⟩ := processJoinRequest_eq_ok.mp hresp
  have hdb := hgranted.connected
  cases outcome with
  | noConnection message => cases h
  | noSchema message => cases h
  | done =>
    cases h
    cases hdb

theorem not_answered_of_opened : (MeshAuthority.openRegistry .done {}).1 = .ok () ∧
    ∀ p call s req, ¬Answered p (MeshAuthority.openRegistry .done {}).2 call s req :=
  ⟨rfl,@not_answered_of_openRegistry .done {} _ rfl⟩

/-! The request for a certificate. -/

lemma checkCsr_eq_ok : checkCsr crypto req = .ok csr ↔
      CertificateSigningRequest.deserialize (hexToBytes req.csrPem) = .ok csr ∧
      crypto.verify (signedBytes req.token req.timestamp req.nonce req.csrHash)
        req.requestSignature csr.newPublicKey = .ok true := by
  unfold checkCsr
  cases CertificateSigningRequest.deserialize (hexToBytes req.csrPem) with
  | error e => simp
  | ok csr' =>
    dsimp only
    constructor
    · intro h
      split at h
      · rename_i hverify
        cases h
        exact ⟨rfl,hverify⟩
      · cases h
    · rintro ⟨h,hverify⟩
      cases h
      simp [hverify]

lemma authorise_eq_ok :
    authorise p validatedSec a token req = .ok (crypto,csr) ↔
      suiteOf p token = .ok crypto ∧ authenticateToken crypto validatedSec a token = .ok () ∧
      checkCsr crypto req = .ok csr := by
  unfold authorise
  cases suiteOf p token with
  | error e => simp
  | ok crypto' =>
    simp only [bind_eq_ok]
    constructor
    · rintro ⟨u,htoken,csr',hcsr,hpair⟩
      cases hpair
      exact ⟨rfl,htoken,hcsr⟩
    · rintro ⟨h,htoken,hcsr⟩
      cases h
      exact ⟨(),htoken,csr,hcsr,rfl⟩

/-- A signature of a message under a key exists exactly if the owner of the key signed it; a suite is
given by its number. -/
def Unforgeable (p : Platform) (Signed : UInt16 → Bytes → Bytes → Prop) : Prop :=
  ∀ id crypto, p.suites id = .ok crypto → ∀ key message,
    (∃ signature, crypto.verify message signature key = .ok true) ↔ Signed id key message

def listProvider (signed : List (Bytes × Bytes)) : CryptoProvider where
  verify message _ key := .ok (decide ((key,message) ∈ signed))
  sign _ _ _ := .ok [3]
  hash data := .ok [UInt8.ofNat data.length]

def smallCsr : CertificateSigningRequest where
  newPublicKey := [2]
  displayName := [110]
  signature := [9]

def smallAuthority : MeshAuthority where
  initialized := true
  crypto := some (listProvider [([2],smallCsr.serializeBody)])
  authorityPublicKey := [4]
  authoritySecretKey := [5]
  rootPublicKey := [1]
  registry_ := some .opened
  implRegistry := some .opened

/-- Its registry was opened once, and opening it again has failed. -/
example : (({ smallAuthority with initialized := false, registry_ := none, implRegistry := none } :
    MeshAuthority).openRegistry .done).2.openRegistry (.noSchema "database is locked") =
      (.error (smoErr .storage 900 .critical .noRetry .rebootNode "database is locked"),
        smallAuthority) := rfl

variable (role : String)

def smallToken : JoinToken where
  meshId := [109]
  admission := { role := text role }
  issuer := text "root:"
  signature := List.replicate 32 5

variable (csrHash : Bytes)

def smallRequest : JoinRequest where
  token := encodeTokenWire (smallToken role)
  csrPem := bytesToHex smallCsr.serialize
  csrHash
  requestSignature := [7]

def smallSigned : List (Bytes × Bytes) :=
  [([1],signedPayload (smallToken role)),
    ([2],signedBytes (encodeTokenWire (smallToken role)) 0 (.replicate 8 0) csrHash)]

def smallPlatform : Platform where
  nonceHash := id
  suites _ := .ok (listProvider (smallSigned role csrHash))

def smallCertificate : Certificate where
  subjectPubkey := [2]
  issuerPubkey := [4]
  meshId := [109]
  role := .member
  displayName := [110]
  epoch := 1
  notAfter := 31536000
  signature := [3]

lemma signCsr_small : (smallAuthority.signCsr {} (hexToBytes (bytesToHex smallCsr.serialize)) [109]
    {}).1 = .ok smallCertificate := by
  rw [hexToBytes_bytesToHex]
  rfl

lemma authenticateToken_small {crypto : CryptoProvider} {role : String}
    (hverify : crypto.verify (signedPayload (smallToken role)) (smallToken role).signature [1] =
      .ok true) : authenticateToken crypto 0 smallAuthority (smallToken role) = .ok () := by
  have hvalid : validateToken crypto.verify [1] 0 (smallToken role) = .ok () := by
    unfold validateToken
    rw [hverify]
    rfl
  have hkey : issuerKey smallAuthority (smallToken role).issuer = some ([1],[]) := rfl
  unfold authenticateToken
  rw [hkey]
  dsimp only
  rw [hvalid]
  rfl

lemma checkCsr_small :
    checkCsr (listProvider (smallSigned role csrHash)) (smallRequest role csrHash) =
      .ok smallCsr := by
  refine checkCsr_eq_ok.mpr ⟨?_,?_⟩
  · rw [smallRequest,hexToBytes_bytesToHex]
    rfl
  · simp [listProvider,smallSigned,smallRequest,smallCsr]

lemma respond_small : ∃ resp,
    respond {} smallAuthority (smallToken role) (smallRequest role csrHash) smallCertificate =
      .ok resp := by
  have hice : iceCandidates {} (smallRequest role csrHash) = .ok [] :=
    if_neg (not_not.mpr (by decide : (0 : UInt64) &&& capIceLite = 0))
  simp [respond,hice,MeshAuthority.signData,smallAuthority,listProvider]

variable {role}

lemma granted_small (hparse : parseToken (encodeTokenWire (smallToken role)) = .ok (smallToken role)) :
    ∃ resp s', Granted (smallPlatform role csrHash) smallAuthority {} (smallRequest role csrHash) {}
      (smallToken role) (listProvider (smallSigned role csrHash)) smallCsr smallCertificate .opened
      resp s' := by
  obtain ⟨resp,hresp⟩ := respond_small role csrHash
  have htime : ¬((0 : Int64)-0).abs > 30 := by decide
  exact ⟨resp,⟨_,_⟩,{
    admitted := admitRequest_eq_ok.mpr ⟨hparse,htime,by simp [smallToken],rfl⟩
    authorised := authorise_eq_ok.mpr
      ⟨rfl,authenticateToken_small (by simp [listProvider,smallSigned]),checkCsr_small role csrHash⟩
    signed := signCsr_small
    connected := rfl
    registered := rfl
    responded := hresp }⟩

lemma parseToken_smallToken : parseToken (encodeTokenWire (smallToken "Member")) =
    .ok (smallToken "Member") :=
  Enroll.parseToken_wire (by decide) (by decide) (by decide) (by decide) (by decide)

lemma unforgeable_small (role : String) (csrHash : Bytes) :
    Unforgeable (smallPlatform role csrHash) fun _ key message =>
      (key,message) ∈ smallSigned role csrHash := by
  intro id crypto hcrypto key message
  cases hcrypto
  constructor
  · rintro ⟨signature,hverify⟩
    simpa [listProvider] using hverify
  · intro hsigned
    exact ⟨[],by simp [listProvider,hsigned]⟩

lemma answered_small : Answered (smallPlatform "Member" csrHash) smallAuthority {}
    {} (smallRequest "Member" csrHash) := by
  obtain ⟨resp,s',h⟩ := granted_small csrHash parseToken_smallToken
  exact ⟨resp,s',processJoinRequest_eq_ok.mpr ⟨_,_,_,_,_,h⟩⟩

def roleName : Role → String
  | .root => "Root"
  | .authority => "Authority"
  | .contributor => "Contributor"
  | .reader => "Reader"
  | .observer => "Observer"
  | .member => "Member"
  | .recovery => "Recovery"
  | .unnamed _ _ => ""

def RoleAgrees (r : Registry) (cert : Certificate) : Prop :=
  ∀ row, r.findNode (bytesToHex cert.subjectPubkey) = some row → row.role = text (roleName cert.role)

def Registers (a : MeshAuthority) (call : JoinCall) (r : Registry) (nodeIdHex : Bytes) : Prop :=
  a.registry_ = some .opened ∧ call.registerFault = none ∧ r.Admits (cStr nodeIdHex)

lemma findNode_enrolled {r r' : Registry}
    (h : r.Enrolled r' e call) (hrole : e.role = text "Member") (nodeIdHex : Bytes) :
    (∀ row, r'.findNode nodeIdHex = some row → row.role = text "Member") ↔
      ∀ row, r.findNode nodeIdHex = some row → row.role = text "Member" := by
  have hmember : (e.node call.enrolledAt).role = text "Member" := by
    rw [Enrollment.node,hrole]
    rfl
  unfold Registry.findNode
  rw [h.nodes,List.find?_append]
  cases hold : r.nodes.find? fun row => row.nodeIdHex == cStr nodeIdHex with
  | some row => rfl
  | none =>
    refine iff_of_true (fun row hrow => ?_) (fun row hrow => absurd hrow (by simp))
    rw [Option.none_or] at hrow
    rw [List.mem_singleton.mp (List.mem_of_find?_eq_some hrow)]
    exact hmember

lemma registry_signCsr {a : MeshAuthority}
    (h : (a.signCsr call csrBlob meshId r).1 = .ok cert) (nodeIdHex : Bytes) :
    ((a.signCsr call csrBlob meshId r).2.Admits (cStr nodeIdHex) ↔ r.Admits (cStr nodeIdHex)) ∧
    ((∀ row, (a.signCsr call csrBlob meshId r).2.findNode nodeIdHex = some row →
        row.role = text "Member") ↔
      ∀ row, r.findNode nodeIdHex = some row → row.role = text "Member") := by
  obtain ⟨crypto,csr,hcertified,hsame | ⟨e,hmember,hname,henrolled⟩⟩ :=
    MeshAuthority.signCsr_eq_ok h
  · rw [hsame]
    exact ⟨Iff.rfl,Iff.rfl⟩
  · have hnamed := Enrollment.displayName_node_ne_nil hcertified.named hname call.enroll.enrolledAt
    exact ⟨henrolled.admits_iff hnamed _,findNode_enrolled henrolled hmember nodeIdHex⟩

section
variable {p : Platform} {a : MeshAuthority} {call : JoinCall} {req : JoinRequest} {s s' : Server}
  {token : JoinToken} {crypto : CryptoProvider} {csr : CertificateSigningRequest}
  {cert : Certificate} {db : Connection} {resp : JoinResponse}

/-- The certificate is a member's, for the key in the request. -/
theorem Granted.certificate (h : Granted p a call req s token crypto csr cert db resp s') :
    CertificateSigningRequest.deserialize (hexToBytes req.csrPem) = .ok csr ∧
      cert.role = .member ∧ cert.subjectPubkey = csr.newPublicKey := by
  obtain ⟨-,-,hcsr⟩ := authorise_eq_ok.mp h.authorised
  obtain ⟨crypto',csr',hcertified,-⟩ := MeshAuthority.signCsr_eq_ok h.signed
  have hparse := (checkCsr_eq_ok.mp hcsr).1
  cases hparse.symm.trans hcertified.parsed
  obtain ⟨hrole,hkey⟩ := MeshAuthority.issueCertificate_eq_ok hcertified.issued
  exact ⟨hparse,hrole,hkey⟩

/-- The registry after the enrollment has the node's row put in, or stays. -/
theorem Granted.registry (h : Granted p a call req s token crypto csr cert db resp s') :
    (Registers a call s.registry (bytesToHex cert.subjectPubkey) →
      s'.registry.nodes = Registry.replacing (nodeRecord crypto call.nowSec token cert).bound
        (a.signCsr call.sign (hexToBytes req.csrPem) token.meshId s.registry).2.nodes) ∧
    (¬Registers a call s.registry (bytesToHex cert.subjectPubkey) →
      s'.registry = (a.signCsr call.sign (hexToBytes req.csrPem) token.meshId s.registry).2) := by
  have hnodes := nodes_registerNode call.registerFault db
    (rfl : (nodeRecord crypto call.nowSec token cert).displayName = [])
    (a.signCsr call.sign (hexToBytes req.csrPem) token.meshId s.registry).2
  have hregisters : Registers a call s.registry (bytesToHex cert.subjectPubkey) ↔
      db = .opened ∧ call.registerFault = none ∧
        (a.signCsr call.sign (hexToBytes req.csrPem) token.meshId s.registry).2.Admits
          (cStr (bytesToHex cert.subjectPubkey)) := by
    rw [Registers,h.connected,Option.some_inj,(registry_signCsr h.signed _).1]
  rw [hregisters,h.registered]
  exact hnodes

end

/-- An answered request leaves the role of its certificate in the registry exactly if the token
names that role, or, where the node is not registered, if the registry had no other role before. -/
theorem roleAgrees_iff (p : Platform) (a : MeshAuthority) (call : JoinCall) (s s' : Server)
    (req : JoinRequest) (resp : JoinResponse)
    (hresp : processJoinRequest p a call req s = (.ok resp,s')) :
    ∃ token csr cert, parseToken req.token = .ok token ∧
      CertificateSigningRequest.deserialize (hexToBytes req.csrPem) = .ok csr ∧
      resp.certificatePem = bytesToHex cert.serializeFull ∧ cert.subjectPubkey = csr.newPublicKey ∧
      (RoleAgrees s'.registry cert ↔
        (Registers a call s.registry (bytesToHex csr.newPublicKey) →
          cStr token.admission.role = text "Member") ∧
        (¬Registers a call s.registry (bytesToHex csr.newPublicKey) →
          ∀ row, s.registry.findNode (bytesToHex csr.newPublicKey) = some row →
            row.role = text "Member")) := by
  obtain ⟨token,crypto,csr,cert,db,h⟩ := processJoinRequest_eq_ok.mp hresp
  obtain ⟨hparse,hrole,hkey⟩ := h.certificate
  refine ⟨token,csr,cert,(admitRequest_eq_ok.mp h.admitted).1,hparse,
    (respond_eq_ok h.responded).1,hkey,?_⟩
  obtain ⟨hdone,hnot⟩ := h.registry
  rw [RoleAgrees,hrole,← hkey,show roleName .member = "Member" from rfl]
  by_cases hreg : Registers a call s.registry (bytesToHex cert.subjectPubkey)
  · have hfind : s'.registry.findNode (bytesToHex cert.subjectPubkey) =
        some (nodeRecord crypto call.nowSec token cert).bound := by
      rw [Registry.findNode,hdone hreg]
      exact Registry.find_replacing (nodeRecord crypto call.nowSec token cert).bound _
    rw [hfind]
    constructor
    · intro hagrees
      exact ⟨fun _ => hagrees _ rfl,fun hno => absurd hreg hno⟩
    · rintro ⟨hmember,-⟩ row hrow
      cases hrow
      exact hmember hreg
  · rw [hnot hreg,(registry_signCsr h.signed _).2]
    exact ⟨fun hagrees => ⟨fun hyes => absurd hyes hreg,fun _ => hagrees⟩,fun hboth => hboth.2 hreg⟩

theorem roleAgrees_small : ∃ resp s', processJoinRequest (smallPlatform "Member" [39]) smallAuthority {}
    (smallRequest "Member" [39]) {} = (.ok resp,s') ∧ ∃ cert,
      resp.certificatePem = bytesToHex cert.serializeFull ∧ RoleAgrees s'.registry cert := by
  obtain ⟨resp,s',hresp⟩ := answered_small [39]
  obtain ⟨token,csr,cert,hparse,-,hpem,-,hiff⟩ := roleAgrees_iff _ _ _ _ _ _ _ hresp
  cases parseToken_smallToken.symm.trans hparse
  refine ⟨resp,s',hresp,cert,hpem,hiff.mpr ⟨fun _ => rfl,fun _ row hrow => ?_⟩⟩
  cases hrow

/-- A token for an authority: the certificate is a member's. -/
theorem role_disagrees : ∃ resp s', processJoinRequest (smallPlatform "Authority" [39]) smallAuthority
    {} (smallRequest "Authority" [39]) {} = (.ok resp,s') ∧
      resp.certificatePem = bytesToHex smallCertificate.serializeFull ∧
      smallCertificate.role = .member ∧
      (s'.registry.findNode (bytesToHex smallCertificate.subjectPubkey)).map (·.role) =
        some (text "Authority") ∧ ¬RoleAgrees s'.registry smallCertificate := by
  have hparse : parseToken (encodeTokenWire (smallToken "Authority")) = .ok (smallToken "Authority") :=
    Enroll.parseToken_wire (by decide) (by decide) (by decide) (by decide) (by decide)
  obtain ⟨resp,s',h⟩ := granted_small [39] hparse
  have hfind : (s'.registry.findNode (bytesToHex smallCertificate.subjectPubkey)).map (·.role) =
      some (text "Authority") := by
    rw [h.registered]
    rfl
  refine ⟨resp,s',processJoinRequest_eq_ok.mpr ⟨_,_,_,_,_,h⟩,(respond_eq_ok h.responded).1,rfl,
    hfind,fun hagrees => ?_⟩
  obtain ⟨row,hrow,hrole⟩ := Option.map_eq_some_iff.mp hfind
  rw [hagrees row hrow] at hrole
  exact absurd hrole (by decide)

end SmoFramework.Join
