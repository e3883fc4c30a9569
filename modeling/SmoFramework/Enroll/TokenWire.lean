import SmoFramework.Enroll.JoinToken

/-! What is written of a join token is read back: the payload by its decoder, its length by the
scanner, and the wire text by the parser, for tokens of both versions. -/
namespace SmoFramework.Enroll
open Library Library.BigEndian Library.Cursor List JoinToken
open Cbor (Failure Outcome encodeHead)

/-! Maps, pair by pair. -/

section
variable {τ : Type} {data : Bytes}

inductive Reads (data : Bytes) (readValue : τ → UInt64 → Decode τ) :
    List (UInt64 × Bytes) → τ → τ → Prop
  | nil {t : τ} : Reads data readValue [] t t
  | cons {key : UInt64} {word : Bytes} {fields : List (UInt64 × Bytes)} {t t' t'' : τ} :
      Decodes data (readValue t key) word t' → Reads data readValue fields t' t'' →
      Reads data readValue ((key,word)::fields) t t''

variable {readValue : τ → UInt64 → Decode τ} {fields fields' : List (UInt64 × Bytes)} {t t' t'' : τ}

lemma Reads.append (h : Reads data readValue fields t t') (h' : Reads data readValue fields' t' t'') :
    Reads data readValue (fields ++ fields') t t'' := by
  induction h with
  | nil => exact h'
  | cons hvalue _ ih => exact .cons hvalue (ih h')

lemma Reads.one (h : Decodes data (readValue t key) word t') :
    Reads data readValue [(key,word)] t t' := .cons h .nil

/-- A pair that is left out has to be one whose value the record has already. -/
theorem Reads.optional
    (h : present = true → Decodes data (readValue t key) word t') (h' : present = false → t = t') :
    Reads data readValue (optional present (key,word)) t t' := by
  cases present with
  | true => exact .one (h rfl)
  | false =>
    obtain rfl := h' rfl
    exact .nil

end

section
variable {data : Bytes} (hsmall : data.length < 2^63)
include hsmall

variable {fields : List (UInt64 × Bytes)}

lemma Admission.decodes_readPairs
    (h : Reads data (Admission.readValue (plain data)) fields a a') :
    Decodes data (Admission.readPairs (plain data) fields.length a) (fields.flatMap encodePair) a' := by
  induction h with
  | nil => exact .pure _
  | cons hvalue _ ih =>
    rw [flatMap_cons,encodePair,append_assoc,length_cons,Admission.readPairs]
    refine .before_end (by simp [encodeUint,encodeHead_ne_nil]) ?_
    exact (decodes_uint hsmall _).bind (.inside (hvalue.bind ih))

lemma JoinToken.decodes_readPairs
    (h : Reads data (JoinToken.readValue (plain data)) fields t t') :
    Decodes data (JoinToken.readPairs (plain data) fields.length t) (fields.flatMap encodePair) t' := by
  induction h with
  | nil => exact .pure _
  | cons hvalue _ ih =>
    rw [flatMap_cons,encodePair,append_assoc,length_cons,readPairs]
    exact (decodes_uint hsmall _).bind (.inside (hvalue.bind ih))

end

/-! The fields of both records. -/

lemma toInt32_toUInt64 (x : Int32) : x.toInt64.toUInt64.toUInt32.toInt32 = x := by
  have hlow : x.toInt64.toUInt64.toUInt32 = x.toUInt32 := by
    apply UInt32.toBitVec_inj.mp
    apply BitVec.eq_of_getLsbD_eq
    intro i hi
    simp only [UInt64.toBitVec_toUInt32,Int64.toBitVec_toUInt64,Int32.toBitVec_toInt64,
      Int32.toBitVec_toUInt32,BitVec.getLsbD_setWidth,BitVec.getLsbD_signExtend,hi,if_true,
      decide_true,Bool.true_and]
    simp [hi.trans (by decide : 32 < 64)]
  rw [hlow,Int32.toInt32_toUInt32]

lemma eq_neg_one_of_neg {x : Int32} (h : -1 ≤ x) (hneg : ¬x ≥ 0) : x = -1 := by
  apply Int32.toInt_inj.mp
  rw [Int32.le_iff_toInt_le] at h
  rw [ge_iff_le,Int32.le_iff_toInt_le] at hneg
  simp only [Int32.reduceToInt] at h hneg ⊢
  omega

lemma eq_zero_of_not_pos {x : Int64} (h : 0 ≤ x) (hpos : ¬x > 0) : x = 0 := by
  apply Int64.toInt_inj.mp
  rw [Int64.le_iff_toInt_le] at h
  rw [gt_iff_lt,Int64.lt_iff_toInt_lt] at hpos
  simp only [Int64.reduceToInt] at h hpos ⊢
  omega

lemma length_admission_fields (a : Admission) : a.fields.length ≤ 3 := by
  unfold Admission.fields optional
  split_ifs <;> simp

section
variable {data : Bytes} (hsmall : data.length < 2^63)
include hsmall

lemma Admission.reads_fields {a : Admission} (hslot : -1 ≤ a.slot) :
    Reads data (Admission.readValue (plain data)) a.fields {} a := by
  have hrole : Reads data (Admission.readValue (plain data)) [(1,encodeText a.role)] {} { role := a.role } :=
    .one (decodes_text hsmall a.role).bind_pure
  have hprofile : Reads data (Admission.readValue (plain data))
      (optional (a.profile ≠ []) (2,encodeText a.profile)) { role := a.role }
      { role := a.role, profile := a.profile } := by
    refine .optional (fun _ => (decodes_text hsmall a.profile).bind_pure) fun hnil => ?_
    rw [show a.profile = [] by simpa using hnil]
  have hslot' : Reads data (Admission.readValue (plain data))
      (optional (a.slot ≥ 0) (3,encodeUint a.slot.toInt64.toUInt64))
      { role := a.role, profile := a.profile } a := by
    refine .optional (fun _ => ?_) fun hneg => ?_
    · have h := (decodes_uint hsmall a.slot.toInt64.toUInt64).bind_pure
        (g := fun slot => { a with slot := slot.toUInt32.toInt32 })
      rw [toInt32_toUInt64] at h
      exact h
    · have hslot'' := eq_neg_one_of_neg hslot (of_decide_eq_false hneg)
      cases a
      cases hslot''
      rfl
  exact hrole.append (hprofile.append hslot')

lemma Admission.decodes (hslot : -1 ≤ a.slot) :
    Decodes data (Admission.deserialize (plain data)) a.serialize a := by
  have hlen := length_admission_fields a
  have hlt : a.fields.length < 2^64 := by omega
  exact (decodes_map hsmall hlt).bind
    (Admission.decodes_readPairs hsmall (Admission.reads_fields hsmall hslot))

lemma decodes_texts (texts : List Bytes) :
    Decodes data (JoinToken.decodeTexts (plain data) texts.length) (texts.flatMap encodeText) texts := by
  induction texts with
  | nil => exact .pure _
  | cons s texts ih => exact (decodes_text hsmall s).bind ih.bind_pure

end

lemma length_le_flatMap (texts : List Bytes) : texts.length ≤ (texts.flatMap encodeText).length := by
  induction texts with
  | nil => simp
  | cons s texts ih =>
    have hpos : 0 < (encodeText s).length := by
      simp [encodeText,length_pos_iff,encodeHead_ne_nil]
    rw [flatMap_cons,length_append,length_cons]
    omega

section
variable {data : Bytes} (hsmall : data.length < 2^63)
include hsmall

lemma decodes_endpoints {α : Type} {f : ℕ → Decode α} {texts : List Bytes} {a : α}
    (h : Decodes data (f texts.length) (texts.flatMap encodeText) a) :
    Decodes data (decodeArray data >>= f)
      (encodeArray texts.length ++ texts.flatMap encodeText) a := by
  intro p hp
  have hle := hp.le
  have hcount := length_le_flatMap texts
  rw [length_append] at hle
  have hlt : texts.length < 2^64 := by omega
  exact ((decodes_array hsmall hlt).bind h) p hp

lemma JoinToken.reads_fields {t : JoinToken} (hexpiry : 0 ≤ t.expiryUnixSec)
    (hslot : -1 ≤ t.admission.slot) (hsig : t.signature = []) :
    Reads data (JoinToken.readValue (plain data)) t.fields {} t := by
  -- the fields in front of the admission, as the decoder casts them
  let head : JoinToken := {
    version := t.version.toUInt64.toUInt8
    meshId := t.meshId
    meshEpoch := t.meshEpoch.toUInt64.toInt64
    cipherSuiteId := t.cipherSuiteId.toInt64.toUInt64.toUInt32.toInt32
    bootstrapEndpoints := t.bootstrapEndpoints }
  have hcasts : { head with admission := t.admission } =
      { t with expiryUnixSec := 0, nonce := [], issuer := [] } := by
    simp only [head]
    rw [toInt32_toUInt64,Int64.toInt64_toUInt64,UInt8.toUInt8_toUInt64,← hsig]
  have hadmission : Decodes data (readValue (plain data) head 6) t.admission.serialize
      { t with expiryUnixSec := 0, nonce := [], issuer := [] } := by
    rw [← hcasts]
    exact decodes_peekMajor (by decide) (Admission.decodes hsmall hslot).bind_pure
  have hexp : Reads data (readValue (plain data))
      (optional (t.expiryUnixSec > 0) (7,encodeUint t.expiryUnixSec.toUInt64))
      { t with expiryUnixSec := 0, nonce := [], issuer := [] } { t with nonce := [], issuer := [] } := by
    refine .optional (fun _ => ?_) fun hzero => ?_
    · have h := (decodes_uint hsmall t.expiryUnixSec.toUInt64).bind_pure
        (g := fun e => { t with expiryUnixSec := e.toInt64, nonce := [], issuer := [] })
      rw [Int64.toInt64_toUInt64] at h
      exact h
    · rw [eq_zero_of_not_pos hexpiry (of_decide_eq_false hzero)]
  have hissuer : Reads data (readValue (plain data))
      (optional (t.issuer ≠ []) (9,encodeText t.issuer)) { t with issuer := [] } t := by
    refine .optional (fun _ => (decodes_text hsmall t.issuer).bind_pure) fun hnil => ?_
    have hnil' : t.issuer = [] := by simpa using hnil
    rw [← hnil']
  have hsignature : Reads data (readValue (plain data))
      (optional (t.signature ≠ []) (10,encodeBytes t.signature)) t t :=
    .optional (fun hne => absurd hsig (by simpa using hne)) fun _ => rfl
  exact (Reads.one (decodes_uint hsmall _).bind_pure).append <|
    (Reads.one (decodes_text hsmall _).bind_pure).append <|
    (Reads.one (decodes_uint hsmall _).bind_pure).append <|
    (Reads.one (decodes_uint hsmall _).bind_pure).append <|
    (Reads.one (decodes_endpoints hsmall (decodes_texts hsmall _).bind_pure)).append <|
    (Reads.one hadmission).append <| hexp.append <|
    (Reads.one (decodes_text hsmall _).bind_pure).append <| hissuer.append hsignature

end

lemma length_token_fields (t : JoinToken) : 0 < t.fields.length ∧ t.fields.length ≤ 10 := by
  unfold fields optional
  split_ifs <;> simp

lemma deserializePayload_serializePayload {t : JoinToken} (hexpiry : 0 ≤ t.expiryUnixSec)
    (hslot : -1 ≤ t.admission.slot) (hsig : t.signature = [])
    (hsmall : t.serializePayload.length < 2^63) :
    JoinToken.deserializePayload t.serializePayload = .ok t := by
  have hlen := length_token_fields t
  have hlt : t.fields.length < 2^64 := by omega
  have hpairs := decodes_readPairs hsmall (reads_fields hsmall hexpiry hslot hsig)
  have hread : Decodes t.serializePayload (readPayload (plain t.serializePayload))
      t.serializePayload t := by
    refine (decodes_map hsmall hlt).bind ?_
    rw [if_neg (by omega)]
    exact hpairs
  have hstart := Holds.start t.serializePayload []
  rw [append_nil] at hstart
  rw [deserializePayload,StateT.run'_eq,hread 0 hstart]
  rfl

/-! The scanner. -/

lemma forall_mem_optional {P : UInt64 × Bytes → Prop}
    (h : P field) : ∀ f ∈ optional present field, P f := by
  cases present with
  | true => exact forall_mem_singleton.mpr h
  | false => exact fun f hf => absurd hf not_mem_nil

section
variable {data : Bytes} (hsmall : data.length < 2^63)
include hsmall

lemma decodes_scanPair (noKey noValue : String)
    (hne : word ≠ []) (h : Decodes data value word ()) :
    Decodes data (scanPair (plain data) noKey noValue value) (encodePair (key,word)) () := by
  refine .before_end (by simp [encodePair,encodeUint,encodeHead_ne_nil]) ?_
  exact (decodes_uint hsmall key).bind (.before_end hne h)

variable (other : UInt8 → Decode Unit)

lemma decodes_scanUint (val : UInt64) :
    Decodes data (scanScalar (plain data) other) (encodeUint val) () := by
  have h : Decodes data (scanScalar (plain data) other) (encodeHead 0 val ++ []) () :=
    decodes_peekMajor (by decide) (by
      rw [append_nil]
      exact (decodes_uint hsmall val).bind_pure)
  rwa [append_nil] at h

lemma decodes_scanText (s : Bytes) :
    Decodes data (scanScalar (plain data) other) (encodeText s) () :=
  decodes_peekMajor (by decide) (decodes_text hsmall s).bind_pure

lemma decodes_scanBytes (b : Bytes) :
    Decodes data (scanScalar (plain data) other) (encodeBytes b) () :=
  decodes_peekMajor (by decide) (decodes_bytes hsmall b).bind_pure

lemma decodes_scanTexts (texts : List Bytes) :
    Decodes data (times (scanElement (plain data)) texts.length) (texts.flatMap encodeText) () :=
  .times fun s _ => .before_end (by simp [encodeText,encodeHead_ne_nil]) (decodes_scanText hsmall _ s)

lemma decodes_scanNested (a : Admission) :
    Decodes data (times (scanNested (plain data)) a.fields.length) (a.fields.flatMap encodePair) () := by
  refine .times ?_
  simp only [Admission.fields,forall_mem_append,forall_mem_singleton]
  refine ⟨?_,forall_mem_optional ?_,forall_mem_optional ?_⟩
  · exact decodes_scanPair hsmall _ _ (by simp [encodeText,encodeHead_ne_nil])
      (decodes_scanText hsmall _ _)
  · exact decodes_scanPair hsmall _ _ (by simp [encodeText,encodeHead_ne_nil])
      (decodes_scanText hsmall _ _)
  · exact decodes_scanPair hsmall _ _ (encodeHead_ne_nil _ _) (decodes_scanUint hsmall _ _)

lemma decodes_scanFields (t : JoinToken) :
    Decodes data (times (scanField (plain data)) t.fields.length) (t.fields.flatMap encodePair) () := by
  have huint : ∀ key val, Decodes data (scanField (plain data)) (encodePair (key,encodeUint val)) () :=
    fun _ val => decodes_scanPair hsmall _ _ (encodeHead_ne_nil _ _) (decodes_scanUint hsmall _ val)
  have htext : ∀ key s, Decodes data (scanField (plain data)) (encodePair (key,encodeText s)) () :=
    fun _ s => decodes_scanPair hsmall _ _ (by simp [encodeText,encodeHead_ne_nil])
      (decodes_scanText hsmall _ s)
  refine .times ?_
  simp only [fields,forall_mem_append,forall_mem_singleton]
  refine ⟨huint _ _,htext _ _,huint _ _,huint _ _,?_,?_,forall_mem_optional (huint _ _),htext _ _,
    forall_mem_optional (htext _ _),forall_mem_optional ?_⟩
  · refine decodes_scanPair hsmall _ _ (by simp [encodeArray,encodeHead_ne_nil]) ?_
    exact decodes_peekMajor (by decide) (decodes_endpoints hsmall (decodes_scanTexts hsmall _))
  · refine decodes_scanPair hsmall _ _
      (by simp [Admission.serialize,encodeFields,encodeMap,encodeHead_ne_nil]) ?_
    have hlen := length_admission_fields t.admission
    have hlt : t.admission.fields.length < 2^64 := by omega
    exact decodes_peekMajor (by decide) ((decodes_map hsmall hlt).bind (decodes_scanNested hsmall _))
  · exact decodes_scanPair hsmall _ _ (by simp [encodeBytes,encodeHead_ne_nil])
      (decodes_scanBytes hsmall _ _)

lemma calculatePayloadLen_serializePayload {t : JoinToken} (h : Holds data 0 t.serializePayload) :
    calculatePayloadLen data = .ok t.serializePayload.length := by
  have hlen := length_token_fields t
  have hlt : t.fields.length < 2^64 := by omega
  have hne : t.serializePayload ≠ [] := by
    simp [serializePayload,encodeFields,encodeMap,encodeHead_ne_nil]
  have hend := h.le
  have hpos := length_pos_iff.mpr hne
  have hmap := decodes_map hsmall hlt 0 h.left
  have hfields := decodes_scanFields hsmall t _ h.right
  have hrun : (scanPayload (plain data)).run 0 = .ok (t.serializePayload.length,t.serializePayload.length) := by
    unfold scanPayload notAtEnd
    change (if 0 ≥ data.length then failScan (plain data) "Empty CBOR payload" else _ : Decode ℕ).run 0 = _
    rw [if_neg (by omega),StateT.run_bind,hmap]
    change (if t.fields.length = 0 then failScan (plain data) "Join Token: expected CBOR map"
      else times (scanField (plain data)) t.fields.length >>= fun _ => get : Decode ℕ).run
        (0+(encodeMap t.fields.length).length) = _
    rw [if_neg (by omega),StateT.run_bind,hfields,Nat.zero_add,← length_append]
    rfl
  rw [calculatePayloadLen,StateT.run'_eq,hrun]
  rfl

end

/-! The parser. -/

lemma parseToken_payload {u : JoinToken} (hexpiry : 0 ≤ u.expiryUnixSec)
    (hslot : -1 ≤ u.admission.slot) (hsig : u.signature = [])
    (hlong : 31 ≤ rest.length+u.serializePayload.length)
    (hsmall : (u.serializePayload ++ hi::lo::rest).length < 2^63) :
    parseToken (kPrefix ++ base64urlEncode (u.serializePayload ++ hi::lo::rest)) =
      let raw := u.serializePayload ++ hi::lo::rest
      let sigLen := (read16 hi lo).toNat
      if sigLen < 8 ∨ sigLen > 8192 then
        parseWith (raw.take (raw.length-32)) (raw.drop (raw.length-32))
      else if rest.length ≠ sigLen then .error (.error (tokenErr "Token length mismatch"))
      else .ok { u with signature := rest } := by
  have hkPrefix : kPrefix.length = 9 := by decide
  have hraw : base64urlDecode ((kPrefix ++
      base64urlEncode (u.serializePayload ++ hi::lo::rest)).drop 9) =
        u.serializePayload ++ hi::lo::rest := by
    rw [drop_left' hkPrefix]
    exact Base64.decode_encode base64url _
  have hscan := calculatePayloadLen_serializePayload hsmall (Holds.start u.serializePayload _)
  have hlen : (u.serializePayload ++ hi::lo::rest).length =
      u.serializePayload.length+2+rest.length := by
    simp only [length_append,length_cons]
    omega
  have hhi : (u.serializePayload ++ hi::lo::rest).getD u.serializePayload.length 0 = hi := by simp
  have hlo : (u.serializePayload ++ hi::lo::rest).getD (u.serializePayload.length+1) 0 = lo := by
    simp
  have hdrop : (u.serializePayload ++ hi::lo::rest).drop (u.serializePayload.length+2) = rest := by
    rw [← drop_drop,drop_left]
    rfl
  have hread := deserializePayload_serializePayload hexpiry hslot hsig (by omega)
  unfold parseToken
  rw [if_neg (by rw [length_append,take_left' hkPrefix]; simp [hkPrefix])]
  simp only [hraw,hscan]
  rw [if_neg (by omega),if_neg (by omega),hhi,hlo,if_neg (by omega : ¬ _ < 32),take_left,hdrop]
  by_cases hfall : (read16 hi lo).toNat < 8 ∨ (read16 hi lo).toNat > 8192
  · rw [if_pos hfall,if_pos hfall]
  · rw [if_neg hfall,if_neg hfall,hlen]
    by_cases hne : rest.length = (read16 hi lo).toNat
    · rw [if_neg (by omega),if_neg (not_not.mpr hne),parseWith,hread]
      rfl
    · rw [if_pos (by omega),if_pos hne]

lemma length_raw_le (raw : Bytes) : raw.length ≤ (kPrefix ++ base64urlEncode raw).length := by
  have hle := Base64.length_le_length_encode base64url raw
  rw [length_append,base64urlEncode]
  omega

lemma encodeTokenWire_eq (t : JoinToken) : encodeTokenWire t = kPrefix ++ base64urlEncode
    (({ t with signature := [] } : JoinToken).serializePayload ++
      (UInt16.ofNat t.signature.length >>> 8).toUInt8::
        (UInt16.ofNat t.signature.length &&& 0xFF).toUInt8::t.signature) := rfl

/-- A token comes back from its wire text. -/
theorem parseToken_wire {t : JoinToken} (hsig : 32 ≤ t.signature.length)
    (hsig' : t.signature.length ≤ 8192) (hexpiry : 0 ≤ t.expiryUnixSec)
    (hslot : -1 ≤ t.admission.slot) (hsmall : (encodeTokenWire t).length < 2^63) :
    parseToken (encodeTokenWire t) = .ok t := by
  have hlen : (UInt16.ofNat t.signature.length).toNat = t.signature.length :=
    UInt16.toNat_ofNat_of_lt' (lt_of_le_of_lt hsig' (by decide))
  rw [encodeTokenWire_eq] at hsmall ⊢
  have hraw := length_raw_le (({ t with signature := [] } : JoinToken).serializePayload ++
    (UInt16.ofNat t.signature.length >>> 8).toUInt8::
      (UInt16.ofNat t.signature.length &&& 0xFF).toUInt8::t.signature)
  rw [parseToken_payload (u := { t with signature := [] }) hexpiry hslot rfl (by omega) (by omega)]
  dsimp only
  rw [read16_write16,hlen,if_neg (by omega),if_neg (not_not.mpr rfl)]

/-! Tokens that were issued. -/

section
variable {meshId : Bytes} {meshEpoch : Int64} {cipherSuiteId : Int32} {endpoints : List Bytes}
  {expiry : Int64} {nonce : Bytes} {t : JoinToken}

lemma generateToken_eq_ok {admission : Admission} {issuer : Bytes} {sign : Bytes → Result Bytes}
    (h : generateToken meshId meshEpoch cipherSuiteId endpoints admission expiry issuer nonce sign =
      .ok t) :
    sign (signedPayload t) = .ok t.signature ∧ t.issuer = issuer ∧ t.expiryUnixSec = expiry ∧
      t.admission = admission := by
  unfold generateToken at h
  dsimp only at h
  split at h
  · cases h
  · rename_i signature hsign
    cases h
    exact ⟨hsign,rfl,rfl,rfl⟩

/-- From the issuer to the wire and back: the token is accepted until it expires. -/
theorem validateToken_generateToken {admission : Admission} {issuer key : Bytes}
    {sign : Bytes → Result Bytes} {verify : Bytes → Bytes → Bytes → Result Bool}
    (h : generateToken meshId meshEpoch cipherSuiteId endpoints admission expiry issuer nonce sign =
      .ok t)
    (hverify : ∀ message signature, sign message = .ok signature →
      verify message signature key = .ok true)
    (hissuer : issuer ≠ []) (hsig : 32 ≤ t.signature.length) (hsig' : t.signature.length ≤ 8192)
    (hexpiry : 0 ≤ expiry) (hslot : -1 ≤ admission.slot) (hsmall : (encodeTokenWire t).length < 2^63)
    (nowSec : Int64) :
    ∃ parsed, parseToken (encodeTokenWire t) = .ok parsed ∧ tokenIsV1 parsed = false ∧
      (validateToken verify key nowSec parsed = .ok () ↔ ¬(expiry > 0 ∧ nowSec > expiry)) := by
  obtain ⟨hsign,rfl,rfl,rfl⟩ := generateToken_eq_ok h
  refine ⟨t,parseToken_wire hsig hsig' hexpiry hslot hsmall,by simp [tokenIsV1,hissuer],?_⟩
  have hne : t.signature ≠ [] := List.ne_nil_of_length_pos (by omega)
  unfold validateToken
  rw [if_neg hissuer,if_neg hne,hverify _ _ hsign]
  split_ifs with hexpired
  · exact iff_of_false (by simp) (not_not.mpr hexpired)
  · exact iff_of_true rfl hexpired

end

theorem validateToken_generateToken_small : let t : JoinToken :=
      { expiryUnixSec := 9, issuer := [1], signature := List.replicate 32 5 }
    ∃ parsed, parseToken (encodeTokenWire t) = .ok parsed ∧ tokenIsV1 parsed = false ∧
      (validateToken (fun _ _ _ => .ok true) [] 9 parsed = .ok () ↔ ¬((9 : Int64) > 0 ∧ (9 : Int64) > 9)) :=
  validateToken_generateToken
    (show generateToken [] 0 0 [] {} 9 [1] [] (fun _ => .ok (List.replicate 32 5)) = _ from rfl)
    (fun _ _ _ => rfl) (by decide) (by decide) (by decide) (by decide) (by decide) (by decide) 9

/-- Every token that fits in memory comes back from its wire text, and the bytes whose signature is
checked then are those that were signed. -/
theorem parseToken_encodeTokenWire (t : JoinToken) (hsig : 32 ≤ t.signature.length)
    (hsig' : t.signature.length ≤ 8192) (hexpiry : 0 ≤ t.expiryUnixSec)
    (hslot : -1 ≤ t.admission.slot) (hsmall : (encodeTokenWire t).length < 2^63) :
    parseToken (encodeTokenWire t) = .ok t ∧
    (∀ parsed, parseToken (encodeTokenWire t) = .ok parsed →
      signedPayload parsed = ({ t with signature := [] } : JoinToken).serializePayload) ∧
    ∀ (meshId : Bytes) (meshEpoch : Int64) (cipherSuiteId : Int32) (endpoints : List Bytes)
      (admission : Admission) (expiry : Int64) (issuer nonce : Bytes) (sign : Bytes → Result Bytes),
      generateToken meshId meshEpoch cipherSuiteId endpoints admission expiry issuer nonce sign =
        .ok t →
      sign ({ t with signature := [] } : JoinToken).serializePayload = .ok t.signature := by
  have hparse := parseToken_wire hsig hsig' hexpiry hslot hsmall
  refine ⟨hparse,fun parsed hparsed => ?_,fun _ _ _ _ _ _ _ _ sign hgen => ?_⟩
  · cases hparse.symm.trans hparsed
    rfl
  · exact (generateToken_eq_ok hgen).1

theorem parseToken_encodeTokenWire_small :
    parseToken (encodeTokenWire { meshId := [109], bootstrapEndpoints := [[97],[98,99]],
                                  expiryUnixSec := 1000, issuer := [114],
                                  signature := List.replicate 32 5 }) =
      .ok { meshId := [109], bootstrapEndpoints := [[97],[98,99]], expiryUnixSec := 1000,
            issuer := [114], signature := List.replicate 32 5 } :=
  (parseToken_encodeTokenWire _ (by decide) (by decide) (by decide) (by decide) (by decide)).1

/-! Tokens of the first version end in 32 bytes without a length. -/

def legacyTokenWire (t : JoinToken) (tag : Bytes) : Bytes :=
  kPrefix ++ base64urlEncode (({ t with signature := [] } : JoinToken).serializePayload ++ tag)

def tagLength (tag : Bytes) : ℕ := (tag.getD 0 0).toNat*256+(tag.getD 1 0).toNat

lemma parseToken_tag {u : JoinToken} (hexpiry : 0 ≤ u.expiryUnixSec)
    (hslot : -1 ≤ u.admission.slot) (hsig : u.signature = []) (htag : tag.length = 32)
    (hsmall : (u.serializePayload ++ tag).length < 2^63) :
    parseToken (kPrefix ++ base64urlEncode (u.serializePayload ++ tag)) =
      if tagLength tag < 8 ∨ tagLength tag > 8192 then .ok { u with signature := tag }
      else if 30 ≠ tagLength tag then .error (.error (tokenErr "Token length mismatch"))
      else .ok { u with signature := tag.drop 2 } := by
  obtain ⟨hi,lo,rest,rfl⟩ : ∃ hi lo rest, tag = hi::lo::rest := by
    match tag,htag with
    | hi::lo::rest,_ => exact ⟨hi,lo,rest,rfl⟩
  have hrest : rest.length = 30 := by simpa using htag
  have hpos : 0 < u.serializePayload.length := by
    simp [serializePayload,encodeFields,encodeMap,length_pos_iff,encodeHead_ne_nil]
  have hlen : (u.serializePayload ++ hi::lo::rest).length = u.serializePayload.length+32 := by
    rw [length_append,htag]
  have hread := deserializePayload_serializePayload hexpiry hslot hsig (by omega)
  rw [parseToken_payload hexpiry hslot hsig (by omega) hsmall]
  dsimp only
  rw [hlen,Nat.add_sub_cancel,take_left,drop_left,toNat_read16,parseWith,hread,hrest]
  rfl

lemma parseToken_legacyTokenWire {t : JoinToken} (hexpiry : 0 ≤ t.expiryUnixSec)
    (hslot : -1 ≤ t.admission.slot) (htag : tag.length = 32)
    (hsmall : (legacyTokenWire t tag).length < 2^63) : parseToken (legacyTokenWire t tag) =
      if tagLength tag < 8 ∨ tagLength tag > 8192 then .ok { t with signature := tag }
      else if 30 ≠ tagLength tag then .error (.error (tokenErr "Token length mismatch"))
      else .ok { t with signature := tag.drop 2 } := by
  have hraw := length_raw_le (({ t with signature := [] } : JoinToken).serializePayload ++ tag)
  exact parseToken_tag (u := { t with signature := [] }) hexpiry hslot rfl htag (hraw.trans_lt hsmall)

/-- An old token is read back as it was made if and only if the first two bytes of its tag make no
length between 8 and 8192. -/
theorem legacyToken_readable_iff (t : JoinToken) (hexpiry : 0 ≤ t.expiryUnixSec)
    (hslot : -1 ≤ t.admission.slot) (tag : Bytes) (htag : tag.length = 32)
    (hsmall : (legacyTokenWire t tag).length < 2^63) :
    parseToken (legacyTokenWire t tag) = .ok { t with signature := tag } ↔
      ¬(8 ≤ tagLength tag ∧ tagLength tag ≤ 8192) := by
  rw [parseToken_legacyTokenWire hexpiry hslot htag hsmall]
  by_cases hfall : tagLength tag < 8 ∨ tagLength tag > 8192
  · rw [if_pos hfall]
    exact ⟨fun _ => by omega,fun _ => rfl⟩
  · rw [if_neg hfall]
    refine ⟨fun hok => ?_,fun hlen => absurd (by omega) hfall⟩
    by_cases hthirty : 30 = tagLength tag
    · -- the rest of the tag is taken for a signature of thirty bytes
      rw [if_neg (not_not.mpr hthirty),Except.ok.injEq] at hok
      have hlen := congrArg (fun u => u.signature.length) hok
      simp only [length_drop] at hlen
      omega
    · rw [if_pos hthirty] at hok
      cases hok

theorem legacyToken_readable :
    parseToken (legacyTokenWire { meshId := [109] } (List.replicate 32 255)) =
      .ok { meshId := [109], signature := List.replicate 32 255 } :=
  (legacyToken_readable_iff { meshId := [109] } (by decide) (by decide) (replicate 32 255)
    (by decide) (by decide)).mpr (by decide)

/-- A tag that starts with the bytes 1 and 0 makes the token unreadable. -/
theorem legacyToken_unreadable :
    parseToken (legacyTokenWire { meshId := [109] } (1::0::List.replicate 30 7)) =
      .error (.error (tokenErr "Token length mismatch")) := by
  rw [parseToken_legacyTokenWire (by decide) (by decide) (by decide) (by decide),
    if_neg (by decide),if_pos (by decide)]

end SmoFramework.Enroll
