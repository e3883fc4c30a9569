import SmoFramework.Enroll.TokenWire
import SmoFramework.Library.CheckedCursor

/-! Which bytes the parser of a join token looks at (`core/enroll/join_token`). The parser
reads with every access checked, and no check ever fails. A length whose sum with the
position wraps around gets past the check in the source, but its copy throws before it reads. -/
namespace SmoFramework.Enroll
open Library Library.BigEndian Library.Cursor
open Cbor (Failure Outcome sizeAdd kMaxString)

abbrev Guarded (α : Type) := Checked Failure α

namespace Guarded

section
variable (data : Bytes)

def readInt (ib : UInt8) : Guarded UInt64 := do
  let extra := ib &&& 0x1F
  if extra ≤ 23 then pure extra.toUInt64
  else
    let off ← get
    let nbytes := 2^(extra.toNat-24)
    if sizeAdd off nbytes > data.length then pure 0
    else
      let bytes ← slice data off nbytes
      set (off+nbytes)
      pure (read64 bytes)

variable {α : Type}

def decodeItem (major : UInt8) (nothing : α) (value : UInt64 → Guarded α) : Guarded α := do
  let off ← get
  if off ≥ data.length then pure nothing
  else
    let ib ← element data off 0
    set (off+1)
    if ib >>> 5 ≠ major then pure nothing
    else
      let val ← readInt data ib
      value val

def takeBytes (len : UInt64) : Guarded Bytes := do
  let off ← get
  if sizeAdd off len.toNat > data.length then pure []
  else if len.toNat > kMaxString then throw (.failed .lengthError)
  else
    let bytes ← slice data off len.toNat
    set (off+len.toNat)
    pure bytes

def decodeUint : Guarded UInt64 := decodeItem data 0 0 pure

def decodeText : Guarded Bytes := decodeItem data 3 [] (takeBytes data)

def decodeBytes : Guarded Bytes := decodeItem data 2 [] (takeBytes data)

def decodeArray : Guarded ℕ := decodeItem data 4 0 fun n => pure n.toNat

def decodeMap : Guarded ℕ := decodeItem data 5 0 fun n => pure n.toNat

/-- `data[off] >> 5`. -/
def majorHere : Guarded UInt8 := do
  let off ← get
  let ib ← element data off 0
  pure (ib >>> 5)

/-- `((off < data.size()) ? data[off] : 0) >> 5`. -/
def majorOrZero : Guarded UInt8 := do
  let off ← get
  if off < data.length then
    let ib ← element data off 0
    pure (ib >>> 5)
  else pure ((0 : UInt8) >>> 5)

abbrev checked : TokenReader (Fault Failure) where
  data := data
  uint := decodeUint data
  text := decodeText data
  bytes := decodeBytes data
  array := decodeArray data
  map := decodeMap data
  majorHere := majorHere data
  majorOrZero := majorOrZero data
  failed := .failed

end

/-! The whole parser. The position is not used outside of the two passes. -/

/-- The second pass works on the payload alone. -/
def parseWith (payload signature : Bytes) : Except (Fault Failure) JoinToken := do
  let t ← (JoinToken.readPayload (checked payload)).run' 0
  pure { t with signature }

def parseToken (tokenStr : Bytes) : Except (Fault Failure) JoinToken :=
  if tokenStr.length < 9 ∨ tokenStr.take 9 ≠ kPrefix then
    .error (.failed (.error (tokenErr "Invalid Join Token: missing SMO-JOIN- prefix")))
  else do
    let raw := base64urlDecode (tokenStr.drop 9)
    if raw.length < 33 then .error (.failed (.error (tokenErr "Join Token too short")))
    else
      let payloadLen ← (scanPayload (checked raw)).run' 0
      if payloadLen+2 > raw.length then
        .error (.failed (.error (tokenErr "Token too short for sig_len")))
      else
        let high ← (element raw payloadLen 0).run' 0
        let low ← (element raw (payloadLen+1) 0).run' 0
        let sigLen := (read16 high low).toNat
        if sigLen < 8 ∨ sigLen > 8192 then
          if raw.length < 32 then
            .error (.failed (.error (tokenErr "Token too short for v1 signature")))
          else
            let payload ← (slice raw 0 (raw.length-32)).run' 0
            let signature ← (slice raw (raw.length-32) 32).run' 0
            parseWith payload signature
        else if raw.length ≠ payloadLen+2+sigLen then
          .error (.failed (.error (tokenErr "Token length mismatch")))
        else
          let payload ← (slice raw 0 payloadLen).run' 0
          let signature ← (slice raw (payloadLen+2) sigLen).run' 0
          parseWith payload signature

/-! No check fails. -/

section
variable {data : Bytes} (hsmall : data.length < 2^63)
include hsmall

lemma agrees_readInt (ib : UInt8) : Agrees data (readInt data ib) (Enroll.readInt data ib) := by
  intro p hp
  unfold readInt Enroll.readInt
  refine .ite (fun _ => .pure hp _) (fun hextra => .get ?_)
  have hpow : 2^((ib &&& 0x1F).toNat-24) ≤ 2^7 := by
    refine Nat.pow_le_pow_right (by decide) ?_
    rw [Cbor.toNat_and1F]
    omega
  have hadd : sizeAdd p (2^((ib &&& 0x1F).toNat-24)) = p+2^((ib &&& 0x1F).toNat-24) :=
    Nat.mod_eq_of_lt (by omega)
  refine .ite (fun _ => .pure hp _) (fun hin => ?_)
  rw [hadd] at hin
  refine .slice (not_lt.mp hin) (.set ?_)
  rw [← bytesAt_eq_take_drop (not_lt.mp hin)]
  exact .pure (not_lt.mp hin) _

lemma agrees_decodeItem {α : Type} {nothing : α} {value : UInt64 → Guarded α}
    {value' : UInt64 → Decode α} (h : ∀ val, Agrees data (value val) (value' val)) :
    Agrees data (decodeItem data major nothing value) (Enroll.decodeItem data major nothing value') := by
  intro p hp
  refine .get (.ite (fun _ => .pure hp _) (fun hin => ?_))
  have hlt := not_le.mp hin
  refine .element hlt (.set (.ite (fun _ => .pure hlt _) (fun _ => ?_)))
  exact ((agrees_readInt hsmall _).bind h) _ hlt

lemma agrees_takeBytes (len : UInt64) :
    Agrees data (takeBytes data len) (Enroll.takeBytes data len) := by
  intro p hp
  refine .get (.ite (fun _ => .pure hp _) (fun hin => .ite (fun _ => .throw _) (fun hmax => ?_)))
  unfold kMaxString at hmax
  have hadd : sizeAdd p len.toNat = p+len.toNat := Nat.mod_eq_of_lt (by omega)
  rw [hadd] at hin
  exact .slice (not_lt.mp hin) (.set (.pure (not_lt.mp hin) _))

lemma agrees_decodeUint : Agrees data (decodeUint data) (Enroll.decodeUint data) :=
  agrees_decodeItem hsmall fun _ => .pure _

lemma agrees_decodeText : Agrees data (decodeText data) (Enroll.decodeText data) :=
  agrees_decodeItem hsmall (agrees_takeBytes hsmall)

lemma agrees_decodeBytes : Agrees data (decodeBytes data) (Enroll.decodeBytes data) :=
  agrees_decodeItem hsmall (agrees_takeBytes hsmall)

lemma agrees_decodeArray : Agrees data (decodeArray data) (Enroll.decodeArray data) :=
  agrees_decodeItem hsmall fun _ => .pure _

lemma agrees_decodeMap : Agrees data (decodeMap data) (Enroll.decodeMap data) :=
  agrees_decodeItem hsmall fun _ => .pure _

omit hsmall in
lemma agrees_majorOrZero : Agrees data (majorOrZero data) (peekMajor data) := by
  intro p hp
  refine .get ?_
  by_cases hlt : p < data.length
  · rw [if_pos hlt]
    exact .element hlt (.pure hp _)
  · rw [if_neg hlt,List.getD_eq_default _ _ (not_lt.mp hlt)]
    exact .pure hp _

omit hsmall in
lemma agreesAt_majorHere (hlt : p < data.length) :
    AgreesAt data p (majorHere data) (peekMajor data) := .get (.element hlt (.pure hlt.le _))

lemma agrees_readAdmissionValue (a : Admission) (key : UInt64) :
    Agrees data (Admission.readValue (checked data) a key) (Admission.readValue (plain data) a key) := by
  have huint := agrees_decodeUint hsmall
  have htext := agrees_decodeText hsmall
  have hother :
      Agrees data (Admission.readValue (checked data) a 0) (Admission.readValue (plain data) a 0) :=
    agrees_majorOrZero.bind fun mt => .ite (huint.map _) (.ite (htext.map _) (.pure _))
  unfold Admission.readValue
  generalize key.toNat = k
  match k with
  | 1 => exact htext.map _
  | 2 => exact htext.map _
  | 3 => exact huint.map _
  | 0 | _+4 => exact hother

variable (n : ℕ)

lemma agrees_readAdmissionPairs (a : Admission) :
    Agrees data (Admission.readPairs (checked data) n a) (Admission.readPairs (plain data) n a) := by
  induction n generalizing a with
  | zero => exact .pure a
  | succ n ih =>
    intro p hp
    refine .get (.ite (fun _ => .pure hp _) (fun _ => ?_))
    refine ((agrees_decodeUint hsmall).bind fun key q hq => ?_) p hp
    refine .get (.ite (fun _ => .pure hq _) (fun _ => ?_))
    exact ((agrees_readAdmissionValue hsmall a key).bind ih) q hq

lemma agrees_deserializeAdmission :
    Agrees data (Admission.deserialize (checked data)) (Admission.deserialize (plain data)) :=
  (agrees_decodeMap hsmall).bind fun pairs => agrees_readAdmissionPairs hsmall pairs {}

lemma agrees_decodeTexts :
    Agrees data (JoinToken.decodeTexts (checked data) n) (JoinToken.decodeTexts (plain data) n) := by
  induction n with
  | zero => exact .pure []
  | succ n ih => exact (agrees_decodeText hsmall).bind fun s => ih.map (List.cons s)

lemma agrees_passElements :
    Agrees data (JoinToken.passElements (checked data) n) (JoinToken.passElements (plain data) n) := by
  induction n with
  | zero => exact .pure ()
  | succ n ih =>
    intro p hp
    refine .get (.ite (fun _ => .pure hp _) (fun hin => ?_))
    refine (agreesAt_majorHere (not_le.mp hin)).bind fun mt => ?_
    exact .ite ((agrees_decodeUint hsmall).bind fun _ => ih)
      (.ite ((agrees_decodeText hsmall).bind fun _ => ih) (.pure _))

lemma agrees_readValue (t : JoinToken) (key : UInt64) :
    Agrees data (JoinToken.readValue (checked data) t key) (JoinToken.readValue (plain data) t key) := by
  have huint := agrees_decodeUint hsmall
  have htext := agrees_decodeText hsmall
  have harray := agrees_decodeArray hsmall
  have hother :
      Agrees data (JoinToken.readValue (checked data) t 0) (JoinToken.readValue (plain data) t 0) := by
    intro p hp
    refine .get (.ite (fun _ => .pure hp _) (fun hin => ?_))
    refine (agreesAt_majorHere (not_le.mp hin)).bind fun mt => ?_
    refine .ite (huint.map _) (.ite (htext.map _) (.ite ?_ (.pure _)))
    exact harray.bind fun n => (agrees_passElements hsmall n).map _
  unfold JoinToken.readValue
  generalize key.toNat = k
  match k with
  | 1 => exact huint.map _
  | 2 => exact htext.map _
  | 3 => exact huint.map _
  | 4 => exact huint.map _
  | 5 => exact harray.bind fun n => (agrees_decodeTexts hsmall n).map _
  | 6 => exact agrees_majorOrZero.bind fun mt =>
      .ite (htext.map _) ((agrees_deserializeAdmission hsmall).map _)
  | 7 => exact huint.map _
  | 8 => exact htext.map _
  | 9 => exact htext.map _
  | 10 => exact (agrees_decodeBytes hsmall).map _
  | 0 | _+11 => exact hother

lemma agrees_readPairs (t : JoinToken) :
    Agrees data (JoinToken.readPairs (checked data) n t) (JoinToken.readPairs (plain data) n t) := by
  induction n generalizing t with
  | zero => exact .pure t
  | succ n ih =>
    refine (agrees_decodeUint hsmall).bind fun key p hp => ?_
    refine .get (.ite (fun _ => .pure hp _) (fun _ => ?_))
    exact ((agrees_readValue hsmall t key).bind ih) p hp

lemma agrees_readPayload :
    Agrees data (JoinToken.readPayload (checked data)) (JoinToken.readPayload (plain data)) :=
  (agrees_decodeMap hsmall).bind fun pairs => .ite (.throw _) (agrees_readPairs hsmall pairs {})

omit hsmall in
lemma agrees_notAtEnd {α : Type} {message : String} {c : Guarded α} {r : Decode α}
    (h : ∀ p < data.length, AgreesAt data p c r) :
    Agrees data (notAtEnd (checked data) message c) (notAtEnd (plain data) message r) :=
  fun p _ => .get (.ite (fun _ => .throw _) (fun hin => h p (not_le.mp hin)))

variable {other : UInt8 → Guarded Unit} {other' : UInt8 → Decode Unit}

lemma agreesAt_scanScalar {p : ℕ} (hlt : p < data.length) (h : ∀ mt, Agrees data (other mt) (other' mt)) :
    AgreesAt data p (scanScalar (checked data) other) (scanScalar (plain data) other') := by
  refine (agreesAt_majorHere hlt).bind fun mt => ?_
  exact .ite ((agrees_decodeUint hsmall).map _) (.ite ((agrees_decodeText hsmall).map _)
    (.ite ((agrees_decodeBytes hsmall).map _) (h mt)))

lemma agrees_scanElement : Agrees data (scanElement (checked data)) (scanElement (plain data)) :=
  agrees_notAtEnd fun _ hlt => agreesAt_scanScalar hsmall hlt fun _ => .throw _

lemma agrees_scanPair {noKey noValue : String} (h : ∀ mt, Agrees data (other mt) (other' mt)) :
    Agrees data (scanPair (checked data) noKey noValue (scanScalar (checked data) other))
      (scanPair (plain data) noKey noValue (scanScalar (plain data) other')) := by
  refine agrees_notAtEnd fun p hlt => ?_
  refine ((agrees_decodeUint hsmall).bind fun _ => ?_) p hlt.le
  exact agrees_notAtEnd fun q hq => agreesAt_scanScalar hsmall hq h

lemma agrees_scanDeep : Agrees data (scanDeep (checked data)) (scanDeep (plain data)) :=
  agrees_scanPair hsmall fun _ => .throw _

lemma agrees_scanNested : Agrees data (scanNested (checked data)) (scanNested (plain data)) :=
  agrees_scanPair hsmall fun _ =>
    .ite ((agrees_decodeMap hsmall).bind (agrees_scanDeep hsmall).times) (.throw _)

lemma agrees_scanField : Agrees data (scanField (checked data)) (scanField (plain data)) :=
  agrees_scanPair hsmall fun _ =>
    .ite ((agrees_decodeArray hsmall).bind (agrees_scanElement hsmall).times)
      (.ite ((agrees_decodeMap hsmall).bind (agrees_scanNested hsmall).times) (.throw _))

lemma agrees_scanPayload : Agrees data (scanPayload (checked data)) (scanPayload (plain data)) := by
  refine agrees_notAtEnd fun p hlt => ?_
  refine ((agrees_decodeMap hsmall).bind fun pairs => .ite (.throw _) ?_) p hlt.le
  exact ((agrees_scanField hsmall).times pairs).bind fun _ _ hq => .get (.pure hq _)

end

lemma run'_element (h : off < data.length) :
    (element data off 0 : Guarded UInt8).run' 0 = .ok (data.getD off 0) := by
  rw [element,if_pos h]
  rfl

lemma run'_slice (h : off+len ≤ data.length) :
    (slice data off len : Guarded Bytes).run' 0 = .ok ((data.drop off).take len) := by
  rw [slice,if_pos h]
  rfl

lemma parseWith_eq (hsmall : payload.length < 2^63) (signature : Bytes) :
    parseWith payload signature = (Enroll.parseWith payload signature).mapError Fault.failed := by
  rw [parseWith,(agrees_readPayload hsmall).run',Enroll.parseWith,JoinToken.deserializePayload]
  cases (JoinToken.readPayload (plain payload)).run' 0 <;> rfl

lemma parseWith_slices (hsmall : raw.length < 2^63) (hn : n ≤ m)
    (hm : m+k = raw.length) : (do
      let payload ← (slice raw 0 n : Guarded Bytes).run' 0
      let signature ← (slice raw m k : Guarded Bytes).run' 0
      parseWith payload signature) =
    (Enroll.parseWith (raw.take n) (raw.drop m)).mapError Fault.failed := by
  have hrest : (raw.drop m).take k = raw.drop m :=
    List.take_of_length_le (by rw [List.length_drop]; omega)
  rw [run'_slice (by omega),run'_slice hm.le,hrest]
  exact parseWith_eq (by rw [List.length_take]; omega) _

lemma parseToken_eq (hsmall : tokenStr.length ≤ kMaxString) :
    parseToken tokenStr = (Enroll.parseToken tokenStr).mapError Fault.failed := by
  have hraw : (base64urlDecode (tokenStr.drop 9)).length < 2^63 := by
    have hle := Base64.length_decode_le base64url (tokenStr.drop 9)
    rw [List.length_drop] at hle
    unfold kMaxString at hsmall
    unfold base64urlDecode
    omega
  unfold parseToken Enroll.parseToken calculatePayloadLen
  dsimp only
  generalize base64urlDecode (tokenStr.drop 9) = raw at hraw ⊢
  rw [(agrees_scanPayload hraw).run']
  by_cases hkPrefix : tokenStr.length < 9 ∨ tokenStr.take 9 ≠ kPrefix
  · rw [if_pos hkPrefix,if_pos hkPrefix]
    rfl
  rw [if_neg hkPrefix,if_neg hkPrefix]
  by_cases hshort : raw.length < 33
  · rw [if_pos hshort,if_pos hshort]
    rfl
  rw [if_neg hshort,if_neg hshort]
  cases (scanPayload (plain raw)).run' 0 with
  | error e => rfl
  | ok payloadLen =>
    dsimp only [Except.mapError,bind,Except.bind]
    by_cases hlen : payloadLen+2 > raw.length
    · rw [if_pos hlen,if_pos hlen]
    rw [if_neg hlen,if_neg hlen,run'_element (by omega),run'_element (by omega)]
    dsimp only
    by_cases hold : (read16 (raw.getD payloadLen 0) (raw.getD (payloadLen+1) 0)).toNat < 8 ∨
        (read16 (raw.getD payloadLen 0) (raw.getD (payloadLen+1) 0)).toNat > 8192
    · rw [if_pos hold,if_pos hold,if_neg (by omega),if_neg (by omega)]
      exact parseWith_slices hraw le_rfl (by omega)
    rw [if_neg hold,if_neg hold]
    by_cases hmismatch : raw.length =
        payloadLen+2+(read16 (raw.getD payloadLen 0) (raw.getD (payloadLen+1) 0)).toNat
    · rw [if_neg (not_not.mpr hmismatch),if_neg (not_not.mpr hmismatch)]
      exact parseWith_slices hraw (by omega) hmismatch.symm
    · rw [if_pos hmismatch,if_pos hmismatch]

/-- No access of the parser is outside of the bytes it looks at. -/
theorem parseToken_inside (tokenStr : Bytes) (hsmall : tokenStr.length ≤ kMaxString) :
    (∀ off len, parseToken tokenStr ≠ .error (.outside off len)) ∧
      parseToken tokenStr = (Enroll.parseToken tokenStr).mapError Fault.failed := by
  refine ⟨fun off len h => ?_,parseToken_eq hsmall⟩
  rw [parseToken_eq hsmall] at h
  cases hparse : Enroll.parseToken tokenStr with
  | error e =>
    rw [hparse] at h
    cases h
  | ok t =>
    rw [hparse] at h
    cases h

/-- A text whose length is 2^64-1: the sum with the position is ten. -/
def wrappedToken : Bytes :=
  kPrefix ++ base64urlEncode (0xA1::2::0x7B::(List.replicate 8 0xFF ++ List.replicate 24 0))

theorem parseToken_inside_wrapped :
    (∀ off len, parseToken wrappedToken ≠ .error (.outside off len)) ∧
      parseToken wrappedToken = .error (.failed .lengthError) := by
  have hinside := parseToken_inside wrappedToken (by decide)
  refine ⟨hinside.1,hinside.2.trans ?_⟩
  decide +kernel

end Guarded
end SmoFramework.Enroll
