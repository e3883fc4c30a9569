import SmoFramework.Enroll.Cbor
import SmoFramework.Genesis.Json
import SmoFramework.Library.Base64

/-! Join tokens (`core/enroll/join_token`): the payload, the wire text and its parser, and the
check of a token. Signing, verification and the random nonce are parameters. -/
namespace SmoFramework.Enroll
open Library Library.BigEndian Library.Cursor
open Cbor (Failure Outcome encodeHead)
open Genesis (text)

structure Admission where
  role : Bytes := []
  profile : Bytes := []
  slot : Int32 := -1
  deriving DecidableEq, Repr

structure JoinToken where
  version : UInt8 := 1
  meshId : Bytes := []
  meshEpoch : Int64 := 0
  cipherSuiteId : Int32 := 0
  bootstrapEndpoints : List Bytes := []
  admission : Admission := {}
  expiryUnixSec : Int64 := 0
  nonce : Bytes := []
  issuer : Bytes := []
  signature : Bytes := []
  deriving DecidableEq, Repr

/-! Base64url. -/

def kEnc : Bytes := text "ABCDEFGHIJKLMNOPQRSTUVWXYZabcdefghijklmnopqrstuvwxyz0123456789-_"

/-- The table `kDec`, as it is filled before the first use. -/
def kDec (c : UInt8) : UInt8 :=
  if 65 ≤ c ∧ c ≤ 90 then c-65
  else if 97 ≤ c ∧ c ≤ 122 then 26+(c-97)
  else if 48 ≤ c ∧ c ≤ 57 then 52+(c-48)
  else if c = 45 then 62
  else if c = 95 then 63
  else 0xFF

def base64url : Base64.Alphabet where
  digit i := kEnc.getD i 0
  value c := if kDec c = 0xFF then none else some (kDec c)
  stop := 61
  value_digit := by decide
  digit_ne_stop := by decide

variable (data : Bytes)

def base64urlEncode : Bytes := Base64.encode base64url data

def base64urlDecode (s : Bytes) : Bytes := Base64.decode base64url s

/-! The payload. -/

def encodePair (field : UInt64 × Bytes) : Bytes := encodeUint field.1 ++ field.2

def encodeFields (fields : List (UInt64 × Bytes)) : Bytes :=
  encodeMap fields.length ++ fields.flatMap encodePair

def optional (present : Bool) (field : UInt64 × Bytes) : List (UInt64 × Bytes) :=
  if present then [field] else []

/-- What the parser reads with: plainly, or with every access checked. -/
structure TokenReader (ε : Type) where
  data : Bytes
  uint : Cursor ε UInt64
  text : Cursor ε Bytes
  bytes : Cursor ε Bytes
  array : Cursor ε ℕ
  map : Cursor ε ℕ
  /-- `data[off] >> 5`. -/
  majorHere : Cursor ε UInt8
  /-- `((off < data.size()) ? data[off] : 0) >> 5`. -/
  majorOrZero : Cursor ε UInt8
  failed : Failure → ε

abbrev plain : TokenReader Failure where
  data := data
  uint := decodeUint data
  text := decodeText data
  bytes := decodeBytes data
  array := decodeArray data
  map := decodeMap data
  majorHere := peekMajor data
  majorOrZero := peekMajor data
  failed := id

variable {ε : Type} (r : TokenReader ε)

namespace Admission

variable (a : Admission)

def fields : List (UInt64 × Bytes) :=
  [(1,encodeText a.role)] ++
  (optional (a.profile ≠ []) (2,encodeText a.profile) ++
  optional (a.slot ≥ 0) (3,encodeUint a.slot.toInt64.toUInt64))

def serialize : Bytes := encodeFields a.fields

/-- One turn of `deserialize_admission`; an unknown key of an unknown type is not passed over. -/
def readValue (key : UInt64) : Cursor ε Admission :=
  match key.toNat with
  | 1 => do
    let role ← r.text
    pure { a with role }
  | 2 => do
    let profile ← r.text
    pure { a with profile }
  | 3 => do
    let slot ← r.uint
    pure { a with slot := slot.toUInt32.toInt32 }
  | _ => do
    let mt ← r.majorOrZero
    if mt = 0 ∨ mt = 1 then
      let _ ← r.uint
      pure a
    else if mt = 3 then
      let _ ← r.text
      pure a
    else pure a

def readPairs (r : TokenReader ε) : ℕ → Admission → Cursor ε Admission
  | 0, a => pure a
  | n+1, a => do
    let off ← get
    if off ≥ r.data.length then pure a
    else
      let key ← r.uint
      let off ← get
      if off > r.data.length then pure a
      else
        let a ← readValue r a key
        readPairs r n a

def deserialize : Cursor ε Admission := do
  let pairs ← r.map
  readPairs r pairs {}

end Admission

def tokenErr (message : String) : Error := smoErrCert 212 .error .noRetry .manualIntervention message

namespace JoinToken

variable (t : JoinToken)

def fields : List (UInt64 × Bytes) :=
  [(1,encodeUint t.version.toUInt64)] ++
  ([(2,encodeText t.meshId)] ++
  ([(3,encodeUint t.meshEpoch.toUInt64)] ++
  ([(4,encodeUint t.cipherSuiteId.toInt64.toUInt64)] ++
  ([(5,encodeArray t.bootstrapEndpoints.length ++ t.bootstrapEndpoints.flatMap encodeText)] ++
  ([(6,t.admission.serialize)] ++
  (optional (t.expiryUnixSec > 0) (7,encodeUint t.expiryUnixSec.toUInt64) ++
  ([(8,encodeText t.nonce)] ++
  (optional (t.issuer ≠ []) (9,encodeText t.issuer) ++
  optional (t.signature ≠ []) (10,encodeBytes t.signature)))))))))

def serializePayload : Bytes := encodeFields t.fields

def decodeTexts (r : TokenReader ε) : ℕ → Cursor ε (List Bytes)
  | 0 => pure []
  | n+1 => do
    let s ← r.text
    let rest ← decodeTexts r n
    pure (s::rest)

/-- The elements of an array under an unknown key, up to one of an unknown type. -/
def passElements (r : TokenReader ε) : ℕ → Cursor ε Unit
  | 0 => pure ()
  | n+1 => do
    let off ← get
    if off ≥ r.data.length then pure ()
    else
      let mt ← r.majorHere
      if mt = 0 ∨ mt = 1 then
        let _ ← r.uint
        passElements r n
      else if mt = 3 ∨ mt = 2 then
        let _ ← r.text
        passElements r n
      else pure ()

def readValue (key : UInt64) : Cursor ε JoinToken :=
  match key.toNat with
  | 1 => do
    let version ← r.uint
    pure { t with version := version.toUInt8 }
  | 2 => do
    let meshId ← r.text
    pure { t with meshId }
  | 3 => do
    let meshEpoch ← r.uint
    pure { t with meshEpoch := meshEpoch.toInt64 }
  | 4 => do
    let cipherSuiteId ← r.uint
    pure { t with cipherSuiteId := cipherSuiteId.toUInt32.toInt32 }
  | 5 => do
    let n ← r.array
    let bootstrapEndpoints ← decodeTexts r n
    pure { t with bootstrapEndpoints }
  | 6 => do
    let mt ← r.majorOrZero
    if mt = 3 then
      -- the old format has the role alone
      let role ← r.text
      pure { t with admission := { t.admission with role } }
    else
      let admission ← Admission.deserialize r
      pure { t with admission }
  | 7 => do
    let expiryUnixSec ← r.uint
    pure { t with expiryUnixSec := expiryUnixSec.toInt64 }
  | 8 => do
    let nonce ← r.text
    pure { t with nonce }
  | 9 => do
    let issuer ← r.text
    pure { t with issuer }
  | 10 => do
    let signature ← r.bytes
    pure { t with signature }
  | _ => do
    let off ← get
    if off ≥ r.data.length then pure t
    else
      let mt ← r.majorHere
      if mt = 0 ∨ mt = 1 then
        let _ ← r.uint
        pure t
      else if mt = 3 ∨ mt = 2 then
        let _ ← r.text
        pure t
      else if mt = 4 then
        let n ← r.array
        passElements r n
        pure t
      else pure t

def readPairs (r : TokenReader ε) : ℕ → JoinToken → Cursor ε JoinToken
  | 0, t => pure t
  | n+1, t => do
    let key ← r.uint
    let off ← get
    if off > r.data.length then pure t
    else
      let t ← readValue r t key
      readPairs r n t

def readPayload : Cursor ε JoinToken := do
  let pairs ← r.map
  if pairs = 0 then throw (r.failed <| .error (tokenErr "Join Token: expected CBOR map"))
  else readPairs r pairs {}

def deserializePayload : Outcome JoinToken := (readPayload (plain data)).run' 0

end JoinToken

/-! The scanner that looks for the end of the payload. -/

section
variable {α : Type} (message : String)

def failScan : Cursor ε α := throw (r.failed (.error (tokenErr message)))

def notAtEnd (c : Cursor ε α) : Cursor ε α := do
  let off ← get
  if off ≥ r.data.length then failScan r message else c

def scanScalar (other : UInt8 → Cursor ε Unit) : Cursor ε Unit := do
  let mt ← r.majorHere
  if mt = 0 ∨ mt = 1 then
    let _ ← r.uint
    pure ()
  else if mt = 3 then
    let _ ← r.text
    pure ()
  else if mt = 2 then
    let _ ← r.bytes
    pure ()
  else other mt

def scanElement : Cursor ε Unit :=
  notAtEnd r "Truncated array element"
    (scanScalar r fun _ => failScan r "Unsupported array element type")

def scanPair (noKey noValue : String) (value : Cursor ε Unit) : Cursor ε Unit :=
  notAtEnd r noKey do
    let _ ← r.uint
    notAtEnd r noValue value

def scanDeep : Cursor ε Unit :=
  scanPair r "Truncated deep nested map key" "Truncated deep nested map value"
    (scanScalar r fun _ => failScan r "Unsupported deep nested value type")

def scanNested : Cursor ε Unit :=
  scanPair r "Truncated nested map key" "Truncated nested map value"
    (scanScalar r fun mt =>
      if mt = 5 then do
        let m ← r.map
        times (scanDeep r) m
      else failScan r "Unsupported nested map value type")

def scanField : Cursor ε Unit :=
  scanPair r "Truncated map key" "Truncated map value"
    (scanScalar r fun mt =>
      if mt = 4 then do
        let n ← r.array
        times (scanElement r) n
      else if mt = 5 then do
        let n ← r.map
        times (scanNested r) n
      else failScan r "Unsupported value type")

def scanPayload : Cursor ε ℕ :=
  notAtEnd r "Empty CBOR payload" do
    let pairs ← r.map
    if pairs = 0 then failScan r "Join Token: expected CBOR map"
    else
      times (scanField r) pairs
      get

def calculatePayloadLen : Outcome ℕ := (scanPayload (plain data)).run' 0

end

/-! The wire text. -/

def kPrefix : Bytes := text "SMO-JOIN-"

variable (t : JoinToken)

/-- The payload without the signature, its length in two bytes, the signature. -/
def encodeTokenWire : Bytes :=
  let payload := ({ t with signature := [] } : JoinToken).serializePayload
  kPrefix ++ base64urlEncode
    (payload ++ (write16 (UInt16.ofNat t.signature.length) ++ t.signature))

def parseWith (payload signature : Bytes) : Outcome JoinToken := do
  let t ← JoinToken.deserializePayload payload
  pure { t with signature }

/-- What follows the payload is a length and a signature, or the 32 bytes of an old token if the two
bytes make no plausible length. -/
def parseToken (tokenStr : Bytes) : Outcome JoinToken :=
  if tokenStr.length < 9 ∨ tokenStr.take 9 ≠ kPrefix then
    .error (.error (tokenErr "Invalid Join Token: missing SMO-JOIN- prefix"))
  else
    let raw := base64urlDecode (tokenStr.drop 9)
    if raw.length < 33 then .error (.error (tokenErr "Join Token too short"))
    else match calculatePayloadLen raw with
      | .error e => .error e
      | .ok payloadLen =>
        if payloadLen+2 > raw.length then .error (.error (tokenErr "Token too short for sig_len"))
        else
          let sigLen := (read16 (raw.getD payloadLen 0) (raw.getD (payloadLen+1) 0)).toNat
          if sigLen < 8 ∨ sigLen > 8192 then
            if raw.length < 32 then .error (.error (tokenErr "Token too short for v1 signature"))
            else parseWith (raw.take (raw.length-32)) (raw.drop (raw.length-32))
          else if raw.length ≠ payloadLen+2+sigLen then
            .error (.error (tokenErr "Token length mismatch"))
          else parseWith (raw.take payloadLen) (raw.drop (payloadLen+2))

/-! Issuing and checking. -/

/-- What `validate_token` recomputes: the payload as it was when the signature was still empty. -/
def signedPayload : Bytes := ({ t with signature := [] } : JoinToken).serializePayload

/-- `generate_token`, with the random nonce and the signer applied to the issuer's key. -/
def generateToken (meshId : Bytes) (meshEpoch : Int64) (cipherSuiteId : Int32)
    (bootstrapEndpoints : List Bytes) (admission : Admission) (expiryUnixSec : Int64)
    (issuer nonce : Bytes) (sign : Bytes → Result Bytes) : Result JoinToken :=
  let t : JoinToken := { version := 1, meshId, meshEpoch, cipherSuiteId, bootstrapEndpoints,
                         admission, expiryUnixSec, nonce, issuer }
  match sign t.serializePayload with
  | .error _ => .error (smoErrCert 212 .error .noRetry .retryOperation "Join Token signing failed")
  | .ok signature => .ok { t with signature }

def tokenExpired : Error := smoErrCert 213 .warn .noRetry .manualIntervention "Join Token has expired"

/-- `validate_token`; `verify` takes the message, the signature and the key. -/
def validateToken (verify : Bytes → Bytes → Bytes → Result Bool) (issuerPublicKey : Bytes)
    (nowSec : Int64) (t : JoinToken) : Result Unit :=
  if t.expiryUnixSec > 0 ∧ nowSec > t.expiryUnixSec then .error tokenExpired
  else if t.issuer = [] then .error (tokenErr "Join Token v2 requires issuer field")
  else if t.signature = [] then .error (tokenErr "Join Token has no signature")
  else match verify (signedPayload t) t.signature issuerPublicKey with
    | .error _ => .error (tokenErr "Signature verification failed")
    | .ok false => .error (tokenErr "Join Token signature mismatch")
    | .ok true => .ok ()

def tokenIsV1 : Bool := t.issuer = [] ∧ t.signature ≠ []

end SmoFramework.Enroll
