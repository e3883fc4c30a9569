import SmoFramework.Cbor.ContextValue
import SmoFramework.Library.AssocMap

/-! Inputs and results of contracts in CBOR (`ContractInput` and `ContractResult` in
`core/cbor/context_value`). The fields are written in the order of the source and read back through a
sorted map; signed fields are written as unsigned words. -/
namespace SmoFramework.Cbor
open Library List RawValue

/-! Entries that are not in the order of their keys. -/

def DecodesFrom (fuel : ℕ) (word : Bytes) (v : RawValue) : Prop :=
  ∀ (data : BytesView) (pre rest : Bytes), data.bytes = pre ++ (word ++ rest) →
    decodeContextValue fuel ⟨data,pre.length⟩ = some (.ok v,⟨data,pre.length+word.length⟩)

structure Entry where
  key : Bytes
  word : Bytes
  value : RawValue

namespace Entry

def written (e : Entry) : Bytes := encodeString e.key ++ e.word

def entered (acc : List (Bytes × RawValue)) (es : List Entry) : List (Bytes × RawValue) :=
  es.foldl (fun acc e => emplace e.key e.value acc) acc

end Entry

section
variable {data : BytesView} {pre rest : Bytes} {fuel : ℕ}

lemma decodeEntries_written (acc : List (Bytes × RawValue))
    (hes : ∀ e ∈ es, DecodesFrom fuel e.word e.value)
    (h : data.bytes = pre ++ (es.flatMap Entry.written ++ rest)) :
    decodeEntries (decodeContextValue fuel) acc es.length ⟨data,pre.length⟩ =
      some (.ok (Entry.entered acc es),⟨data,pre.length+(es.flatMap Entry.written).length⟩) := by
  induction es generalizing pre acc with
  | nil => rfl
  | cons e es ih =>
    obtain ⟨he,hes⟩ := forall_mem_cons.mp hes
    rw [flatMap_cons,Entry.written,append_assoc,append_assoc] at h
    have hkey := decodeString_encoded h
    rw [← append_assoc] at h
    have hvalue := he data _ _ h
    rw [← append_assoc] at h
    have hrest := ih (emplace e.key e.value acc) hes h
    rw [length_append] at hvalue hrest
    rw [length_append] at hrest
    rw [length_cons,decodeEntries,hkey]
    dsimp only
    rw [hvalue]
    dsimp only
    rw [hrest,flatMap_cons,Entry.written,length_append,length_append]
    simp only [Nat.add_assoc]
    rfl

lemma decodesFrom_map (hfew : es.length < 2^64)
    (hes : ∀ e ∈ es, DecodesFrom fuel e.word e.value) :
    DecodesFrom (fuel+1) (encodeMap es.length ++ es.flatMap Entry.written)
      (.map (Entry.entered [] es)) := by
  intro data pre rest h
  have hcount : (UInt64.ofNat es.length).toNat = es.length := UInt64.toNat_ofNat_of_lt' hfew
  rw [encodeMap,append_assoc] at h
  obtain ⟨hlt,hmajor⟩ := peek_encoded (show (5 : UInt8).toNat < 8 by decide) h
  have hhead := decodeHeadOf_encoded (show (5 : UInt8).toNat < 8 by decide) 707
    "CBOR: expected map" h
  rw [← append_assoc] at h
  have hentries := decodeEntries_written [] hes h
  rw [length_append] at hentries
  rw [decodeContextValue,if_neg hlt]
  simp only [hmajor,Decoder.decodeMapSize,hhead,hcount,hentries]
  rw [length_append,Nat.add_assoc]
  rfl

end

lemma decodesFrom_uint (fuel : ℕ) (u : UInt64) : DecodesFrom (fuel+1) (encodeUint u) (.int u.toInt64) := by
  intro data pre rest h
  rw [encodeUint] at h ⊢
  obtain ⟨hlt,hmajor⟩ := peek_encoded (by decide) h
  rw [decodeContextValue,if_neg hlt]
  simp only [hmajor,Decoder.decodeUint,decodeHeadOf_encoded (by decide) _ _ h]
  simp

/-! Payloads with a content-type byte. -/

def kContentTypeContractInput : UInt8 := 0x02
def kContentTypeContractResult : UInt8 := 0x03

def BytesView.tail (data : BytesView) : BytesView where
  bytes := data.bytes.tail
  small := by
    have := data.small
    rw [List.length_tail]
    omega

def decodeContextValueBytes (fuel : ℕ) (data : BytesView) (expectedContentType : UInt8) :
    Option (Outcome RawValue) :=
  match data.bytes.head? with
  | none => some (.error (cborErr 700 "CBOR: empty data"))
  | some contentType =>
    if contentType ≠ expectedContentType then
      some (.error (cborErr 710 ("CBOR: content-type mismatch (expected " ++
        toString expectedContentType.toNat ++ ", got " ++ toString contentType.toNat ++ ")")))
    else (decodeContextValue fuel ⟨data.tail,0⟩).map Prod.fst

def fieldOf {α : Type} (code : ℕ) (what problem key : String) (read : RawValue → Option α)
    (m : List (Bytes × RawValue)) : Result α :=
  match (AssocMap.findIn (literal key) m).bind read with
  | none => .error (smoErrProtocol code .error .noRetry .none (what ++ ": " ++ problem ++ " " ++ key))
  | some a => .ok a

def RawValue.string? : RawValue → Option Bytes
  | .string s => some s
  | _ => none

def RawValue.int? : RawValue → Option Int64
  | .int i => some i
  | _ => none

def fieldsOf {α : Type} (code : ℕ) (what : String) (ofMap : List (Bytes × RawValue) → Result α) :
    RawValue → Outcome α
  | .map m => (ofMap m).mapError Failure.error
  | _ => .error (cborErr code (what ++ ": expected map"))

structure ContractInput where
  contractId : Bytes
  method : Bytes
  params : RawValue
  callerId : Bytes
  timestamp : Int64
  nonce : UInt64

namespace ContractInput

variable (x : ContractInput)

def toCbor : Bytes :=
  kContentTypeContractInput::(encodeMap 6 ++
    (encodeString (literal "contract_id") ++ (encodeString x.contractId ++
    (encodeString (literal "method") ++ (encodeString x.method ++
    (encodeString (literal "params") ++ (encodeContextValue x.params ++
    (encodeString (literal "caller_id") ++ (encodeString x.callerId ++
    (encodeString (literal "timestamp") ++ (encodeUint x.timestamp.toUInt64 ++
    (encodeString (literal "nonce") ++ encodeUint x.nonce))))))))))))

def ofMap (m : List (Bytes × RawValue)) : Result ContractInput := do
  let contractId ← fieldOf 711 "ContractInput" "missing or invalid" "contract_id" string? m
  let method ← fieldOf 711 "ContractInput" "missing or invalid" "method" string? m
  let params ← fieldOf 711 "ContractInput" "missing" "params" some m
  let callerId ← fieldOf 711 "ContractInput" "missing or invalid" "caller_id" string? m
  let timestamp ← fieldOf 711 "ContractInput" "missing or invalid" "timestamp" int? m
  let nonce ← fieldOf 711 "ContractInput" "missing or invalid" "nonce" int? m
  pure { contractId, method, params, callerId, timestamp, nonce := nonce.toUInt64 }

def fromCbor (fuel : ℕ) (data : BytesView) : Option (Outcome ContractInput) :=
  (decodeContextValueBytes fuel data kContentTypeContractInput).map fun r =>
    r.bind (fieldsOf 711 "ContractInput" ofMap)

def entries : List Entry :=
  [⟨literal "contract_id",encodeString x.contractId,.string x.contractId⟩,
    ⟨literal "method",encodeString x.method,.string x.method⟩,
    ⟨literal "params",encodeContextValue x.params,x.params⟩,
    ⟨literal "caller_id",encodeString x.callerId,.string x.callerId⟩,
    ⟨literal "timestamp",encodeUint x.timestamp.toUInt64,.int x.timestamp⟩,
    ⟨literal "nonce",encodeUint x.nonce,.int x.nonce.toInt64⟩]

end ContractInput

/-- `ContractResult::Status`: 0 success, 1 error, 2 rejected. The decoded number is cast to it
without a check. -/
structure ContractStatus where
  val : UInt8
  deriving DecidableEq, Repr

structure ContractResult where
  status : ContractStatus
  result : RawValue
  errorCode : Bytes
  errorMessage : Bytes
  gasUsed : Int64
  timestamp : Int64

namespace ContractResult

variable (x : ContractResult)

def toCbor : Bytes :=
  kContentTypeContractResult::(encodeMap 6 ++
    (encodeString (literal "status") ++ (encodeUint x.status.val.toUInt64 ++
    (encodeString (literal "result") ++ (encodeContextValue x.result ++
    (encodeString (literal "error_code") ++ (encodeString x.errorCode ++
    (encodeString (literal "error_message") ++ (encodeString x.errorMessage ++
    (encodeString (literal "gas_used") ++ (encodeUint x.gasUsed.toUInt64 ++
    (encodeString (literal "timestamp") ++ encodeUint x.timestamp.toUInt64))))))))))))

def ofMap (m : List (Bytes × RawValue)) : Result ContractResult := do
  let status ← fieldOf 712 "ContractResult" "missing or invalid" "status" int? m
  let result ← fieldOf 712 "ContractResult" "missing" "result" some m
  let errorCode ← fieldOf 712 "ContractResult" "missing or invalid" "error_code" string? m
  let errorMessage ← fieldOf 712 "ContractResult" "missing or invalid" "error_message" string? m
  let gasUsed ← fieldOf 712 "ContractResult" "missing or invalid" "gas_used" int? m
  let timestamp ← fieldOf 712 "ContractResult" "missing or invalid" "timestamp" int? m
  pure { status := ⟨status.toUInt64.toUInt8⟩, result, errorCode, errorMessage, gasUsed, timestamp }

def fromCbor (fuel : ℕ) (data : BytesView) : Option (Outcome ContractResult) :=
  (decodeContextValueBytes fuel data kContentTypeContractResult).map fun r =>
    r.bind (fieldsOf 712 "ContractResult" ofMap)

def entries : List Entry :=
  [⟨literal "status",encodeUint x.status.val.toUInt64,.int x.status.val.toUInt64.toInt64⟩,
    ⟨literal "result",encodeContextValue x.result,x.result⟩,
    ⟨literal "error_code",encodeString x.errorCode,.string x.errorCode⟩,
    ⟨literal "error_message",encodeString x.errorMessage,.string x.errorMessage⟩,
    ⟨literal "gas_used",encodeUint x.gasUsed.toUInt64,.int x.gasUsed⟩,
    ⟨literal "timestamp",encodeUint x.timestamp.toUInt64,.int x.timestamp⟩]

end ContractResult

/-! Round trips. -/

lemma decodesFrom_signed (fuel : ℕ) (i : Int64) :
    DecodesFrom (fuel+1) (encodeUint i.toUInt64) (.int i) := by
  have h := decodesFrom_uint fuel i.toUInt64
  rwa [Int64.toInt64_toUInt64] at h

lemma decodeContextValueBytes_entries
    (hfew : es.length < 2^64) (hes : ∀ e ∈ es, DecodesFrom fuel e.word e.value)
    (h : data.bytes = contentType::(encodeMap es.length ++ es.flatMap Entry.written)) :
    decodeContextValueBytes (fuel+1) data contentType = some (.ok (.map (Entry.entered [] es))) := by
  have htail : data.tail.bytes = [] ++ (encodeMap es.length ++ es.flatMap Entry.written ++ []) := by
    rw [append_nil]
    exact congrArg tail h
  have hdecode : decodeContextValue (fuel+1) ⟨data.tail,0⟩ = _ :=
    decodesFrom_map hfew hes data.tail [] [] htail
  rw [decodeContextValueBytes,h]
  dsimp only [head?_cons]
  rw [if_neg (not_not.mpr rfl),hdecode]
  rfl

variable (x : ContractResult)

lemma ContractResult.ofMap_entries :
    ofMap (Entry.entered [] x.entries) = .ok x := by
  unfold ofMap
  change Except.ok _ = _
  rw [UInt64.toUInt64_toInt64,UInt8.toUInt8_toUInt64]

lemma ContractInput.decodesFrom_entries (x : ContractInput) (hwf : x.params.WF)
    (hfuel : x.params.depth ≤ fuel+1) : ∀ e ∈ x.entries, DecodesFrom (fuel+1) e.word e.value := by
  simp only [entries,forall_mem_cons]
  exact ⟨decodesTo_string fuel _,decodesTo_string fuel _,decodesTo_of_depth _ _ hwf hfuel,
    decodesTo_string fuel _,decodesFrom_signed fuel _,decodesFrom_uint fuel _,
    fun _ h => absurd h not_mem_nil⟩

lemma ContractResult.decodesFrom_entries (x : ContractResult) (hwf : x.result.WF)
    (hfuel : x.result.depth ≤ fuel+1) : ∀ e ∈ x.entries, DecodesFrom (fuel+1) e.word e.value := by
  simp only [entries,forall_mem_cons]
  exact ⟨decodesFrom_uint fuel _,decodesTo_of_depth _ _ hwf hfuel,decodesTo_string fuel _,
    decodesTo_string fuel _,decodesFrom_signed fuel _,decodesFrom_signed fuel _,
    fun _ h => absurd h not_mem_nil⟩

lemma ContractInput.toCbor_eq (x : ContractInput) : x.toCbor =
    kContentTypeContractInput::(encodeMap x.entries.length ++ x.entries.flatMap Entry.written) := by
  simp [toCbor,entries,Entry.written]

lemma ContractResult.toCbor_eq : x.toCbor =
    kContentTypeContractResult::(encodeMap x.entries.length ++ x.entries.flatMap Entry.written) := by
  simp [toCbor,entries,Entry.written]

/-- Every input and every result of a contract comes back from its encoding. The fuel bounds the nesting
of the values. -/
theorem contract_round_trips (x : ContractInput) (y : ContractResult) (hx : x.params.WF)
    (hy : y.result.WF) (xdata ydata : BytesView) (hxdata : xdata.bytes = x.toCbor)
    (hydata : ydata.bytes = y.toCbor) (fuel : ℕ) (hxfuel : x.params.depth ≤ fuel+1)
    (hyfuel : y.result.depth ≤ fuel+1) : ContractInput.fromCbor (fuel+2) xdata = some (.ok x) ∧
      ContractResult.fromCbor (fuel+2) ydata = some (.ok y) := by
  rw [x.toCbor_eq] at hxdata
  rw [y.toCbor_eq] at hydata
  constructor
  · have hfew : x.entries.length < 2^64 := show 6 < 2^64 by decide
    rw [ContractInput.fromCbor,decodeContextValueBytes_entries hfew
      (x.decodesFrom_entries hx hxfuel) hxdata]
    change some ((ContractInput.ofMap (Entry.entered [] x.entries)).mapError Failure.error) = _
    rfl
  · have hfew : y.entries.length < 2^64 := show 6 < 2^64 by decide
    rw [ContractResult.fromCbor,decodeContextValueBytes_entries hfew
      (y.decodesFrom_entries hy hyfuel) hydata]
    change some ((ContractResult.ofMap (Entry.entered [] y.entries)).mapError Failure.error) = _
    rw [y.ofMap_entries]
    rfl

def sampleInput : ContractInput where
  contractId := literal "c"
  method := literal "m"
  params := sampleValue.raw
  callerId := []
  timestamp := -1
  nonce := 0xFFFFFFFFFFFFFFFF

def sampleResult : ContractResult where
  status := ⟨2⟩
  result := sampleValue.raw
  errorCode := literal "E"
  errorMessage := []
  gasUsed := -5
  timestamp := 7

theorem contract_round_trips_sample :
    ContractInput.fromCbor 4 ⟨sampleInput.toCbor,by decide⟩ = some (.ok sampleInput) ∧
      ContractResult.fromCbor 4 ⟨sampleResult.toCbor,by decide⟩ = some (.ok sampleResult) :=
  contract_round_trips sampleInput sampleResult sampleValue.wf sampleValue.wf ⟨sampleInput.toCbor,by decide⟩
    ⟨sampleResult.toCbor,by decide⟩ rfl rfl 2 (by decide) (by decide)

end SmoFramework.Cbor
