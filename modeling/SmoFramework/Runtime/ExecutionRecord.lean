import SmoFramework.Join.FieldMap

/-! Execution records as CBOR (`core/runtime/event_store`, `serialize_execution` and
`deserialize_execution`): a map with one numbered pair for each field. -/
namespace SmoFramework.Runtime
open Library Library.Attempt Cbor List
open Decoder (ahead)
open Join (decodePairs decodeFields)

structure ExecutionRecord where
  executionId : Bytes := []
  contractId : Bytes := []
  traceId : Bytes := []
  requesterId : Bytes := []
  responderId : Bytes := []
  witnessIds : List Bytes := []
  selectedNodes : List Bytes := []
  intentHash : Bytes := []
  policyName : Bytes := []
  controlLevel : UInt32 := 0
  scope : UInt32 := 0
  createdNs : Int64 := 0
  startedNs : Int64 := 0
  completedNs : Int64 := 0
  timeoutNs : Int64 := 0
  retryCount : Int32 := 0
  maxRetries : Int32 := 0
  priority : Int32 := 0
  status : Bytes := []
  resultHash : Bytes := []
  errorMessage : Bytes := []
  deriving DecidableEq

/-! Writing. -/

def encodeTexts (texts : List Bytes) : Bytes :=
  encodeArray texts.length ++ texts.flatMap encodeString

variable (r : ExecutionRecord)

/-- Signed numbers are written as the unsigned words they convert to. -/
def ExecutionRecord.pairs : List (UInt64 × Bytes) := [
  (1,encodeString r.executionId),
  (2,encodeString r.contractId),
  (3,encodeString r.traceId),
  (4,encodeString r.requesterId),
  (5,encodeString r.responderId),
  (6,encodeTexts r.witnessIds),
  (7,encodeTexts r.selectedNodes),
  (8,encodeString r.intentHash),
  (9,encodeString r.policyName),
  (10,encodeUint r.controlLevel.toUInt64),
  (11,encodeUint r.scope.toUInt64),
  (12,encodeUint r.createdNs.toUInt64),
  (13,encodeUint r.startedNs.toUInt64),
  (14,encodeUint r.completedNs.toUInt64),
  (15,encodeUint r.timeoutNs.toUInt64),
  (16,encodeUint r.retryCount.toInt64.toUInt64),
  (17,encodeUint r.maxRetries.toInt64.toUInt64),
  (18,encodeUint r.priority.toInt64.toUInt64),
  (19,encodeString r.status),
  (20,encodeString r.resultHash),
  (21,encodeString r.errorMessage)]

def writePair (pair : UInt64 × Bytes) : Bytes := encodeUint pair.1 ++ pair.2

def serializeExecution : Bytes := encodeMap 20 ++ r.pairs.flatMap writePair

/-! Reading. -/

/-- `value()` of the `Result` of a call. Of an error it is undefined, and there is no answer. -/
def demanded {α : Type} (x : Calls α) : Calls α := do
  match ← returned x with
  | some a => pure a
  | none => fun _ => none

def decodedText : Calls Bytes := demanded (call Decoder.decodeString)

def decodedNumber : Calls UInt64 := demanded (call Decoder.decodeUint)

/-- The texts of an array behind those that are there; without an array nothing is added. -/
def decodedTexts (texts : List Bytes) : Calls (List Bytes) := do
  match ← returned (call Decoder.decodeArraySize) with
  | some size => do
    let more ← times decodedText size.toNat
    pure (texts ++ more)
  | none => pure texts

variable (fuel : ℕ)

/-- The value of one pair. The fuel bounds the nesting of a value that is skipped. -/
def executionField (key : UInt64) (r : ExecutionRecord) : Calls ExecutionRecord :=
  match key.toNat with
  | 1 => do pure { r with executionId := ← decodedText }
  | 2 => do pure { r with contractId := ← decodedText }
  | 3 => do pure { r with traceId := ← decodedText }
  | 4 => do pure { r with requesterId := ← decodedText }
  | 5 => do pure { r with responderId := ← decodedText }
  | 6 => do pure { r with witnessIds := ← decodedTexts r.witnessIds }
  | 7 => do pure { r with selectedNodes := ← decodedTexts r.selectedNodes }
  | 8 => do pure { r with intentHash := ← decodedText }
  | 9 => do pure { r with policyName := ← decodedText }
  | 10 => do pure { r with controlLevel := (← decodedNumber).toUInt32 }
  | 11 => do pure { r with scope := (← decodedNumber).toUInt32 }
  | 12 => do pure { r with createdNs := (← decodedNumber).toInt64 }
  | 13 => do pure { r with startedNs := (← decodedNumber).toInt64 }
  | 14 => do pure { r with completedNs := (← decodedNumber).toInt64 }
  | 15 => do pure { r with timeoutNs := (← decodedNumber).toInt64 }
  | 16 => do pure { r with retryCount := (← decodedNumber).toInt64.toInt32 }
  | 17 => do pure { r with maxRetries := (← decodedNumber).toInt64.toInt32 }
  | 18 => do pure { r with priority := (← decodedNumber).toInt64.toInt32 }
  | 19 => do pure { r with status := ← decodedText }
  | 20 => do pure { r with resultHash := ← decodedText }
  | 21 => do pure { r with errorMessage := ← decodedText }
  | _ => do
    let _ ← returned (Decoder.skip fuel)
    pure r

def deserializeExecution (data : BytesView) : Option (Outcome ExecutionRecord) :=
  ((decodeFields (executionField fuel) {}).outcome { data }).map Prod.fst

/-! What is read where a field was written. -/

lemma goes_demanded {α : Type} {x : Calls α} {a : α} {i j : Bytes}
    (h : Goes ahead x i (pure a) j) : Goes ahead (demanded x) i (pure a) j :=
  (goes_returned h).bind (.refl _ _)

lemma goes_text (s rest : Bytes) : Goes ahead decodedText (encodeString s ++ rest) (pure s) rest :=
  goes_demanded (goes_string s rest)

lemma goes_number (n : UInt64) (rest : Bytes) :
    Goes ahead decodedNumber (encodeUint n ++ rest) (pure n) rest :=
  goes_demanded (goes_uint n rest)

lemma goes_texts (hfew : texts.length < 2^64) (rest : Bytes) :
    Goes ahead (decodedTexts []) (encodeTexts texts ++ rest) (pure texts) rest := by
  have hall : Goes ahead (times decodedText texts.length) (texts.flatMap encodeString ++ rest)
      (pure (texts.map id)) rest := Goes.times_flatMap fun s _ rest => goes_text s rest
  rw [map_id] at hall
  unfold encodeTexts decodedTexts
  rw [append_assoc]
  refine (goes_returned (goes_right_head (by decide) _ _ _ _)).bind ?_
  dsimp only
  rw [UInt64.toNat_ofNat_of_lt' hfew]
  exact hall.bind (.refl _ _)

lemma goes_stored {α μ : Type} {x : Calls α} {a : α} {word : Bytes} (set : α → μ)
    (h : ∀ rest, Goes ahead x (word ++ rest) (pure a) rest) (rest : Bytes) :
    Goes ahead (do pure (set (← x))) (word ++ rest) (pure (set a)) rest := (h rest).bind (.refl _ _)

variable {pairs : List (UInt64 × Bytes)}

lemma goes_pair {μ : Type} {value : UInt64 → μ → Calls μ} {key : UInt64} {word j : Bytes}
    {m m' : μ} {n : ℕ} {y : Calls μ}
    (h : ∀ rest, Goes ahead (value key m) (word ++ rest) (pure m') rest)
    (hrest : Goes ahead (decodePairs value n m') (pairs.flatMap writePair) y j) :
    Goes ahead (decodePairs value (n+1) m) (((key,word)::pairs).flatMap writePair) y j := by
  rw [flatMap_cons,writePair,append_assoc]
  exact (goes_uint key _).bind ((h _).bind hrest)

/-! The whole record. -/

lemma goes_execution (r : ExecutionRecord) (hwitness : r.witnessIds.length < 2^64)
    (hselected : r.selectedNodes.length < 2^64) :
    Goes ahead (decodeFields (executionField fuel) {}) (serializeExecution r)
      (pure { r with errorMessage := [] }) ([(21,encodeString r.errorMessage)].flatMap writePair) := by
  refine (goes_right_head (by decide) _ _ _ _).bind ?_
  change Goes ahead (decodePairs (executionField fuel) 20 {}) _ _ _
  -- Five texts, two lists, two texts, nine numbers and two texts.
  iterate 5
    refine goes_pair (goes_stored _ (goes_text _)) ?_
    dsimp only
  refine goes_pair (goes_stored _ (goes_texts hwitness)) ?_
  dsimp only
  refine goes_pair (goes_stored _ (goes_texts hselected)) ?_
  dsimp only
  iterate 2
    refine goes_pair (goes_stored _ (goes_text _)) ?_
    dsimp only
  iterate 9
    refine goes_pair (goes_stored _ (goes_number _)) ?_
    dsimp only
  iterate 2
    refine goes_pair (goes_stored _ (goes_text _)) ?_
    dsimp only
  -- Every number converts back to what it was, negative ones too.
  simp only [UInt32.toUInt32_toUInt64,Int64.toInt64_toUInt64,Int32.toInt32_toInt64]
  exact .refl _ _

lemma length_le_encodeTexts (texts : List Bytes) : texts.length ≤ (encodeTexts texts).length := by
  have hflat : texts.length ≤ (texts.flatMap encodeString).length := by
    induction texts with
    | nil => exact Nat.le_refl _
    | cons s texts ih =>
      have hpos := length_pos_of_ne_nil (encodeString_ne_nil s)
      rw [flatMap_cons,length_append,length_cons]
      omega
  rw [encodeTexts,length_append]
  omega

lemma length_value_le (h : pair ∈ pairs) :
    pair.2.length ≤ (pairs.flatMap writePair).length := by
  induction h with
  | head pairs =>
    rw [flatMap_cons,writePair,length_append,length_append]
    omega
  | tail first _ ih =>
    rw [flatMap_cons,length_append]
    omega

lemma deserialize_serializeExecution (fuel : ℕ) (data : BytesView)
    (hdata : data.bytes = serializeExecution r) :
    deserializeExecution fuel data = some (.ok { r with errorMessage := [] }) := by
  have hbound : (r.pairs.flatMap writePair).length < 2^64 := by
    have hsmall := data.small
    rw [hdata,serializeExecution,length_append] at hsmall
    omega
  have hsixth : (6,encodeTexts r.witnessIds) ∈ r.pairs := by simp [ExecutionRecord.pairs]
  have hseventh : (7,encodeTexts r.selectedNodes) ∈ r.pairs := by simp [ExecutionRecord.pairs]
  have hwitness := (length_le_encodeTexts r.witnessIds).trans (length_value_le hsixth)
  have hselected := (length_le_encodeTexts r.selectedNodes).trans (length_value_le hseventh)
  obtain ⟨d,-,hout⟩ := goes_execution fuel r (by omega) (by omega) { data } hdata
  unfold deserializeExecution
  rw [hout]
  rfl

/-- For every record, negative numbers included: it is read back exactly if its error message is
empty, because the map announces one pair less than is written. -/
theorem execution_round_trips_iff (r : ExecutionRecord) (fuel : ℕ) (data : BytesView)
    (hdata : data.bytes = serializeExecution r) :
    deserializeExecution fuel data = some (.ok r) ↔ r.errorMessage = [] := by
  rw [deserialize_serializeExecution r fuel data hdata,Option.some_inj,Except.ok.injEq]
  constructor
  · intro h
    rw [← h]
  · intro h
    rw [← h]

/-- The record of a failed execution, and what its encoding is read as. -/
def failedExecution : ExecutionRecord where
  executionId := literal "e1"
  witnessIds := [literal "w1",literal "w2"]
  createdNs := 5
  retryCount := 3
  status := literal "failed"
  errorMessage := literal "timeout"

theorem execution_round_trips_done :
    deserializeExecution 1 ⟨serializeExecution { failedExecution with errorMessage := [] },by decide⟩ =
      some (.ok { failedExecution with errorMessage := [] }) :=
  (execution_round_trips_iff _ 1 _ rfl).mpr rfl

theorem error_message_lost : deserializeExecution 1 ⟨serializeExecution failedExecution,by decide⟩ =
      some (.ok { failedExecution with errorMessage := [] }) ∧
    failedExecution.errorMessage ≠ [] := by
  decide +kernel

end SmoFramework.Runtime
