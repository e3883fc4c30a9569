import SmoFramework.Cbor.Reading
import SmoFramework.Library.Attempt

/-! Programs of decoder calls that go on after an error, from wherever the failed call has left the
position; and what they do in front of encoded items, also of an unexpected type. -/
namespace SmoFramework.Cbor
open Library Library.Attempt Decoder List

abbrev Calls := Attempt Decoder Failure

def call {α : Type} (f : Decoder → Outcome α × Decoder) : Calls α := fun d => some (f d)

/-- A `Result` as a value, none for an error. An exception goes on. -/
def asValue {α : Type} : Outcome α → Outcome (Option α)
  | .ok a => .ok (some a)
  | .error (.error _) => .ok none
  | .error .lengthError => .error .lengthError

def returned {α : Type} (x : Calls α) : Calls (Option α) := fun d =>
  (x.outcome d).map fun r => (asValue r.1,r.2)

/-- A byte string copied into a vector, which throws on a length no vector can have. -/
def decodeBytesCopy : Calls Bytes := do
  let v ← call decodeBytes
  .ensure (v.len ≤ kMaxString) .lengthError
  .view fun d => (d.data.bytes.drop v.off).take v.len

def Decoder.ahead (d : Decoder) : Bytes := d.data.bytes.drop d.pos

variable {α : Type} {rest : Bytes}

lemma goes_word {x y : Calls α} (hne : word ≠ [])
    (h : ∀ data pre, data.bytes = pre ++ (word ++ rest) →
      x.outcome ⟨data,pre.length⟩ = y.outcome ⟨data,pre.length+word.length⟩) :
    Goes ahead x (word ++ rest) y rest := by
  rintro ⟨data,pos⟩ hd
  have hpos : pos < data.bytes.length := by
    by_contra hend
    rw [ahead,drop_eq_nil_of_le (not_lt.mp hend)] at hd
    exact hne (append_eq_nil_iff.mp hd.symm).1
  have hbytes : data.bytes = data.bytes.take pos ++ (word ++ rest) := by
    rw [← hd,ahead,take_append_drop]
  have hout := h data _ hbytes
  rw [length_take,Nat.min_eq_left hpos.le] at hout
  refine ⟨_,?_,hout⟩
  change data.bytes.drop (pos+word.length) = rest
  rw [← drop_drop]
  exact (congrArg (drop word.length) hd).trans (drop_left ..)

lemma encodeHead_ne_nil (major : UInt8) (val : UInt64) : encodeHead major val ≠ [] :=
  ne_nil_of_length_pos (encodeHead_length_pos major val)

lemma encodeInt_ne_nil (val : Int64) : encodeInt val ≠ [] := by
  unfold encodeInt
  split
  · exact encodeHead_ne_nil _ _
  · exact encodeHead_ne_nil _ _

lemma encodeString_ne_nil (s : Bytes) : encodeString s ≠ [] :=
  append_ne_nil_of_left_ne_nil (encodeHead_ne_nil _ _) _

lemma encodeBytes_ne_nil (b : Bytes) : encodeBytes b ≠ [] :=
  append_ne_nil_of_left_ne_nil (encodeHead_ne_nil _ _) _

lemma goes_head {major : UInt8} (hm : major.toNat < 8) (want : UInt8) (code : ℕ) (message : String)
    (val : UInt64) (rest : Bytes) :
    Goes ahead (call (decodeHeadOf want code message)) (encodeHead major val ++ rest)
      (.lift (if major ≠ want then .error (cborErr code message) else .ok val)) rest := by
  refine goes_word (encodeHead_ne_nil major val) fun data pre h => congrArg some ?_
  unfold decodeHeadOf
  rw [decodeHead_encoded hm h]
  dsimp only
  split
  · rfl
  · rfl

lemma goes_wrong_head (hm : major.toNat < 8) (hne : major ≠ want) (code : ℕ)
    (message : String) (val : UInt64) (rest : Bytes) :
    Goes ahead (call (decodeHeadOf want code message)) (encodeHead major val ++ rest)
      (.lift (.error (cborErr code message))) rest := by
  have h := goes_head hm want code message val rest
  rwa [if_pos hne] at h

lemma goes_right_head (hm : want.toNat < 8) (code : ℕ) (message : String)
    (val : UInt64) (rest : Bytes) :
    Goes ahead (call (decodeHeadOf want code message)) (encodeHead want val ++ rest)
      (pure val) rest := by
  have h := goes_head hm want code message val rest
  rwa [if_neg (not_not.mpr rfl)] at h

lemma goes_no_head (want : UInt8) (code : ℕ) (message : String) :
    Goes ahead (call (decodeHeadOf want code message)) []
      (.lift (.error (cborErr 700 "CBOR: unexpected end of data"))) [] := by
  intro d hd
  have hend : d.pos ≥ d.data.size := drop_eq_nil_iff.mp hd
  refine ⟨d,hd,congrArg some ?_⟩
  unfold decodeHeadOf decodeHead
  rw [if_pos hend]

lemma goes_uint (val : UInt64) (rest : Bytes) :
    Goes ahead (call decodeUint) (encodeUint val ++ rest) (pure val) rest :=
  goes_right_head (by decide) _ _ val rest

lemma goes_int (val : Int64) (rest : Bytes) :
    Goes ahead (call decodeInt) (encodeInt val ++ rest) (pure val) rest :=
  goes_word (encodeInt_ne_nil val) fun _ _ h => congrArg some (decodeInt_encoded h)

lemma goes_string (s rest : Bytes) :
    Goes ahead (call decodeString) (encodeString s ++ rest) (pure s) rest :=
  goes_word (encodeString_ne_nil s) fun _ _ h => congrArg some (decodeString_encoded h)

lemma goes_bytes (b rest : Bytes) :
    Goes ahead decodeBytesCopy (encodeBytes b ++ rest) (pure b) rest := by
  refine goes_word (encodeBytes_ne_nil b) fun data pre h => ?_
  obtain ⟨off,hcall,hcopy,hsize⟩ := decodeBytes_encoded h
  have hret : Returns (call decodeBytes) ⟨data,pre.length⟩ ⟨off,b.length⟩
      ⟨data,pre.length+(encodeBytes b).length⟩ := congrArg some hcall
  have hmax : b.length ≤ kMaxString := by
    have := data.small
    unfold kMaxString
    unfold BytesView.size at hsize
    omega
  rw [decodeBytesCopy,hret.outcome_bind]
  simp only [ensure,if_pos hmax,outcome_bind,outcome_lift,outcome_view,Option.bind_some,hcopy,
    outcome_pure]

lemma goes_wrong_bytes {major : UInt8} (hm : major.toNat < 8) (hne : major ≠ 2) (val : UInt64)
    (rest : Bytes) : Goes ahead decodeBytesCopy (encodeHead major val ++ rest)
      (.lift (.error (cborErr 704 "CBOR: expected byte string"))) rest := by
  refine Goes.fail (goes_word (encodeHead_ne_nil major val) fun data pre h => congrArg some ?_)
  unfold decodeBytes decodeHeadOf
  rw [decodeHead_encoded hm h]
  simp only [ne_eq,hne,not_false_eq_true,if_true]

/-! The `Result` of a call. -/

section
variable {x : Calls α} {a : α} {i j : Bytes}

lemma outcome_returned (d : Decoder) :
    (returned x).outcome d = (x.outcome d).map fun r => (asValue r.1,r.2) := rfl

lemma goes_returned (h : Goes ahead x i (pure a) j) :
    Goes ahead (returned x) i (pure (some a)) j := by
  intro d hd
  obtain ⟨t,ht,hout⟩ := h d hd
  exact ⟨t,ht,by rw [outcome_returned,hout]; rfl⟩

lemma goes_returned_error (h : Goes ahead x i (.lift (.error (.error e))) j) :
    Goes ahead (returned x) i (pure none) j := by
  intro d hd
  obtain ⟨t,ht,hout⟩ := h d hd
  exact ⟨t,ht,by rw [outcome_returned,hout]; rfl⟩

end

/-! Skipping. -/

lemma skipN_zero (f : Calls Unit) : skipN f 0 = (pure () : Calls Unit) := rfl

lemma skipN_succ (f : Calls Unit) (n : ℕ) :
    (skipN f (n+1) : Calls Unit) = f >>= fun _ => skipN f n := by
  funext d
  change _ = (f >>= fun _ => skipN f n : Calls Unit).outcome d
  change _ = (f d).bind _
  unfold skipN
  rcases f d with _ | ⟨_ | _,_⟩
  · rfl
  · rfl
  · rfl

lemma skip_encoded {data : BytesView} (hm : major.toNat < 8)
    (h : data.bytes = pre ++ (encodeHead major val ++ rest)) :
    ¬pre.length ≥ data.size ∧ data.bytes.getD pre.length 0 >>> 5 = major := by
  obtain ⟨hlt,hpeek⟩ := peek_encoded hm h
  refine ⟨hlt,?_⟩
  unfold peekMajor at hpeek
  rwa [if_neg hlt] at hpeek

lemma goes_skip_uint (fuel : ℕ) (val : UInt64) (rest : Bytes) :
    Goes ahead (skip (fuel+1)) (encodeUint val ++ rest) (pure ()) rest := by
  refine goes_word (encodeHead_ne_nil 0 val) fun data pre h => ?_
  obtain ⟨hlt,hmajor⟩ := skip_encoded (by decide) h
  change skip (fuel+1) _ = _
  rw [skip,if_neg hlt]
  simp only [hmajor,decodeHead_encoded (show (0 : UInt8).toNat < 8 by decide) h]
  rfl

lemma goes_skip_string (fuel : ℕ) (s rest : Bytes) :
    Goes ahead (skip (fuel+1)) (encodeString s ++ rest) (pure ()) rest := by
  refine goes_word (encodeString_ne_nil s) fun data pre h => ?_
  have hhead := h
  rw [encodeString,append_assoc] at hhead
  obtain ⟨hlt,hmajor⟩ := skip_encoded (by decide) hhead
  change skip (fuel+1) _ = _
  rw [skip,if_neg hlt]
  simp only [hmajor,decodeString_encoded h]
  rfl

lemma goes_skip_map (fuel : ℕ) (count : ℕ) (rest : Bytes) :
    Goes ahead (skip (fuel+1)) (encodeMap count ++ rest)
      (skipN (skip fuel) (UInt64.ofNat count*2).toNat) rest := by
  refine goes_word (encodeHead_ne_nil 5 _) fun data pre h => ?_
  obtain ⟨hlt,hmajor⟩ := skip_encoded (by decide) h
  change skip (fuel+1) _ = _
  rw [skip,if_neg hlt]
  simp only [hmajor,decodeMapSize,decodeHeadOf_encoded (show (5 : UInt8).toNat < 8 by decide) _ _ h]
  rfl

lemma goes_skip_end (fuel : ℕ) : Goes ahead (skip (fuel+1)) []
      (.lift (.error (cborErr 700 "CBOR: unexpected end during skip"))) [] := by
  intro d hd
  have hend : d.pos ≥ d.data.size := drop_eq_nil_iff.mp hd
  refine ⟨d,hd,?_⟩
  change skip (fuel+1) d = _
  rw [skip,if_pos hend]
  rfl

end SmoFramework.Cbor
