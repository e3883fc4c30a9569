import SmoFramework.Cbor.ContextValue

/-! Which integers are decoded to themselves. A head carries 64 unsigned bits, and the result is a signed
word of the same length; a head outside its range is not refused. -/
namespace SmoFramework.Cbor
open Decoder

def denoted (major val : ℕ) : ℤ := if major = 0 then val else -1-val

lemma toInt_toInt64 (u : UInt64) :
    u.toInt64.toInt = if u.toNat < 2^63 then (u.toNat : ℤ) else u.toNat-2^64 := by
  have h := BitVec.toInt_eq_toNat_cond u.toBitVec
  change u.toInt64.toInt = if 2*u.toNat < 2^64 then (u.toNat : ℤ) else u.toNat-(2^64 : ℕ) at h
  split_ifs <;> omega

lemma toInt_neg_toInt64 (u : UInt64) :
    (-1-u.toInt64).toInt = if u.toNat < 2^63 then -1-(u.toNat : ℤ) else 2^64-1-u.toNat := by
  have hu := u.toNat_lt
  have hint := toInt_toInt64 u
  rw [Int64.toInt_sub,show (-1 : Int64).toInt = -1 from rfl]
  split_ifs at hint ⊢ with hlt
  · rw [Int.bmod_eq_of_le] <;> omega
  · rw [Int.bmod_eq_of_le] <;> omega

variable {data : BytesView} {p major val q : ℕ}

lemma decodeHead_of_headAt (h : HeadAt data.bytes p major val q) :
    ∃ m u, decodeHead ⟨data,p⟩ = (.ok (m,u),⟨data,q⟩) ∧ m.toNat = major ∧ u.toNat = val := by
  rcases decodeHead_cases ⟨data,p⟩ with ⟨m,u,r,hd,hr⟩ | ⟨e,r,-,hno,-⟩
  · obtain ⟨hm,hu,rfl⟩ := hr.unique h
    exact ⟨m,u,hd,hm,hu⟩
  · exact absurd h (hno _ _ _)

def signedOf (major : ℕ) (u : UInt64) : Int64 := if major = 0 then u.toInt64 else -1-u.toInt64

lemma signedOf_denoted_iff (major : ℕ) (u : UInt64) :
    (signedOf major u).toInt = denoted major u.toNat ↔ u.toNat < 2^63 := by
  unfold signedOf denoted
  split_ifs
  · rw [toInt_toInt64]
    split_ifs <;> omega
  · rw [toInt_neg_toInt64]
    split_ifs <;> omega

lemma decodeInt_of_headAt (h : HeadAt data.bytes p major val q) (hint : major = 0 ∨ major = 1) :
    ∃ u : UInt64, u.toNat = val ∧
      decodeInt ⟨data,p⟩ = (.ok (signedOf major u),⟨data,q⟩) := by
  obtain ⟨m,u,hd,hm,hu⟩ := decodeHead_of_headAt h
  refine ⟨u,hu,?_⟩
  rw [decodeInt,hd]
  rcases hint with rfl | rfl
  · obtain rfl : m = 0 := UInt8.toNat_inj.mp hm
    rfl
  · obtain rfl : m = 1 := UInt8.toNat_inj.mp hm
    rfl

lemma peekMajor_of_headAt (h : HeadAt data.bytes p major val q) :
    ¬p ≥ data.size ∧ (peekMajor ⟨data,p⟩).toNat = major := by
  have hlt : ¬p ≥ data.size := not_le.mpr (h.lt.1.trans_le h.lt.2)
  refine ⟨hlt,?_⟩
  obtain ⟨ib,hib,hmajor,-⟩ := h
  unfold peekMajor
  rw [if_neg hlt,List.getD_eq_getElem?_getD,hib]
  exact (toNat_shiftRight5 ib).trans hmajor.symm

lemma decodeContextValue_of_headAt (h : HeadAt data.bytes p major val q)
    (hint : major = 0 ∨ major = 1) (fuel : ℕ) : ∃ u : UInt64, u.toNat = val ∧
      decodeContextValue (fuel+1) ⟨data,p⟩ = some (.ok (.int (signedOf major u)),⟨data,q⟩) := by
  obtain ⟨hlt,hpeek⟩ := peekMajor_of_headAt h
  rcases hint with rfl | rfl
  · have hmajor : peekMajor ⟨data,p⟩ = 0 := UInt8.toNat_inj.mp hpeek
    obtain ⟨m,u,hd,hm,hu⟩ := decodeHead_of_headAt h
    obtain rfl : m = 0 := UInt8.toNat_inj.mp hm
    have huint : decodeUint ⟨data,p⟩ = (.ok u,⟨data,q⟩) := by
      rw [decodeUint,decodeHeadOf,hd]
      rfl
    refine ⟨u,hu,?_⟩
    rw [decodeContextValue,if_neg hlt]
    simp only [hmajor,huint]
    rfl
  · have hmajor : peekMajor ⟨data,p⟩ = 1 := UInt8.toNat_inj.mp hpeek
    obtain ⟨u,hu,hdecode⟩ := decodeInt_of_headAt h (.inr rfl)
    refine ⟨u,hu,?_⟩
    rw [decodeContextValue,if_neg hlt]
    simp only [hmajor,hdecode]
    rfl

/-- In front of a complete integer each of the two decoders returns the integer that it denotes or
an error, if and only if the value of the head is below `2^63`. -/
theorem integers_decoded_iff (h : HeadAt data.bytes p major val q) (hint : major = 0 ∨ major = 1)
    (fuel : ℕ) :
    ((∀ i, (Decoder.decodeInt ⟨data,p⟩).1 = .ok i → i.toInt = denoted major val) ↔ val < 2^63) ∧
      ((∀ v d, decodeContextValue (fuel+1) ⟨data,p⟩ = some (.ok v,d) →
        ∃ i, v = .int i ∧ i.toInt = denoted major val) ↔ val < 2^63) := by
  constructor
  · obtain ⟨u,rfl,hdecode⟩ := decodeInt_of_headAt h hint
    rw [← signedOf_denoted_iff major u,hdecode]
    simp
  · obtain ⟨u,rfl,hdecode⟩ := decodeContextValue_of_headAt h hint fuel
    rw [← signedOf_denoted_iff major u,hdecode]
    simp

def answerView : BytesView := ⟨[0x18,0x2A],by decide⟩

theorem integers_decoded_answer : HeadAt answerView.bytes 0 0 42 2 ∧
    ∀ i, (Decoder.decodeInt ⟨answerView,0⟩).1 = .ok i → i.toInt = 42 :=
  have h : HeadAt answerView.bytes 0 0 42 2 :=
    ⟨0x18,rfl,rfl,.inr ⟨by decide,by decide,rfl,by decide,rfl⟩⟩
  ⟨h,(integers_decoded_iff h (.inl rfl) 0).1.mpr (by decide)⟩

def largestView : BytesView := ⟨[0x1B,0xFF,0xFF,0xFF,0xFF,0xFF,0xFF,0xFF,0xFF],by decide⟩
def smallestView : BytesView := ⟨[0x3B,0xFF,0xFF,0xFF,0xFF,0xFF,0xFF,0xFF,0xFF],by decide⟩

theorem extreme_integers_wrap :
    HeadAt largestView.bytes 0 0 (2^64-1) 9 ∧ HeadAt smallestView.bytes 0 1 (2^64-1) 9 ∧
      denoted 0 (2^64-1) = 18446744073709551615 ∧ denoted 1 (2^64-1) = -18446744073709551616 ∧
      (Decoder.decodeInt ⟨largestView,0⟩).1 = .ok (-1) ∧
      (Decoder.decodeInt ⟨smallestView,0⟩).1 = .ok 0 ∧
      decodeContextValue 1 ⟨largestView,0⟩ = some (.ok (.int (-1)),⟨largestView,9⟩) ∧
      decodeContextValue 1 ⟨smallestView,0⟩ = some (.ok (.int 0),⟨smallestView,9⟩) := by
  refine ⟨⟨0x1B,rfl,rfl,.inr ⟨by decide,by decide,rfl,by decide,by decide⟩⟩,
    ⟨0x3B,rfl,rfl,.inr ⟨by decide,by decide,rfl,by decide,by decide⟩⟩,rfl,rfl,by decide,by decide,rfl,rfl⟩

end SmoFramework.Cbor
