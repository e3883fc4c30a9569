import SmoFramework.Cbor.ContextValue
import SmoFramework.Library.Cursor

/-! Programs of decoder calls that stop at the first error, and what they read of encoded items. -/
namespace SmoFramework.Cbor
open Library Library.Cursor Decoder

def reading (data : BytesView) {α : Type} (call : Decoder → Outcome α × Decoder) : Cursor Failure α :=
  fun pos => match call ⟨data,pos⟩ with
    | (.ok a,d) => .ok (a,d.pos)
    | (.error e,_) => .error e

variable {data : BytesView}

lemma decodes_reading {α : Type} {call : Decoder → Outcome α × Decoder} {a : α}
    (h : ∀ pre rest, data.bytes = pre ++ (word ++ rest) →
      call ⟨data,pre.length⟩ = (.ok a,⟨data,pre.length+word.length⟩)) :
    Decodes data.bytes (reading data call) word a := by
  rintro p ⟨pre,rest,hbytes,rfl⟩
  change reading data call pre.length = _
  rw [reading,h pre rest hbytes]

lemma decodes_uint (val : UInt64) :
    Decodes data.bytes (reading data decodeUint) (encodeUint val) val :=
  decodes_reading fun _ _ h => decodeHeadOf_encoded (by decide) _ _ h

lemma decodeInt_encoded (h : data.bytes = pre ++ (encodeInt val ++ rest)) :
    decodeInt ⟨data,pre.length⟩ = (.ok val,⟨data,pre.length+(encodeInt val).length⟩) := by
  unfold encodeInt at h ⊢
  by_cases hpos : val ≥ 0
  · rw [if_pos hpos,encodeUint] at h ⊢
    rw [decodeInt,decodeHead_encoded (by decide) h]
    simp
  · rw [if_neg hpos] at h ⊢
    rw [decodeInt,decodeHead_encoded (by decide) h]
    have hneg : -1-(-1-val) = val := by grind
    simp [hneg]

lemma decodes_int (val : Int64) : Decodes data.bytes (reading data decodeInt) (encodeInt val) val :=
  decodes_reading fun _ _ h => decodeInt_encoded h

lemma decodes_string (s : Bytes) :
    Decodes data.bytes (reading data decodeString) (encodeString s) s :=
  decodes_reading fun _ _ h => decodeString_encoded h

lemma decodes_arraySize (count : ℕ) : Decodes data.bytes (reading data decodeArraySize)
    (encodeArray count) (UInt64.ofNat count) :=
  decodes_reading fun _ _ h => decodeHeadOf_encoded (by decide) _ _ h

lemma decodes_mapSize (count : ℕ) :
    Decodes data.bytes (reading data decodeMapSize) (encodeMap count) (UInt64.ofNat count) :=
  decodes_reading fun _ _ h => decodeHeadOf_encoded (by decide) _ _ h

end SmoFramework.Cbor
