import SmoFramework.Join.SyncResponse

/-! Maps of optional fields: what a loop over the pairs reads where a list of fields was written, each of
them either there or left out because it has its default value. -/
namespace SmoFramework.Join
open Library Library.Attempt Cbor
open Decoder (ahead)

variable {μ : Type}

def decodePairs (value : UInt64 → μ → Calls μ) : ℕ → μ → Calls μ
  | 0,m => pure m
  | n+1,m => do
    let key ← call Decoder.decodeUint
    let m ← value key m
    decodePairs value n m

def decodeFields (value : UInt64 → μ → Calls μ) (default : μ) : Calls μ := do
  let size ← call Decoder.decodeMapSize
  decodePairs value size.toNat default

section
variable {value : UInt64 → μ → Calls μ} {key : UInt64} {fs : List Field}

/-- In front of the fields, the loop goes on behind the first one with the message changed. -/
def GoesField (value : UInt64 → μ → Calls μ) (f : Field) (fs : List Field) (m m' : μ) : Prop :=
  Goes ahead (decodePairs value ((f::fs).countP (·.present)) m) ((f::fs).flatMap Field.written)
    (decodePairs value (fs.countP (·.present)) m') (fs.flatMap Field.written)

theorem GoesField.next (h : GoesField value f fs m m')
    (hrest : Goes ahead (decodePairs value (fs.countP (·.present)) m') (fs.flatMap Field.written) y j) :
    Goes ahead (decodePairs value ((f::fs).countP (·.present)) m) ((f::fs).flatMap Field.written) y j :=
  Goes.trans h hrest

/-- A field sets its value if it is there, and has the default value if not. -/
theorem goes_field (m' : μ)
    (h : f.present = true → ∀ rest, Goes ahead (value f.key m) (f.value ++ rest) (pure m') rest)
    (habsent : f.present = false → m = m') : GoesField value f fs m m' := by
  unfold GoesField
  rw [List.flatMap_cons,Field.written]
  cases hpresent : f.present with
  | false =>
    rw [List.countP_cons_of_neg (by simp [hpresent]),habsent hpresent]
    exact .refl _ _
  | true =>
    rw [List.countP_cons_of_pos (by simp [hpresent]),if_pos rfl,List.append_assoc]
    exact (goes_uint f.key _).bind ((h hpresent _).bind (.refl _ _))

variable {set : Bytes → μ}

theorem goes_bytes_field (b : Bytes)
    (hkey : value key m = decodeBytesCopy >>= fun v => pure (set v)) (hdefault : set [] = m) :
    GoesField value ⟨b ≠ [],key,encodeBytes b⟩ fs m (set b) := by
  refine goes_field (set b) (fun _ rest => ?_) (fun habsent => ?_)
  · rw [hkey]
    exact (goes_bytes b rest).bind (.refl _ _)
  · rw [not_not.mp (of_decide_eq_false habsent),hdefault]

theorem goes_string_field (s : Bytes)
    (hkey : value key m = call Decoder.decodeString >>= fun v => pure (set v)) (hdefault : set [] = m) :
    GoesField value ⟨s ≠ [],key,encodeString s⟩ fs m (set s) := by
  refine goes_field (set s) (fun _ rest => ?_) (fun habsent => ?_)
  · rw [hkey]
    exact (goes_string s rest).bind (.refl _ _)
  · rw [not_not.mp (of_decide_eq_false habsent),hdefault]

theorem goes_uint_field (n : UInt64) {set : UInt64 → μ}
    (hkey : value key m = call Decoder.decodeUint >>= fun v => pure (set v)) (hdefault : set 0 = m) :
    GoesField value ⟨n > 0,key,encodeUint n⟩ fs m (set n) := by
  refine goes_field (set n) (fun _ rest => ?_) (fun habsent => ?_)
  · rw [hkey]
    exact (goes_uint n rest).bind (.refl _ _)
  · rw [UInt64.le_antisymm (UInt64.not_lt.mp (of_decide_eq_false habsent)) (by simp),hdefault]

theorem goes_time_field (ht : 0 ≤ t) {set : Int64 → μ}
    (hkey : value key m = call Decoder.decodeInt >>= fun v => pure (set v)) (hdefault : set 0 = m) :
    GoesField value ⟨t > 0,key,encodeInt t⟩ fs m (set t) := by
  refine goes_field (set t) (fun _ rest => ?_) (fun habsent => ?_)
  · rw [hkey]
    exact (goes_int t rest).bind (.refl _ _)
  · rw [Int64.le_antisymm (Int64.not_lt.mp (of_decide_eq_false habsent)) ht,hdefault]

theorem goes_fixed_field (h : ∀ rest, Goes ahead (value key m) (word ++ rest) (pure m') rest) :
    GoesField value ⟨true,key,word⟩ fs m m' :=
  goes_field m' (fun _ => h) (fun habsent => by cases habsent)

theorem goes_version_field (version : UInt8) (set : UInt8 → μ)
    (hkey : value key m = call Decoder.decodeUint >>= fun v => pure (set v.toUInt8)) :
    GoesField value ⟨true,key,encodeUint version.toUInt64⟩ fs m (set version) := by
  have hnarrow : version.toUInt64.toUInt8 = version := by simp
  refine goes_fixed_field fun rest => ?_
  rw [hkey]
  refine (goes_uint _ rest).bind ?_
  rw [hnarrow]
  exact .refl _ _

theorem goes_decodeFields (hcount : count = fs.countP (·.present))
    (hfew : fs.length < 2^64)
    (h : Goes ahead (decodePairs value (fs.countP (·.present)) m) (fs.flatMap Field.written)
      (pure m') j) :
    Goes ahead (decodeFields value m) (encodeMap count ++ fs.flatMap Field.written) (pure m') j := by
  refine (goes_right_head (by decide) _ _ _ _).bind ?_
  rw [hcount,UInt64.toNat_ofNat_of_lt' (List.countP_le_length.trans_lt hfew)]
  exact h

end
end SmoFramework.Join
