import SmoFramework.Cbor.Skip

/-! Positions and views over whole sequences of decoder calls. -/
namespace SmoFramework.Cbor
open Decoder

inductive Op
  | uint | int | bytes | string | arraySize | mapSize | skip
  deriving DecidableEq, Repr

inductive Output
  | uint (r : Outcome UInt64)
  | int (r : Outcome Int64)
  | bytes (r : Outcome View)
  | string (r : Outcome Bytes)
  | size (r : Outcome UInt64)
  | skip (r : Outcome Unit)

def Op.run (fuel : ℕ) (d : Decoder) : Op → Option (Output × Decoder)
  | .uint => some (.uint d.decodeUint.1,d.decodeUint.2)
  | .int => some (.int d.decodeInt.1,d.decodeInt.2)
  | .bytes => some (.bytes d.decodeBytes.1,d.decodeBytes.2)
  | .string => some (.string d.decodeString.1,d.decodeString.2)
  | .arraySize => some (.size d.decodeArraySize.1,d.decodeArraySize.2)
  | .mapSize => some (.size d.decodeMapSize.1,d.decodeMapSize.2)
  | .skip => (d.skip fuel).map (fun r => (.skip r.1,r.2))

def Output.InRange (data : BytesView) : Output → Prop
  | .bytes (.ok v) => v.off+v.len ≤ data.size
  | .string (.ok s) => s <:+: data.bytes
  | _ => True

/-- The byte string headed at `p` is so long that its end is not a `size_t`. -/
def Wraps (data : BytesView) (p : ℕ) : Prop :=
  ∃ v q, HeadAt data.bytes p 2 v q ∧ 2^64 ≤ q+v

/-- The positions at which a call of `skip` at `p` meets an item. -/
inductive Visits (data : BytesView) : ℕ → ℕ → Prop
  | here (p) : Visits data p p
  | inside {p q r h count i b c} (step : StepAt data p b count q) (hi : i < count)
      (before : Skipped data c i q r) (inner : Visits data r h) : Visits data p h

/-- What a call has to find in the input for its position arithmetic to be exact. -/
def Op.Safe (d : Decoder) : Op → Prop
  | .bytes => ¬Wraps d.data d.pos
  | .skip => ∀ h, Visits d.data d.pos h → ¬Wraps d.data h
  | _ => True

structure Call where
  op : Op
  output : Output
  start : ℕ
  stop : ℕ

inductive SafeRun (data : BytesView) : List Call → Decoder → Prop
  | nil : SafeRun data [] ⟨data,0⟩
  | call {calls d d' op output fuel} (run : SafeRun data calls d) (safe : Op.Safe d op)
      (step : op.run fuel d = some (output,d')) :
      SafeRun data (calls ++ [⟨op,output,d.pos,d'.pos⟩]) d'

namespace Decoder

lemma Moves.trans {d : Decoder} (h : d.Moves q) (h' : Moves { d with pos := q } r) :
    d.Moves r := ⟨h.1.trans h'.1,fun hd => h'.2 (h.2 hd)⟩

lemma decodeHeadOf_moves (major : UInt8) (code : ℕ) (message : String) (d : Decoder) :
    ∃ q, (decodeHeadOf major code message d).2 = { d with pos := q } ∧ d.Moves q := by
  rcases decodeHeadOf_cases major code message d with ⟨val,q,hd,hq⟩ | ⟨e,q,hd,-,hq⟩
  · exact ⟨q,by rw [hd],.of_headAt hq⟩
  · exact ⟨q,by rw [hd],hq⟩

lemma decodeInt_moves (d : Decoder) : ∃ q, d.decodeInt.2 = { d with pos := q } ∧ d.Moves q := by
  have hsame : d.decodeInt.2 = d.decodeHead.2 := by
    unfold decodeInt
    split
    · rename_i h
      rw [h]
    · rename_i h
      rw [h]
      split_ifs <;> rfl
  rw [hsame]
  exact d.decodeHead_moves

lemma StepAt.moves {d : Decoder} (h : StepAt d.data d.pos b count q)
    (hwrap : ¬Wraps d.data d.pos) : d.Moves q := by
  cases h with
  | scalar _ head => exact .of_headAt head
  | brokenScalar hib _ _ => exact ⟨Nat.le_succ _,fun _ => (List.getElem?_eq_some_iff.mp hib).1⟩
  | string _ head fits => exact ⟨head.lt.1.le.trans (Nat.le_add_right _ _),fun _ => fits⟩
  | wrappedBytes head wraps => exact absurd ⟨_,_,head,wraps⟩ hwrap
  | array head => exact .of_headAt head
  | map head _ => exact .of_headAt head
  | wrappedMap head _ => exact .of_headAt head

lemma skipN_moves (hskip : ∀ d x, skip fuel d = some x → Op.Safe d .skip →
      ∃ q, x.2 = { d with pos := q } ∧ d.Moves q) (h : skipN (skip fuel) n d = some x)
    (hsafe : ∀ i r b, i < n → Skipped d.data b i d.pos r → Op.Safe ⟨d.data,r⟩ .skip) :
    ∃ q, x.2 = { d with pos := q } ∧ d.Moves q := by
  induction n generalizing d with
  | zero =>
    cases h
    exact ⟨d.pos,rfl,le_rfl,id⟩
  | succ n ih =>
    have hfirst := hsafe 0 d.pos false (Nat.succ_pos n) (.nil _)
    unfold skipN at h
    split at h
    · cases h
    · rename_i e d₁ hd
      cases h
      exact hskip d _ hd hfirst
    · rename_i d₁ hd
      obtain ⟨q,rfl,hq⟩ : ∃ q, d₁ = { d with pos := q } ∧ d.Moves q := hskip d _ hd hfirst
      obtain ⟨b,q',heq,hone⟩ := skipN_skipped (skipN_one.mpr hd)
      obtain rfl : q = q' := congrArg pos heq
      obtain ⟨r,hr,hmove⟩ := ih h fun i r c hi hc => by
        obtain ⟨e,he⟩ := hone.append hc
        exact hsafe (1+i) r e (by omega) he
      exact ⟨r,hr,hq.trans hmove⟩

lemma skip_moves (h : skip fuel d = some x) (hsafe : Op.Safe d .skip) :
    ∃ q, x.2 = { d with pos := q } ∧ d.Moves q := by
  induction fuel generalizing d x with
  | zero => cases h
  | succ fuel ih =>
    rcases skip_succ fuel d with ⟨b,count,q,hstep,hskip⟩ | ⟨e,q,hskip,hmove,-⟩
    · have hq := StepAt.moves hstep (hsafe _ (.here _))
      rw [hskip] at h
      obtain ⟨r,hr,hmove⟩ := skipN_moves (fun d x => ih) h fun i r c hi hc h' hv =>
        hsafe h' (.inside hstep hi hc hv)
      exact ⟨r,hr,hq.trans hmove⟩
    · rw [hskip] at h
      cases h
      exact ⟨q,rfl,hmove⟩

end Decoder

lemma Op.run_safe (h : op.run fuel d = some (output,d')) (hsafe : Op.Safe d op) :
    (∃ q, d' = { d with pos := q } ∧ d.Moves q) ∧ output.InRange d.data := by
  cases op with
  | uint =>
    cases h
    exact ⟨decodeHeadOf_moves _ _ _ d,trivial⟩
  | int =>
    cases h
    exact ⟨d.decodeInt_moves,trivial⟩
  | arraySize =>
    cases h
    exact ⟨decodeHeadOf_moves _ _ _ d,trivial⟩
  | mapSize =>
    cases h
    exact ⟨decodeHeadOf_moves _ _ _ d,trivial⟩
  | bytes =>
    cases h
    rcases d.decodeBytes_cases with ⟨n,q,hq,hle,hd⟩ | ⟨n,q,hq,hwrap,-⟩ | ⟨e,q,hd,hmove,-⟩
    · rw [hd]
      exact ⟨⟨_,rfl,hq.lt.1.le.trans (Nat.le_add_right _ _),fun _ => hle⟩,hle⟩
    · exact absurd ⟨n,q,hq,hwrap⟩ hsafe
    · rw [hd]
      exact ⟨⟨q,rfl,hmove⟩,trivial⟩
  | string =>
    cases h
    rcases d.decodeString_cases with ⟨n,q,hq,hle,hd⟩ | ⟨e,q,hd,hmove,-⟩
    · rw [hd]
      exact ⟨⟨_,rfl,hq.lt.1.le.trans (Nat.le_add_right _ _),fun _ => hle⟩,
        (List.take_prefix _ _).isInfix.trans (List.drop_suffix _ _).isInfix⟩
    · rw [hd]
      exact ⟨⟨q,rfl,hmove⟩,trivial⟩
  | skip =>
    obtain ⟨x,hx,heq⟩ := Option.map_eq_some_iff.mp h
    cases heq
    exact ⟨skip_moves hx hsafe,trivial⟩

/-- Over every sequence of safe calls the position stays within the input and never decreases,
and every view or string that was returned lies within the input. -/
theorem safeRun_in_bounds (data : BytesView) (calls : List Call) (d : Decoder)
    (h : SafeRun data calls d) : d.data = data ∧ d.pos ≤ data.size ∧
      ∀ call ∈ calls, call.start ≤ call.stop ∧ call.stop ≤ data.size ∧ call.output.InRange data := by
  induction h with
  | nil => exact ⟨rfl,Nat.zero_le _,fun call hc => absurd hc List.not_mem_nil⟩
  | @call calls d d' op output fuel _ safe step ih =>
    obtain ⟨rfl,hpos,hcalls⟩ := ih
    obtain ⟨⟨q,rfl,hmove⟩,hrange⟩ := Op.run_safe step safe
    refine ⟨rfl,hmove.2 hpos,fun call hc => ?_⟩
    rcases List.mem_append.mp hc with hc | hc
    · exact hcalls call hc
    · rw [List.mem_singleton.mp hc]
      exact ⟨hmove.1,hmove.2 hpos,hrange⟩

def shortBytes : BytesView := ⟨[0x42,0x01,0x02],by decide⟩

theorem safeRun_in_bounds_short :
    ∃ calls d, SafeRun shortBytes calls d ∧ calls.length = 1 ∧ d.pos = 3 ∧
      d.pos ≤ shortBytes.size ∧ ∀ call ∈ calls, call.output.InRange shortBytes := by
  have hsafe : ¬Wraps shortBytes 0 := by
    rintro ⟨v,q,⟨ib,hib,-,h⟩,hwrap⟩
    obtain rfl : 0x42 = ib := Option.some.inj hib
    rcases h with ⟨-,rfl,rfl⟩ | ⟨h,-⟩
    · revert hwrap
      decide
    · revert h
      decide
  have hrun := @SafeRun.call shortBytes [] _ _ .bytes _ 0 .nil hsafe rfl
  have h := safeRun_in_bounds shortBytes _ _ hrun
  exact ⟨_,_,hrun,rfl,rfl,h.2.1,fun call hc => (h.2.2 call hc).2.2⟩

def wrappingBytes : BytesView := ⟨[0x00,0x5B,0xFF,0xFF,0xFF,0xFF,0xFF,0xFF,0xFF,0xF6],by decide⟩

/-- Reading the byte string goes back to position 0 and returns a view that reaches far beyond the
input. -/
theorem decodeBytes_wraps :
    Op.run 0 ⟨wrappingBytes,0⟩ .uint = some (.uint (.ok 0),⟨wrappingBytes,1⟩) ∧
      Op.run 0 ⟨wrappingBytes,1⟩ .bytes = some (.bytes (.ok ⟨10,2^64-10⟩),⟨wrappingBytes,0⟩) ∧
      ¬(Output.bytes (.ok ⟨10,2^64-10⟩)).InRange wrappingBytes := by
  refine ⟨rfl,rfl,?_⟩
  change ¬ 10+(2^64-10) ≤ 10
  decide

end SmoFramework.Cbor
