import SmoFramework.Cbor.Codec

/-! What `Decoder::skip` accepts. Well-formed items are given by the format; the items that
`skip` steps over are the same grammar with three deviations, each of them marked, and the two
agree exactly where no deviation is met. -/
namespace SmoFramework.Cbor

/-- A well-formed item starts at `p`: after its head and own bytes, at `q`, follow `count` items
that belong to it. -/
inductive ItemAt (data : BytesView) (p : ℕ) : ℕ → ℕ → Prop
  | scalar {m v q} (hm : m = 0 ∨ m = 1 ∨ m = 7) (head : HeadAt data.bytes p m v q) : ItemAt data p 0 q
  | string {m v q} (hm : m = 2 ∨ m = 3) (head : HeadAt data.bytes p m v q)
      (fits : q+v ≤ data.size) : ItemAt data p 0 (q+v)
  | array {v q} (head : HeadAt data.bytes p 4 v q) : ItemAt data p v q
  | map {v q} (head : HeadAt data.bytes p 5 v q) : ItemAt data p (2*v) q

inductive Items (data : BytesView) : ℕ → ℕ → ℕ → Prop
  | nil (p) : Items data 0 p p
  | item {count n p q q' r} (head : ItemAt data p count q) (inner : Items data count q q')
      (rest : Items data n q' r) : Items data (n+1) p r

def Item (data : BytesView) (p q : ℕ) : Prop := Items data 1 p q

/-- The heads `skip` steps over, marked when the format would not allow it: a head that is cut off
or reserved, a byte string whose end wraps around, and a map whose item count does. -/
inductive StepAt (data : BytesView) (p : ℕ) : Bool → ℕ → ℕ → Prop
  | scalar {m v q} (hm : m = 0 ∨ m = 1 ∨ m = 7) (head : HeadAt data.bytes p m v q) :
      StepAt data p false 0 q
  | brokenScalar {ib} (hib : data.bytes[p]? = some ib)
      (hm : ib.toNat/32 = 0 ∨ ib.toNat/32 = 1 ∨ ib.toNat/32 = 7)
      (broken : ∀ m v q, ¬HeadAt data.bytes p m v q) : StepAt data p true 0 (p+1)
  | string {m v q} (hm : m = 2 ∨ m = 3) (head : HeadAt data.bytes p m v q)
      (fits : q+v ≤ data.size) : StepAt data p false 0 (q+v)
  | wrappedBytes {v q} (head : HeadAt data.bytes p 2 v q) (wraps : 2^64 ≤ q+v) :
      StepAt data p true 0 (q+v-2^64)
  | array {v q} (head : HeadAt data.bytes p 4 v q) : StepAt data p false v q
  | map {v q} (head : HeadAt data.bytes p 5 v q) (hv : v < 2^63) : StepAt data p false (2*v) q
  | wrappedMap {v q} (head : HeadAt data.bytes p 5 v q) (hv : 2^63 ≤ v) :
      StepAt data p true (2*v-2^64) q

/-- `n` items stepped over in a row, and whether a deviation was met among them. -/
inductive Skipped (data : BytesView) : Bool → ℕ → ℕ → ℕ → Prop
  | nil (p) : Skipped data false 0 p p
  | item {b c e count n p q q' r} (step : StepAt data p b count q)
      (inner : Skipped data c count q q') (rest : Skipped data e n q' r) :
      Skipped data (b || c || e) (n+1) p r

def Deviates (data : BytesView) (p : ℕ) : Prop := ∃ q, Skipped data true 1 p q

variable {data : BytesView}

variable {count p q : ℕ} {b : Bool}

lemma StepAt.unique (h : StepAt data p b count q)
    (h' : StepAt data p b' count' q') : b = b' ∧ count = count' ∧ q = q' := by
  have hsmall : data.size < 2^63 := data.small
  cases h with
  | brokenScalar hib hm broken =>
    cases h' with
    | brokenScalar => exact ⟨rfl,rfl,rfl⟩
    | scalar _ head' | string _ head' _ | wrappedBytes head' _ | array head' | map head' _
    | wrappedMap head' _ => exact absurd head' (broken _ _ _)
  | scalar _ head | string _ head _ | wrappedBytes head _ | array head | map head _
  | wrappedMap head _ =>
    cases h' with
    | brokenScalar _ _ broken => exact absurd head (broken _ _ _)
    | scalar _ head' | string _ head' _ | wrappedBytes head' _ | array head' | map head' _
    | wrappedMap head' _ =>
      obtain ⟨hm,rfl,rfl⟩ := head.unique head'
      first | omega | exact ⟨rfl,rfl,rfl⟩

variable {n : ℕ}

lemma Skipped.unique (h : Skipped data b n p q) (h' : Skipped data b' n p q') :
    b = b' ∧ q = q' := by
  induction h generalizing b' q' with
  | nil => cases h'; exact ⟨rfl,rfl⟩
  | item step _ _ ihInner ihRest =>
    cases h' with
    | item step' inner' rest' =>
      obtain ⟨rfl,rfl,rfl⟩ := step.unique step'
      obtain ⟨rfl,rfl⟩ := ihInner inner'
      obtain ⟨rfl,rfl⟩ := ihRest rest'
      exact ⟨rfl,rfl⟩

lemma Skipped.append (h : Skipped data b n p q) (h' : Skipped data c m q r) :
    ∃ e, Skipped data e (n+m) p r := by
  induction h with
  | nil => exact ⟨c,by rwa [Nat.zero_add]⟩
  | item step inner _ _ ih =>
    obtain ⟨e,he⟩ := ih h'
    exact ⟨_,by rw [Nat.add_right_comm]; exact .item step inner he⟩

/-! Well-formed items are the unmarked ones. -/

lemma ItemAt.lt (h : ItemAt data p count q) : p < q ∧ q ≤ data.size := by
  cases h with
  | scalar _ head => exact head.lt
  | string _ head fits => exact ⟨by have := head.lt.1; omega,fits⟩
  | array head => exact head.lt
  | map head => exact head.lt

lemma Items.add_le (h : Items data n p q) : p+n ≤ q ∧ (p ≤ data.size → q ≤ data.size) := by
  induction h with
  | nil => exact ⟨le_rfl,id⟩
  | item head _ _ ihInner ihRest =>
    have := head.lt
    omega

lemma Items.skipped (h : Items data n p q) : Skipped data false n p q := by
  have hsmall : data.size < 2^63 := data.small
  induction h with
  | nil => exact .nil _
  | item head inner _ ihInner ihRest =>
    refine .item (b := false) ?_ ihInner ihRest
    have hcount := inner.add_le
    cases head with
    | scalar hm head => exact .scalar hm head
    | string hm head fits => exact .string hm head fits
    | array head => exact .array head
    | map head =>
      have hq : _ ≤ data.size := head.lt.2
      exact .map head (by omega)

lemma StepAt.itemAt (h : StepAt data p false count q) : ItemAt data p count q := by
  cases h with
  | scalar hm head => exact .scalar hm head
  | string hm head fits => exact .string hm head fits
  | array head => exact .array head
  | map head _ => exact .map head

lemma Skipped.items (h : Skipped data b n p q) (hb : b = false) : Items data n p q := by
  induction h with
  | nil => exact .nil _
  | item step _ _ ihInner ihRest =>
    obtain ⟨⟨rfl,hc⟩,he⟩ : (_ ∧ _) ∧ _ := by simpa using hb
    exact .item step.itemAt (ihInner hc) (ihRest he)

/-! The function against the grammar. -/

namespace Decoder

lemma toNat_mul_two (size : UInt64) :
    (size*2).toNat = if size.toNat < 2^63 then 2*size.toNat else 2*size.toNat-2^64 := by
  have := size.toNat_lt
  change size.toNat*2 % 2^64 = _
  split_ifs <;> omega

lemma major_toNat {ib m : UInt8} (h : ib >>> 5 = m) : ib.toNat/32 = m.toNat := by
  rw [← toNat_shiftRight5,h]

lemma major_toNat_ne {ib m : UInt8} (h : ib >>> 5 ≠ m) : ib.toNat/32 ≠ m.toNat := by
  rw [← toNat_shiftRight5]
  exact fun h' => h (UInt8.toNat_inj.mp h')

lemma major_of_headAt (hib : bytes[p]? = some ib)
    (h : HeadAt bytes p m v q) : m = ib.toNat/32 := by
  obtain ⟨ib',hib',rfl,-⟩ := h
  rw [Option.some.inj (hib.symm.trans hib')]

/-- The kinds of step, by the head byte. -/
theorem StepAt.kind (hib : data.bytes[p]? = some ib)
    (h : StepAt data p b count r) : (ib.toNat/32 = 0 ∨ ib.toNat/32 = 1 ∨ ib.toNat/32 = 7) ∨
      ∃ v q, HeadAt data.bytes p (ib.toNat/32) v q ∧
        (ib.toNat/32 = 2 ∧ (q+v ≤ data.size ∨ 2^64 ≤ q+v) ∨ ib.toNat/32 = 3 ∧ q+v ≤ data.size ∨
          ib.toNat/32 = 4 ∨ ib.toNat/32 = 5) := by
  cases h with
  | brokenScalar hib' hm _ =>
    rw [Option.some.inj (hib.symm.trans hib')]
    exact Or.inl hm
  | scalar hm head =>
    have := major_of_headAt hib head
    exact Or.inl (by omega)
  | string _ head _ | wrappedBytes head _ | array head | map head _ | wrappedMap head _ =>
    have hm := major_of_headAt hib head
    exact Or.inr ⟨_,_,hm ▸ head,by omega⟩

/-- The outcomes of one call of `skip` at `d`: a step of the grammar followed by the items
inside, or an error where no step starts. -/
def OneStep (fuel : ℕ) (d : Decoder) (r : Option (Outcome Unit × Decoder)) : Prop :=
  (∃ b count q, StepAt d.data d.pos b count q ∧ r = skipN (skip fuel) count { d with pos := q }) ∨
  (∃ e q, r = some (.error e,{ d with pos := q }) ∧ d.Moves q ∧
    ∀ b count r, ¬StepAt d.data d.pos b count r)

section
variable (fuel : ℕ) {d : Decoder} {ib : UInt8}

lemma oneStep_scalar (hib : d.data.bytes[d.pos]? = some ib)
    (hm : ib.toNat/32 = 0 ∨ ib.toNat/32 = 1 ∨ ib.toNat/32 = 7) :
    OneStep fuel d (some (.ok (),d.decodeHead.2)) := by
  have hlt := (List.getElem?_eq_some_iff.mp hib).1
  rcases d.decodeHead_cases with ⟨m,v,q,hd,hq⟩ | ⟨e,q,hd,hno,hq⟩
  · exact Or.inl ⟨_,_,_,.scalar (major_of_headAt hib hq ▸ hm) hq,by rw [hd]; rfl⟩
  · obtain ⟨rfl,-⟩ : q = d.pos+1 ∧ _ := hq.resolve_left fun h => absurd h.2 (not_le.mpr hlt)
    exact Or.inl ⟨_,_,_,.brokenScalar hib hm hno,by rw [hd]; rfl⟩

lemma oneStep_bytes (hib : d.data.bytes[d.pos]? = some ib) (hm : ib.toNat/32 = 2) :
    OneStep fuel d (match d.decodeBytes with
      | (.error e,d) => some (.error e,d)
      | (.ok _,d) => some (.ok (),d)) := by
  rcases d.decodeBytes_cases with ⟨n,q,hq,hle,hd⟩ | ⟨n,q,hq,hwrap,hd⟩ | ⟨e,q,hd,hmove,hno⟩
  · exact Or.inl ⟨_,_,_,.string (Or.inl rfl) hq hle,by rw [hd]; rfl⟩
  · exact Or.inl ⟨_,_,_,.wrappedBytes hq hwrap,by rw [hd]; rfl⟩
  · refine Or.inr ⟨e,q,by rw [hd],hmove,fun b count r h => ?_⟩
    rcases StepAt.kind hib h with h' | ⟨v,q',head,h'⟩
    · omega
    · have := hno v q' (hm ▸ head)
      omega

lemma oneStep_string (hib : d.data.bytes[d.pos]? = some ib) (hm : ib.toNat/32 = 3) :
    OneStep fuel d (match d.decodeString with
      | (.error e,d) => some (.error e,d)
      | (.ok _,d) => some (.ok (),d)) := by
  rcases d.decodeString_cases with ⟨n,q,hq,hle,hd⟩ | ⟨e,q,hd,hmove,hno⟩
  · exact Or.inl ⟨_,_,_,.string (Or.inr rfl) hq hle,by rw [hd]; rfl⟩
  · refine Or.inr ⟨e,q,by rw [hd],hmove,fun b count r h => ?_⟩
    rcases StepAt.kind hib h with h' | ⟨v,q',head,h'⟩
    · omega
    · have := hno v q' (hm ▸ head)
      omega

lemma oneStep_container (hib : d.data.bytes[d.pos]? = some ib)
    {items : UInt64 → ℕ} (hm : ib.toNat/32 = major.toNat)
    (hscalar : ¬(major.toNat = 0 ∨ major.toNat = 1 ∨ major.toNat = 7))
    (hstep : ∀ v q, HeadAt d.data.bytes d.pos major.toNat v.toNat q →
      ∃ b, StepAt d.data d.pos b (items v) q) :
    OneStep fuel d (match decodeHeadOf major code message d with
      | (.error e,d) => some (.error e,d)
      | (.ok size,d) => skipN (skip fuel) (items size) d) := by
  rcases decodeHeadOf_cases major code message d with ⟨v,q,hd,hq⟩ | ⟨e,q,hd,hno,hmove⟩
  · obtain ⟨b,hb⟩ := hstep v q hq
    exact Or.inl ⟨b,_,q,hb,by rw [hd]⟩
  · refine Or.inr ⟨e,q,by rw [hd],hmove,fun b count r h => ?_⟩
    rcases StepAt.kind hib h with h' | ⟨v,q',head,-⟩
    · exact hscalar (hm ▸ h')
    · exact hno v q' (hm ▸ head)

lemma mapStep {v : UInt64} (head : HeadAt data.bytes p 5 v.toNat q) :
    ∃ b, StepAt data p b (v*2).toNat q := by
  rw [toNat_mul_two]
  split_ifs with hv
  · exact ⟨_,.map head hv⟩
  · exact ⟨_,.wrappedMap head (not_lt.mp hv)⟩

end

/-- One call of `skip`. The branches follow the switch on the major type. -/
theorem skip_succ (fuel : ℕ) (d : Decoder) : OneStep fuel d (skip (fuel+1) d) := by
  by_cases hend : d.pos ≥ d.data.size
  · refine Or.inr ⟨_,d.pos,by rw [skip,if_pos hend],⟨le_rfl,id⟩,fun b count r h => ?_⟩
    have hlt : ∀ ib, d.data.bytes[d.pos]? ≠ some ib := fun ib hib =>
      absurd (List.getElem?_eq_some_iff.mp hib).1 (not_lt.mpr hend)
    cases h with
    | brokenScalar hib => exact hlt _ hib
    | scalar _ head | string _ head _ | wrappedBytes head _ | array head | map head _
    | wrappedMap head _ => exact hlt _ head.choose_spec.1
  have hlt : d.pos < d.data.bytes.length := Nat.lt_of_not_le hend
  obtain ⟨ib,hib⟩ : ∃ ib, d.data.bytes[d.pos]? = some ib := ⟨_,List.getElem?_eq_getElem hlt⟩
  have hget : d.data.bytes.getD d.pos 0 = ib := by rw [List.getD_eq_getElem?_getD,hib]; rfl
  rw [skip,hget]
  dsimp only
  split_ifs with h01 h2 h3 h4 h5 h7
  · exact oneStep_scalar fuel hib (h01.imp major_toNat fun h => Or.inl (major_toNat h))
  · exact oneStep_bytes fuel hib (major_toNat h2)
  · exact oneStep_string fuel hib (major_toNat h3)
  · exact oneStep_container fuel hib (major_toNat h4) (by decide) fun v q head => ⟨_,.array head⟩
  · exact oneStep_container fuel hib (major_toNat h5) (by decide) fun v q head => mapStep head
  · exact oneStep_scalar fuel hib (Or.inr (Or.inr (major_toNat h7)))
  · refine Or.inr ⟨_,d.pos,rfl,⟨le_rfl,id⟩,fun b count r h => ?_⟩
    have h0 : ib.toNat/32 ≠ 0 := major_toNat_ne (not_or.mp h01).1
    have h1 : ib.toNat/32 ≠ 1 := major_toNat_ne (not_or.mp h01).2
    have h2' : ib.toNat/32 ≠ 2 := major_toNat_ne h2
    have h3' : ib.toNat/32 ≠ 3 := major_toNat_ne h3
    have h4' : ib.toNat/32 ≠ 4 := major_toNat_ne h4
    have h5' : ib.toNat/32 ≠ 5 := major_toNat_ne h5
    have h7' : ib.toNat/32 ≠ 7 := major_toNat_ne h7
    rcases StepAt.kind hib h with h' | ⟨v,q',-,h'⟩ <;> omega

variable {d' : Decoder}

lemma skipN_mono {f g : Decoder → Option (Outcome Unit × Decoder)}
    (hfg : ∀ d d', f d = some (.ok (),d') → g d = some (.ok (),d'))
    (h : skipN f n d = some (.ok (),d')) : skipN g n d = some (.ok (),d') := by
  induction n generalizing d with
  | zero => exact h
  | succ n ih =>
    unfold skipN at h ⊢
    split at h
    · cases h
    · cases h
    · rename_i d₁ hf
      rw [hfg d d₁ hf]
      exact ih h

lemma skip_mono (hle : fuel ≤ fuel')
    (h : skip fuel d = some (.ok (),d')) : skip fuel' d = some (.ok (),d') := by
  induction fuel generalizing fuel' d d' with
  | zero => cases h
  | succ fuel ih =>
    obtain ⟨k,rfl⟩ : ∃ k, fuel' = k+1 := ⟨fuel'-1,by omega⟩
    -- Both amounts of fuel take the same step.
    rcases skip_succ fuel d with ⟨b,count,q,hstep,hskip⟩ | ⟨e,q,hskip,-,-⟩
    · rcases skip_succ k d with ⟨b',count',q',hstep',hskip'⟩ | ⟨e',q',-,-,hno⟩
      · obtain ⟨rfl,rfl,rfl⟩ := hstep.unique hstep'
        rw [hskip']
        rw [hskip] at h
        exact skipN_mono (fun _ _ => ih (by omega)) h
      · exact absurd hstep (hno _ _ _)
    · rw [hskip] at h
      cases h

lemma skipN_skipped (h : skipN (skip fuel) n d = some (.ok (),d')) :
    ∃ b q, d' = { d with pos := q } ∧ Skipped d.data b n d.pos q := by
  induction fuel generalizing n d d' with
  | zero =>
    cases n with
    | zero =>
      cases h
      exact ⟨_,_,rfl,.nil _⟩
    | succ n => cases h
  | succ fuel ihFuel =>
    induction n generalizing d with
    | zero =>
      cases h
      exact ⟨_,_,rfl,.nil _⟩
    | succ n ih =>
      unfold skipN at h
      split at h
      · cases h
      · cases h
      · rename_i d₁ hf
        rcases skip_succ fuel d with ⟨b,count,q,hstep,hskip⟩ | ⟨e,q,hskip,-,-⟩
        · rw [hskip] at hf
          obtain ⟨c,q',rfl,hinner⟩ := ihFuel hf
          obtain ⟨e,r,rfl,hrest⟩ := ih h
          exact ⟨_,r,rfl,.item hstep hinner hrest⟩
        · rw [hskip] at hf
          cases hf

/-- Whatever the grammar steps over, enough fuel steps over. -/
theorem Skipped.skipN (h : Skipped data b n p q) :
    ∃ fuel, skipN (skip fuel) n ⟨data,p⟩ = some (.ok (),⟨data,q⟩) := by
  induction h with
  | nil => exact ⟨0,rfl⟩
  | @item b c e count n p q q' r step _ _ ihInner ihRest =>
    obtain ⟨fuel,hinner⟩ := ihInner
    obtain ⟨fuel',hrest⟩ := ihRest
    refine ⟨max fuel fuel'+1,?_⟩
    have hfirst : skip (max fuel fuel'+1) ⟨data,p⟩ = some (.ok (),⟨data,q'⟩) := by
      rcases skip_succ (max fuel fuel') ⟨data,p⟩ with ⟨b',count',r',hstep,hskip⟩ | ⟨e',r',-,-,hno⟩
      · obtain ⟨rfl,rfl,rfl⟩ := step.unique hstep
        rw [hskip]
        exact skipN_mono (fun _ _ => skip_mono (le_max_left _ _)) hinner
      · exact absurd step (hno _ _ _)
    rw [Decoder.skipN,hfirst]
    exact skipN_mono (fun _ _ => skip_mono (by omega)) hrest

lemma skipN_one {f : Decoder → Option (Outcome Unit × Decoder)} :
    skipN f 1 d = some (.ok (),d') ↔ f d = some (.ok (),d') := by
  unfold skipN
  split
  · simp_all
  · simp_all
  · rename_i d₁ hf
    rw [hf]
    exact Iff.rfl

lemma skip_ok_iff : (∃ fuel, skip fuel ⟨data,p⟩ = some (.ok (),d')) ↔
      ∃ b q, d' = ⟨data,q⟩ ∧ Skipped data b 1 p q := by
  constructor
  · rintro ⟨fuel,h⟩
    exact skipN_skipped (skipN_one.mpr h)
  · rintro ⟨b,q,rfl,h⟩
    obtain ⟨fuel,h⟩ := Skipped.skipN h
    exact ⟨fuel,skipN_one.mp h⟩

end Decoder

/-- `skip` succeeds exactly on the complete well-formed items and stops at their end, for the
positions at which no deviation starts. -/
theorem skip_wellFormed_iff (data : BytesView) (p : ℕ) :
    (((∃ fuel d', Decoder.skip fuel ⟨data,p⟩ = some (.ok (),d')) ↔ ∃ q, Item data p q) ∧
      ∀ fuel d', Decoder.skip fuel ⟨data,p⟩ = some (.ok (),d') →
        d'.data = data ∧ Item data p d'.pos) ↔ ¬Deviates data p := by
  constructor
  · rintro ⟨-,hend⟩ ⟨q,hq⟩
    obtain ⟨fuel,h⟩ := Decoder.skip_ok_iff.mpr ⟨true,q,rfl,hq⟩
    have hitem := (hend fuel _ h).2
    exact absurd (hq.unique (Items.skipped hitem)).1 (by decide)
  · intro hno
    have hend : ∀ fuel d', Decoder.skip fuel ⟨data,p⟩ = some (.ok (),d') →
        d'.data = data ∧ Item data p d'.pos := by
      intro fuel d' h
      obtain ⟨b,q,rfl,hq⟩ := Decoder.skip_ok_iff.mp ⟨fuel,h⟩
      cases b with
      | true => exact absurd ⟨q,hq⟩ hno
      | false => exact ⟨rfl,hq.items rfl⟩
    refine ⟨⟨?_,?_⟩,hend⟩
    · rintro ⟨fuel,d',h⟩
      exact ⟨_,(hend fuel d' h).2⟩
    · rintro ⟨q,hq⟩
      obtain ⟨fuel,h⟩ := Decoder.skip_ok_iff.mpr ⟨false,q,rfl,Items.skipped hq⟩
      exact ⟨fuel,_,h⟩

def truncatedUint : BytesView := ⟨[0x18],by decide⟩

/-- `skip` reports success on a truncated integer, which is no item. -/
theorem skip_truncated_uint : Decoder.skip 1 ⟨truncatedUint,0⟩ = some (.ok (),⟨truncatedUint,1⟩) ∧
      ¬∃ q, Item truncatedUint 0 q := by
  refine ⟨rfl,?_⟩
  rintro ⟨q,hq⟩
  have hno : ∀ m v q, ¬HeadAt truncatedUint.bytes 0 m v q := by
    rintro m v q ⟨ib,hib,-,h⟩
    obtain rfl : 0x18 = ib := Option.some.inj hib
    rcases h with ⟨h,-⟩ | ⟨-,-,rfl,h,-⟩ <;> revert h <;> decide
  cases hq with
  | item head _ _ =>
    cases head with
    | scalar _ head | string _ head _ | array head | map head => exact hno _ _ _ head

end SmoFramework.Cbor
