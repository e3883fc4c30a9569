import Mathlib.Algebra.Order.BigOperators.Group.List
import SmoFramework.Join.FieldMap

/-! Which responses to the first synchronisation come back from their wire form
(`core/join/join_protocol`). -/
namespace SmoFramework.Join
open Library Library.Attempt Cbor List Join.Field GoesField
open Decoder (ahead)

/-! The fields of a response. -/

namespace BootstrapSyncResponse
variable {fuel : ℕ} {r : BootstrapSyncResponse}

lemma decodePairs_eq (fuel n : ℕ) (r : BootstrapSyncResponse) :
    decodePairs fuel n r = Join.decodePairs (decodeValue fuel) n r := by
  induction n generalizing r with
  | zero => rfl
  | succ n ih =>
    unfold decodePairs Join.decodePairs
    simp only [ih]

def header (r : BootstrapSyncResponse) : BootstrapSyncResponse where
  manifestDelta := r.manifestDelta
  membershipDelta := r.membershipDelta
  policyDelta := r.policyDelta
  crlDelta := r.crlDelta
  manifestRevision := r.manifestRevision
  membershipRevision := r.membershipRevision
  crlRevision := r.crlRevision
  policyRevision := r.policyRevision

lemma goes_header (fuel : ℕ) (r : BootstrapSyncResponse) :
    Goes ahead (decodePairs fuel (r.fields.countP (·.present)) {}) (r.fields.flatMap Field.written)
      (decodePairs fuel ([r.seedsField,r.timeField].countP (·.present)) r.header)
      ([r.seedsField,r.timeField].flatMap Field.written) := by
  rw [decodePairs_eq,decodePairs_eq]
  refine next (goes_bytes_field r.manifestDelta rfl rfl) ?_
  refine next (goes_bytes_field r.membershipDelta rfl rfl) ?_
  refine next (goes_bytes_field r.policyDelta rfl rfl) ?_
  refine next (goes_bytes_field r.crlDelta rfl rfl) ?_
  refine next (goes_uint_field r.manifestRevision rfl rfl) ?_
  refine next (goes_uint_field r.membershipRevision rfl rfl) ?_
  refine next (goes_uint_field r.crlRevision rfl rfl) ?_
  exact next (goes_uint_field r.policyRevision rfl rfl) (.refl _ _)

/-! The seeds of a response and what comes behind them. -/

lemma seeds_decodeValue (fuel : ℕ) (key : UInt64) (acc : BootstrapSyncResponse) :
    Ensures (acc.seeds <+: ·.seeds) (decodeValue fuel key acc) := by
  have hset : ∀ {α : Type} (x : Calls α) {set : α → BootstrapSyncResponse},
      (∀ v, (set v).seeds = acc.seeds) →
        Ensures (acc.seeds <+: ·.seeds) (x >>= fun v => pure (set v)) :=
    fun x set h => .bind fun v => .pure (h v ▸ prefix_rfl)
  refine .ite (hset _ fun _ => rfl) (.ite (hset _ fun _ => rfl) (.ite (hset _ fun _ => rfl)
    (.ite (hset _ fun _ => rfl) (.ite (hset _ fun _ => rfl) (.ite (hset _ fun _ => rfl)
    (.ite (hset _ fun _ => rfl) (.ite (hset _ fun _ => rfl) (.ite ?_ (.ite (hset _ fun _ => rfl)
    (hset _ fun _ => rfl))))))))))
  exact .bind fun size => .bind fun xs => .pure (prefix_append _ _)

lemma seeds_decodePairs (h : Returns (decodePairs fuel n acc) d acc' d') : acc.seeds <+: acc'.seeds := by
  induction n generalizing acc d with
  | zero =>
    obtain ⟨rfl,-⟩ := returns_pure.mp h
    exact prefix_rfl
  | succ n ih =>
    obtain ⟨key,d₁,-,h⟩ := returns_bind.mp h
    obtain ⟨acc₁,d₂,hvalue,h⟩ := returns_bind.mp h
    exact (seeds_decodeValue fuel key acc _ _ _ hvalue).trans (ih h)

lemma goes_lost_key (hm : major.toNat < 8)
    (hne : major ≠ 0) (val : UInt64) (rest : Bytes) :
    Goes ahead (decodePairs fuel (n+1) acc) (encodeHead major val ++ rest)
      (.lift (.error (cborErr 702 "CBOR: expected unsigned integer"))) rest :=
  (goes_wrong_head hm hne _ _ val rest).fail

lemma goes_lost_delta {key : UInt64}
    {set : Bytes → Calls BootstrapSyncResponse} (hkey : decodeValue fuel key acc = decodeBytesCopy >>= set)
    (hm : major.toNat < 8) (hne : major ≠ 2) (val : UInt64) (rest : Bytes) :
    Goes ahead (decodePairs fuel (n+1) acc) (encodeUint key ++ (encodeHead major val ++ rest))
      (.lift (.error (cborErr 704 "CBOR: expected byte string"))) rest := by
  refine (goes_uint key _).bind ?_
  rw [hkey]
  exact (goes_wrong_bytes hm hne val rest).fail.fail

lemma goes_inside_weight (fuel : ℕ) (acc : BootstrapSyncResponse) (rest : Bytes) :
    Goes ahead (decodePairs (fuel+1) 1 acc) (writeHeads (innerHeads.drop 3) ++ rest) (pure acc)
      (writeHeads (innerHeads.drop 5) ++ rest) := by
  rw [show innerHeads.drop 3 = (0,100)::(0,kSeedHealthScore)::innerHeads.drop 5 from rfl,
    writeHeads_cons_append,writeHeads_cons_append]
  refine (goes_uint 100 _).bind ?_
  have hskip : Goes ahead (decodeValue (fuel+1) 100 acc)
      (encodeUint kSeedHealthScore ++ (writeHeads (innerHeads.drop 5) ++ rest)) (pure acc) _ :=
    (goes_skip_uint fuel kSeedHealthScore _).bind (.refl _ _)
  exact hskip.bind (.refl _ _)

lemma goes_inside_pair (fuel : ℕ) (acc : BootstrapSyncResponse) {b q : ℕ} (hb : b ≤ 6) (hb3 : b ≠ 3)
    (hq : b = 5 → 2 ≤ q) (hq' : b = 6 → 1 ≤ q) (hfuel : q < fuel) (key val : UInt64) :
    ∃ e j, Goes ahead (decodePairs fuel 1 acc)
      (writeHeads (innerHeads.drop b) ++ (defaultSeeds q ++ (encodeUint key ++ encodeUint val)))
      (.lift (.error e)) j := by
  interval_cases b
  · rw [show innerHeads.drop 0 = (0,kSeedEndpoint)::(3,0)::innerHeads.drop 2 from rfl,
      writeHeads_cons_append,writeHeads_cons_append]
    exact ⟨_,_,goes_lost_delta rfl (by decide) (by decide) _ _⟩
  · rw [show innerHeads.drop 1 = (3,0)::innerHeads.drop 2 from rfl,writeHeads_cons_append]
    exact ⟨_,_,goes_lost_key (by decide) (by decide) _ _⟩
  · rw [show innerHeads.drop 2 = (0,kSeedWeight)::(0,100)::innerHeads.drop 4 from rfl,
      writeHeads_cons_append,writeHeads_cons_append]
    exact ⟨_,_,goes_lost_delta rfl (by decide) (by decide) _ _⟩
  · exact absurd rfl hb3
  · rw [show innerHeads.drop 4 = [(0,kSeedHealthScore),(0,0x3FF0000000000000)] from rfl,
      writeHeads_cons_append,writeHeads_cons_append]
    exact ⟨_,_,goes_lost_delta rfl (by decide) (by decide) _ _⟩
  · obtain ⟨q,rfl⟩ : ∃ k, q = k+2 := ⟨q-2,by have := hq rfl; omega⟩
    obtain ⟨fuel,rfl⟩ : ∃ k, fuel = k+q+3 := ⟨fuel-q-3,by omega⟩
    rw [show innerHeads.drop 5 = [(0,0x3FF0000000000000)] from rfl,writeHeads_cons_append]
    exact ⟨_,_,(goes_uint _ _).bind (goes_skip_several fuel q).fail.fail⟩
  · obtain ⟨q,rfl⟩ : ∃ k, q = k+1 := ⟨q-1,by have := hq' rfl; omega⟩
    rw [defaultSeeds_succ,append_assoc]
    exact ⟨_,_,goes_lost_key (by decide) (by decide) _ _⟩

/-! Round trips. -/

/-- Equal but for what is not written and for the server's time. -/
def SameState (r r' : BootstrapSyncResponse) : Prop :=
  r' = { r with version := r'.version, nonce := r'.nonce, serverTime := r'.serverTime }

/-- Some field is there, and behind the first seed without region there are only default seeds, in a
number that matters when the server's time follows them. -/
def Readable (r : BootstrapSyncResponse) : Prop :=
  (∃ f ∈ r.fields, f.present = true) ∧
  match r.seeds.dropWhile fun si => si.region ≠ [] with
  | [] => True
  | _::later => (∀ si ∈ later, si = {}) ∧ (r.serverTime ≤ 0 ∨ later.length % 7 = 3)

def Recovers (fuel : ℕ) (data : BytesView) (r : BootstrapSyncResponse) : Prop :=
  ∃ r', decodeCbor fuel data = some (.ok r') ∧ SameState r r'

section
variable {data : BytesView} {y : Calls BootstrapSyncResponse} {j : Bytes}

lemma decodeCbor_of_goes (h : Goes ahead (decode fuel) data.bytes y j) :
    ∃ d, d.ahead = j ∧ decodeCbor fuel data = (y.outcome d).map Prod.fst := by
  obtain ⟨d,hd,hout⟩ := h ⟨data,0⟩ rfl
  exact ⟨d,hd,congrArg (Option.map Prod.fst) hout⟩

lemma recovers_iff_of_goes
    (h : Goes ahead (decode fuel) data.bytes (pure r') j) : Recovers fuel data r ↔ SameState r r' := by
  obtain ⟨d,-,hd⟩ := decodeCbor_of_goes h
  constructor
  · rintro ⟨r'',hr'',hsame⟩
    cases hr''.symm.trans hd
    exact hsame
  · exact fun hsame => ⟨r',hd,hsame⟩

lemma not_recovers_of_goes
    (h : Goes ahead (decode fuel) data.bytes (.lift (.error e)) j) : ¬Recovers fuel data r := by
  obtain ⟨d,-,hd⟩ := decodeCbor_of_goes h
  rintro ⟨r',hr',-⟩
  cases hr'.symm.trans hd

lemma goes_decode (fuel : ℕ) (r : BootstrapSyncResponse) : Goes ahead (decode fuel) r.encodeCbor
      (decodePairs fuel (if r.fields.countP (·.present) = 0 then 1 else r.fields.countP (·.present)) {})
      (r.fields.flatMap Field.written) := by
  have hcount : r.fields.countP (·.present) ≤ 10 := countP_le_length
  refine (goes_right_head (by decide) _ _ _ _).bind ?_
  rw [UInt64.toNat_ofNat_of_lt' (show _ < 2^64 by split <;> omega)]
  exact .refl _ _

lemma goes_empty (fuel : ℕ) (h : ∀ f ∈ r.fields, f.present = false) :
    Goes ahead (decode fuel) r.encodeCbor
      (.lift (.error (cborErr 700 "CBOR: unexpected end of data"))) [] := by
  have hcount : r.fields.countP (·.present) = 0 := countP_eq_zero.mpr fun f hf => by simp [h f hf]
  have hnil : r.fields.flatMap written = [] := flatMap_eq_nil_iff.mpr fun f hf => by
    simp [written,h f hf]
  have hdecode := goes_decode fuel r
  rw [if_pos hcount,hnil] at hdecode
  exact hdecode.trans (goes_no_head _ _ _).fail

lemma goes_tail (fuel : ℕ) (h : ∃ f ∈ r.fields, f.present = true) :
    Goes ahead (decode fuel) r.encodeCbor
      (decodePairs fuel ([r.seedsField,r.timeField].countP (·.present)) r.header)
      ([r.seedsField,r.timeField].flatMap Field.written) := by
  have hcount : r.fields.countP (·.present) ≠ 0 := (countP_pos_iff.mpr h).ne'
  have hdecode := goes_decode fuel r
  rw [if_neg hcount] at hdecode
  exact hdecode.trans (goes_header fuel r)

lemma goes_time (fuel : ℕ) (r acc : BootstrapSyncResponse) :
    Goes ahead (decodePairs fuel ([r.timeField].countP (·.present)) acc)
      ([r.timeField].flatMap Field.written)
      (pure (if r.serverTime > 0 then { acc with serverTime := r.serverTime } else acc)) [] := by
  rw [decodePairs_eq]
  refine goes_field _ (fun hpresent rest => ?_) (fun habsent => ?_)
  · rw [if_pos (of_decide_eq_true hpresent)]
    exact (goes_int r.serverTime rest).bind (.refl _ _)
  · rw [if_neg (of_decide_eq_false habsent)]

lemma goes_seedsField (fuel : ℕ) (hne : r.seeds ≠ []) (hlen : r.seeds.length < 2^64) :
    Goes ahead (decodePairs fuel ([r.seedsField,r.timeField].countP (·.present)) r.header)
      ([r.seedsField,r.timeField].flatMap Field.written)
      (times (decodeSeedInfo fuel) r.seeds.length >>= fun xs =>
        decodePairs fuel ([r.timeField].countP (·.present)) { r.header with seeds := xs })
      (r.seeds.flatMap encodeSeedInfo ++ [r.timeField].flatMap Field.written) := by
  have hpresent : r.seedsField.present = true := decide_eq_true hne
  rw [countP_cons_of_pos (by simpa using hpresent),flatMap_cons,written,if_pos hpresent,
    append_assoc]
  refine (goes_uint _ _).bind ?_
  rw [seedsField,append_assoc]
  change Goes ahead ((_ >>= fun size => _ >>= fun xs => pure _) >>= _) _ _ _
  simp only [bind_assoc,pure_bind]
  refine (goes_right_head (by decide) _ _ _ _).bind ?_
  rw [UInt64.toNat_ofNat_of_lt' hlen]
  exact .refl _ _

lemma recovers_complete (hdata : data.bytes = r.encodeCbor) (hfields : ∃ f ∈ r.fields, f.present = true)
    (hlen : r.seeds.length < 2^64) (hseeds : ∀ si ∈ r.seeds, si.region ≠ []) :
    Recovers fuel data r := by
  have htail := goes_tail fuel hfields
  rw [← hdata] at htail
  have hrun : Goes ahead (decodePairs fuel ([r.seedsField,r.timeField].countP (·.present)) r.header)
      ([r.seedsField,r.timeField].flatMap written)
      (decodePairs fuel ([r.timeField].countP (·.present)) { r.header with seeds := r.seeds })
      ([r.timeField].flatMap written) := by
    by_cases hne : r.seeds = []
    · have habsent : r.seedsField.present = false := decide_eq_false (not_not.mpr hne)
      rw [countP_cons_of_neg (by simp [habsent]),flatMap_cons,written,habsent,hne]
      exact .refl _ _
    · exact (goes_seedsField fuel hne hlen).trans ((goes_complete_seeds fuel hseeds _).bind (.refl _ _))
  refine (recovers_iff_of_goes (htail.trans (hrun.trans (goes_time fuel r _)))).mpr ?_
  unfold SameState
  split
  · rfl
  · rfl

lemma seedsField_mem (r : BootstrapSyncResponse) : r.seedsField ∈ r.fields := by
  simp [fields,seedsField]

lemma length_seeds_le (r : BootstrapSyncResponse) : r.seeds.length ≤ r.encodeCbor.length := by
  by_cases hne : r.seeds = []
  · simp [hne]
  have hpresent : r.seedsField.present = true := decide_eq_true hne
  have hseeds : r.seeds.length ≤ (r.seeds.flatMap encodeSeedInfo).length := by
    have hone : ∀ n ∈ r.seeds.map fun si => (encodeSeedInfo si).length, 1 ≤ n := by
      intro n hn
      obtain ⟨si,-,rfl⟩ := mem_map.mp hn
      exact length_pos_of_ne_nil (append_ne_nil_of_left_ne_nil (encodeHead_ne_nil _ _) _)
    have hsum := length_le_sum_of_one_le _ hone
    rwa [length_map,← length_flatMap] at hsum
  have hwritten : r.seedsField.written.length ≤ (r.fields.flatMap written).length := by
    rw [length_flatMap]
    exact le_sum_of_mem (mem_map_of_mem r.seedsField_mem)
  rw [written,if_pos hpresent,seedsField,length_append,length_append] at hwritten
  rw [encodeCbor,length_append]
  omega

lemma length_seeds_lt (hdata : data.bytes = r.encodeCbor) : r.seeds.length < 2^64 := by
  have hle := length_seeds_le r
  have hsmall := data.small
  rw [hdata] at hsmall
  omega

lemma timeField_absent (h : ¬r.serverTime > 0) : [r.timeField].countP (·.present) = 0 ∧
    [r.timeField].flatMap Field.written = [] := by
  simp [timeField,written,h]

lemma timeField_present (h : r.serverTime > 0) : [r.timeField].countP (·.present) = 1 ∧
    [r.timeField].flatMap Field.written =
      encodeUint kSyncRespServerTime ++ encodeUint r.serverTime.toUInt64 := by
  have hint : encodeInt r.serverTime = encodeUint r.serverTime.toUInt64 := if_pos (Int64.le_of_lt h)
  simp [timeField,written,h,hint]

section
variable {good : List SeedInfo} {si : SeedInfo} {later : List SeedInfo}

lemma goes_to_seeds (fuel : ℕ) (hdata : data.bytes = r.encodeCbor) (hseeds : r.seeds = good ++ si::later) :
    Goes ahead (decode fuel) data.bytes
      (times (decodeSeedInfo fuel) (good.length+(1+later.length)) >>= fun xs =>
        decodePairs fuel ([r.timeField].countP (·.present)) { r.header with seeds := xs })
      ((good ++ si::later).flatMap encodeSeedInfo ++ [r.timeField].flatMap Field.written) := by
  have hne : r.seeds ≠ [] := by simp [hseeds]
  have hlen := length_seeds_lt hdata
  have hfields : ∃ f ∈ r.fields, f.present = true :=
    ⟨r.seedsField,r.seedsField_mem,decide_eq_true hne⟩
  have h := (goes_tail fuel hfields).trans (goes_seedsField fuel hne hlen)
  rw [hdata]
  rwa [hseeds,show (good ++ si::later).length = good.length+(1+later.length) by simp; omega] at h

lemma recovers_untimed (hdata : data.bytes = r.encodeCbor)
    (hseeds : r.seeds = good ++ si::List.replicate m {}) (hgood : ∀ si ∈ good, si.region ≠ [])
    (hregion : si.region = []) (htime : ¬r.serverTime > 0) : Recovers fuel data r := by
  have hstart := goes_to_seeds fuel hdata hseeds
  obtain ⟨hcount,hrest⟩ := timeField_absent htime
  rw [hcount,hrest,length_replicate] at hstart
  have hrun : ∃ j, Goes ahead (times (decodeSeedInfo fuel) (1+m))
      ((si::replicate m {}).flatMap encodeSeedInfo ++ []) (pure (si::replicate m {})) j := by
    rw [flatMap_cons,append_assoc]
    cases m with
    | zero => exact ⟨_,by simpa using (goes_seed_at_end fuel hregion).times_one⟩
    | succ m => exact ⟨_,goes_short_seed fuel hregion m (by omega) []⟩
  obtain ⟨j,hrun⟩ := hrun
  refine (recovers_iff_of_goes (hstart.trans ((goes_behind_complete hgood _ hrun).bind (.refl _ _)))).mpr ?_
  rw [← hseeds]
  rfl

lemma length_later_lt (hdata : data.bytes = r.encodeCbor) (hfuel : data.size < fuel)
    (hseeds : r.seeds = good ++ si::later) : later.length < fuel := by
  have hlen := length_seeds_le r
  rw [← hdata,hseeds,length_append,length_cons] at hlen
  unfold BytesView.size at hfuel
  omega

lemma not_recovers_timed_last (hdata : data.bytes = r.encodeCbor)
    (hseeds : r.seeds = good ++ [si]) (hgood : ∀ si ∈ good, si.region ≠ []) (hregion : si.region = [])
    (htime : r.serverTime > 0) : ¬Recovers (fuel+1) data r := by
  have hstart := goes_to_seeds (fuel+1) hdata hseeds
  obtain ⟨hcount,hrest⟩ := timeField_present htime
  rw [hcount,hrest] at hstart
  have hrun := (goes_seed_before_pair fuel hregion kSyncRespServerTime (by decide)
    r.serverTime.toUInt64 []).times_one
  rw [append_nil] at hrun
  have hall := goes_behind_complete hgood [si] (by simpa using hrun)
  exact not_recovers_of_goes (hstart.trans (hall.bind (goes_no_head _ _ _).fail))

lemma recovers_timed_iff (hdata : data.bytes = r.encodeCbor) (hfuel : data.size < fuel)
    (hseeds : r.seeds = good ++ si::List.replicate m {}) (hgood : ∀ si ∈ good, si.region ≠ [])
    (hregion : si.region = []) (htime : r.serverTime > 0) : Recovers fuel data r ↔ m % 7 = 3 := by
  have hm := length_later_lt hdata hfuel hseeds
  rw [length_replicate] at hm
  obtain ⟨fuel,rfl⟩ : ∃ k, fuel = k+1 := ⟨fuel-1,by omega⟩
  cases m with
  | zero => exact iff_of_false (not_recovers_timed_last hdata hseeds hgood hregion htime) (by omega)
  | succ m =>
    have hstart := goes_to_seeds (fuel+1) hdata hseeds
    obtain ⟨hcount,hrest⟩ := timeField_present htime
    rw [hcount,hrest,length_replicate] at hstart
    have hrun := goes_short_seed (fuel+1) hregion m (n := m+1) (by omega)
      (encodeUint kSyncRespServerTime ++ encodeUint r.serverTime.toUInt64)
    have hall := goes_behind_complete hgood (si::replicate (m+1) {}) (by
      rw [flatMap_cons,append_assoc]
      exact hrun)
    by_cases hb : (m+1) % 7 = 3
    · rw [hb] at hall
      have hgoes := hstart.trans (hall.bind (goes_inside_weight fuel _ _))
      refine iff_of_true ((recovers_iff_of_goes hgoes).mpr ?_) hb
      rw [← hseeds]
      rfl
    · obtain ⟨e,j,herror⟩ := goes_inside_pair (fuel+1)
        { r.header with seeds := good ++ si::replicate (m+1) {} } (b := (m+1) % 7)
        (q := m-2*((m+1)/7)) (by omega) hb (by omega) (by omega) (by omega) kSyncRespServerTime
        r.serverTime.toUInt64
      exact iff_of_false (not_recovers_of_goes (hstart.trans (hall.bind herror))) hb

lemma not_recovers_other (hdata : data.bytes = r.encodeCbor) {other : SeedInfo}
    (hseeds : r.seeds = good ++ si::(List.replicate k ({} : SeedInfo) ++ other::others))
    (hgood : ∀ si ∈ good, si.region ≠ []) (hregion : si.region = []) (hother : other ≠ {}) :
    ¬Recovers fuel data r := by
  rintro ⟨r',hr',hsame⟩
  obtain ⟨d,hd,hdecode⟩ := decodeCbor_of_goes (goes_to_seeds fuel hdata hseeds)
  obtain ⟨⟨_,d'⟩,hout,rfl⟩ := Option.map_eq_some_iff.mp (hdecode.symm.trans hr')
  obtain ⟨xs,d₁,hxs,hpairs⟩ := returns_bind.mp hout
  obtain ⟨j,hrun⟩ := goes_other_seed fuel hregion k other
    (others.flatMap encodeSeedInfo ++ [r.timeField].flatMap written)
  have hflat : (si::(replicate k ({} : SeedInfo) ++ other::others)).flatMap encodeSeedInfo ++
      [r.timeField].flatMap written = encodeSeedInfo si ++ (defaultSeeds k ++
        (encodeSeedInfo other ++ (others.flatMap encodeSeedInfo ++ [r.timeField].flatMap written))) := by
    rw [defaultSeeds,flatMap_cons,flatMap_append,flatMap_cons,append_assoc,
      append_assoc,append_assoc]
  rw [← hflat] at hrun
  have hall := goes_behind_complete hgood _ hrun
  rw [show good.length+(1+(replicate k ({} : SeedInfo) ++ other::others).length) =
    good.length+(1+(k+1))+others.length by simp; omega] at hxs
  -- The default seed made up for `other` stays in the result.
  have hpre := (hall.times_returns hd hxs).trans (seeds_decodePairs hpairs)
  unfold SameState at hsame
  rw [congrArg seeds hsame,hseeds,prefix_append_right_inj,cons_prefix_cons,replicate_succ',
    prefix_append_right_inj,cons_prefix_cons] at hpre
  exact hother hpre.2.1.symm

end
end

lemma exists_first_not {α : Type} (p : α → Prop) [DecidablePred p] (l : List α) :
    (∀ a ∈ l, p a) ∨ ∃ l₁ a l₂, l = l₁ ++ a::l₂ ∧ (∀ b ∈ l₁, p b) ∧ ¬p a := by
  induction l with
  | nil => exact .inl (by simp)
  | cons a l ih =>
    by_cases ha : p a
    · rcases ih with hl | ⟨l₁,b,l₂,rfl,hl₁,hb⟩
      · exact .inl (forall_mem_cons.mpr ⟨ha,hl⟩)
      · exact .inr ⟨a::l₁,b,l₂,rfl,forall_mem_cons.mpr ⟨ha,hl₁⟩,hb⟩
    · exact .inr ⟨[],a,l,rfl,by simp,ha⟩

/-- A response comes back from its wire form exactly if it is readable. -/
theorem response_recovers_iff (r : BootstrapSyncResponse) (data : BytesView)
    (hdata : data.bytes = r.encodeCbor) (fuel : ℕ) (hfuel : data.size < fuel) :
    Recovers fuel data r ↔ r.Readable := by
  have hlen := length_seeds_lt hdata
  by_cases hfields : ∃ f ∈ r.fields, f.present = true
  swap
  · have hnone : ∀ f ∈ r.fields, f.present = false := by simpa using hfields
    exact iff_of_false (not_recovers_of_goes (by rw [hdata]; exact goes_empty fuel hnone))
      fun hread => hfields hread.1
  rcases exists_first_not (fun si : SeedInfo => si.region ≠ []) r.seeds with
    hall | ⟨good,si,later,hseeds,hgood,hregion⟩
  · have hdrop : r.seeds.dropWhile (fun si => si.region ≠ []) = [] := by simpa using hall
    refine iff_of_true (recovers_complete hdata hfields hlen hall) ⟨hfields,?_⟩
    rw [hdrop]
    trivial
  have hregion' : si.region = [] := not_not.mp hregion
  have hdrop : r.seeds.dropWhile (fun si => si.region ≠ []) = si::later := by
    rw [hseeds,dropWhile_append_of_pos (by simpa using hgood),
      dropWhile_cons_of_neg (by simpa using hregion')]
  have hread : r.Readable ↔ (∀ si ∈ later, si = {}) ∧ (r.serverTime ≤ 0 ∨ later.length % 7 = 3) := by
    rw [Readable,hdrop]
    exact and_iff_right hfields
  rw [hread]
  rcases exists_first_not (fun si : SeedInfo => si = {}) later with
    hdefault | ⟨front,other,others,hlater,hfront,hother⟩
  · rw [eq_replicate_of_mem hdefault] at hseeds
    by_cases htime : r.serverTime > 0
    · rw [recovers_timed_iff hdata hfuel hseeds hgood hregion' htime]
      exact ⟨fun hm => ⟨hdefault,.inr hm⟩,fun h => h.2.resolve_left (Int64.not_le.mpr htime)⟩
    · exact iff_of_true (recovers_untimed hdata hseeds hgood hregion' htime)
        ⟨hdefault,.inl (Int64.not_lt.mp htime)⟩
  · rw [hlater,eq_replicate_of_mem hfront] at hseeds
    refine iff_of_false (not_recovers_other hdata hseeds hgood hregion' hother) fun h => ?_
    exact hother (h.1 other (by simp [hlater]))

def regional : BootstrapSyncResponse where
  manifestRevision := 3
  seeds := [{ endpoint := [97], region := [101] },{ endpoint := [98], region := [102] }]
  serverTime := 5

theorem response_recovers_regional : Recovers 100 ⟨regional.encodeCbor,by decide⟩ regional :=
  (response_recovers_iff regional ⟨regional.encodeCbor,by decide⟩ rfl 100 (by decide)).mpr
    ⟨⟨regional.seedsField,regional.seedsField_mem,rfl⟩,trivial⟩

def endpointsOnly : BootstrapSyncResponse where
  manifestRevision := 3
  seeds := [{ endpoint := [97] },{ endpoint := [98] }]

/-- The second endpoint is lost without an error. -/
theorem second_endpoint_lost : decodeCbor 100 ⟨endpointsOnly.encodeCbor,by decide⟩ =
      some (.ok { endpointsOnly with seeds := [{ endpoint := [97] },{}] }) ∧
    ¬Recovers 100 ⟨endpointsOnly.encodeCbor,by decide⟩ endpointsOnly := by
  have hdecode : decodeCbor 100 ⟨endpointsOnly.encodeCbor,by decide⟩ =
      some (.ok { endpointsOnly with seeds := [{ endpoint := [97] },{}] }) := rfl
  refine ⟨hdecode,?_⟩
  rintro ⟨r',hr',hsame⟩
  cases hdecode.symm.trans hr'
  exact absurd (congrArg seeds hsame) (by decide)

end BootstrapSyncResponse
end SmoFramework.Join
