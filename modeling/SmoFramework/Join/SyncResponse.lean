import SmoFramework.Cbor.Calls
import SmoFramework.Join.BootstrapSync

/-! The wire form of a response to the first synchronisation (`core/join/join_protocol`), and which
responses come back from it. A seed is announced as a map of four pairs, also when its region is empty
and only three are written. -/
namespace SmoFramework.Join
open Library Library.Attempt Cbor List Decoder
open Decoder (ahead)

/-! Seeds. -/

def kSeedEndpoint : UInt64 := 1
def kSeedRegion : UInt64 := 2
def kSeedWeight : UInt64 := 3
def kSeedHealthScore : UInt64 := 4

def encodeSeedInfo (si : SeedInfo) : Bytes :=
  encodeMap 4 ++ (encodeUint kSeedEndpoint ++ (encodeString si.endpoint ++
    ((if si.region = [] then [] else encodeUint kSeedRegion ++ encodeString si.region) ++
    (encodeUint kSeedWeight ++ (encodeUint si.weight.toUInt64 ++
    (encodeUint kSeedHealthScore ++ encodeUint si.healthScore))))))

/-- What a pair sets; a value that cannot be read leaves its field alone. None ends the loop. -/
def decodeSeedValue (fuel : ℕ) (key : UInt64) (si : SeedInfo) : Calls (Option SeedInfo) :=
  if key = kSeedEndpoint then do
    let v ← returned (call decodeString)
    pure (some { si with endpoint := v.getD si.endpoint })
  else if key = kSeedRegion then do
    let v ← returned (call decodeString)
    pure (some { si with region := v.getD si.region })
  else if key = kSeedWeight then do
    let v ← returned (call decodeUint)
    pure (some { si with weight := (v.map UInt64.toUInt32).getD si.weight })
  else if key = kSeedHealthScore then do
    let v ← returned (call decodeUint)
    pure (some { si with healthScore := v.getD si.healthScore })
  else do
    let r ← returned (skip fuel)
    pure (r.map fun _ => si)

def decodeSeedPairs (fuel : ℕ) : ℕ → SeedInfo → Calls SeedInfo
  | 0,si => pure si
  | n+1,si => do
    match ← returned (call decodeUint) with
    | none => pure si
    | some key =>
      match ← decodeSeedValue fuel key si with
      | none => pure si
      | some si => decodeSeedPairs fuel n si

/-- `decode_seed_info`: errors end it early and are not passed on. -/
def decodeSeedInfo (fuel : ℕ) : Calls SeedInfo := do
  match ← returned (call decodeMapSize) with
  | none => pure {}
  | some size => decodeSeedPairs fuel size.toNat {}

/-! Responses. -/

def kSyncRespMfDelta : UInt64 := 1
def kSyncRespMemberDelta : UInt64 := 2
def kSyncRespPolicyDelta : UInt64 := 3
def kSyncRespCrlDelta : UInt64 := 4
def kSyncRespMfRev : UInt64 := 5
def kSyncRespMemberRev : UInt64 := 6
def kSyncRespCrlRev : UInt64 := 7
def kSyncRespPolicyRev : UInt64 := 8
def kSyncRespServerTime : UInt64 := 10
def kSyncRespSeeds : UInt64 := 11

/-- A field that is left out unless its condition holds. -/
structure Field where
  present : Bool
  key : UInt64
  value : Bytes

def Field.written (f : Field) : Bytes := if f.present then encodeUint f.key ++ f.value else []

namespace BootstrapSyncResponse

variable (r : BootstrapSyncResponse)

def seedsField : Field :=
  ⟨r.seeds ≠ [],kSyncRespSeeds,encodeArray r.seeds.length ++ r.seeds.flatMap encodeSeedInfo⟩

def timeField : Field :=
  ⟨r.serverTime > 0,kSyncRespServerTime,encodeInt r.serverTime⟩

def fields : List Field :=
  [⟨r.manifestDelta ≠ [],kSyncRespMfDelta,encodeBytes r.manifestDelta⟩,
    ⟨r.membershipDelta ≠ [],kSyncRespMemberDelta,encodeBytes r.membershipDelta⟩,
    ⟨r.policyDelta ≠ [],kSyncRespPolicyDelta,encodeBytes r.policyDelta⟩,
    ⟨r.crlDelta ≠ [],kSyncRespCrlDelta,encodeBytes r.crlDelta⟩,
    ⟨r.manifestRevision > 0,kSyncRespMfRev,encodeUint r.manifestRevision⟩,
    ⟨r.membershipRevision > 0,kSyncRespMemberRev,encodeUint r.membershipRevision⟩,
    ⟨r.crlRevision > 0,kSyncRespCrlRev,encodeUint r.crlRevision⟩,
    ⟨r.policyRevision > 0,kSyncRespPolicyRev,encodeUint r.policyRevision⟩,
    r.seedsField,
    r.timeField]

/-- `encode_cbor`: a map without pairs is announced with one. -/
def encodeCbor : Bytes :=
  let count := r.fields.countP (·.present)
  encodeMap (if count = 0 then 1 else count) ++ r.fields.flatMap Field.written

variable (fuel : ℕ)

def decodeValue (key : UInt64) (r : BootstrapSyncResponse) : Calls BootstrapSyncResponse :=
  if key = kSyncRespMfDelta then do
    let v ← decodeBytesCopy
    pure { r with manifestDelta := v }
  else if key = kSyncRespMemberDelta then do
    let v ← decodeBytesCopy
    pure { r with membershipDelta := v }
  else if key = kSyncRespPolicyDelta then do
    let v ← decodeBytesCopy
    pure { r with policyDelta := v }
  else if key = kSyncRespCrlDelta then do
    let v ← decodeBytesCopy
    pure { r with crlDelta := v }
  else if key = kSyncRespMfRev then do
    let v ← call decodeUint
    pure { r with manifestRevision := v }
  else if key = kSyncRespMemberRev then do
    let v ← call decodeUint
    pure { r with membershipRevision := v }
  else if key = kSyncRespCrlRev then do
    let v ← call decodeUint
    pure { r with crlRevision := v }
  else if key = kSyncRespPolicyRev then do
    let v ← call decodeUint
    pure { r with policyRevision := v }
  else if key = kSyncRespSeeds then do
    let size ← call decodeArraySize
    let seeds ← times (decodeSeedInfo fuel) size.toNat
    pure { r with seeds := r.seeds ++ seeds }
  else if key = kSyncRespServerTime then do
    let v ← call decodeInt
    pure { r with serverTime := v }
  else do
    (skip fuel : Calls Unit)
    pure r

def decodePairs (fuel : ℕ) : ℕ → BootstrapSyncResponse → Calls BootstrapSyncResponse
  | 0,r => pure r
  | n+1,r => do
    let key ← call decodeUint
    let r ← decodeValue fuel key r
    decodePairs fuel n r

def decode : Calls BootstrapSyncResponse := do
  let size ← call decodeMapSize
  decodePairs fuel size.toNat {}

/-- `decode_cbor`. The fuel bounds the nesting of skipped items. -/
def decodeCbor (data : BytesView) : Option (Outcome BootstrapSyncResponse) :=
  ((decode fuel).outcome ⟨data,0⟩).map Prod.fst

end BootstrapSyncResponse

/-! One seed. -/

section
variable {fuel n : ℕ} {si si' : SeedInfo} {key : UInt64} {word rest : Bytes}

lemma goes_seed_pair
    (h : Goes ahead (decodeSeedValue fuel key si) (word ++ rest) (pure (some si')) rest) :
    Goes ahead (decodeSeedPairs fuel (n+1) si) (encodeUint key ++ (word ++ rest))
      (decodeSeedPairs fuel n si') rest :=
  (goes_returned (goes_uint key _)).bind (h.bind (.refl _ _))

lemma goes_seed_endpoint (s rest : Bytes) :
    Goes ahead (decodeSeedValue fuel kSeedEndpoint si) (encodeString s ++ rest)
      (pure (some { si with endpoint := s })) rest :=
  (goes_returned (goes_string s rest)).bind (.refl _ _)

lemma goes_seed_region (s rest : Bytes) :
    Goes ahead (decodeSeedValue fuel kSeedRegion si) (encodeString s ++ rest)
      (pure (some { si with region := s })) rest :=
  (goes_returned (goes_string s rest)).bind (.refl _ _)

lemma goes_seed_weight (weight : UInt32) (rest : Bytes) :
    Goes ahead (decodeSeedValue fuel kSeedWeight si) (encodeUint weight.toUInt64 ++ rest)
      (pure (some { si with weight })) rest := by
  refine (goes_returned (goes_uint weight.toUInt64 rest)).bind ?_
  rw [Option.map_some,UInt32.toUInt32_toUInt64]
  exact .refl _ _

lemma goes_seed_health (score : UInt64) (rest : Bytes) :
    Goes ahead (decodeSeedValue fuel kSeedHealthScore si) (encodeUint score ++ rest)
      (pure (some { si with healthScore := score })) rest :=
  (goes_returned (goes_uint score rest)).bind (.refl _ _)

variable (fuel : ℕ)

lemma goes_seed_fields (si : SeedInfo) (rest : Bytes) :
    Goes ahead (decodeSeedInfo fuel) (encodeSeedInfo si ++ rest)
      (decodeSeedPairs fuel (if si.region = [] then 1 else 0) si) rest := by
  obtain ⟨endpoint,region,weight,score⟩ := si
  simp only [encodeSeedInfo,append_assoc]
  refine (goes_returned (goes_right_head (by decide) _ _ _ _)).bind ?_
  refine (goes_seed_pair (n := 3) (goes_seed_endpoint _ _)).trans ?_
  by_cases hregion : region = []
  · subst hregion
    exact ((goes_seed_pair (n := 2) (goes_seed_weight _ _)).trans
      (goes_seed_pair (n := 1) (goes_seed_health _ _)))
  · rw [if_neg hregion,if_neg hregion]
    exact (goes_seed_pair (n := 2) (goes_seed_region _ _)).trans
      ((goes_seed_pair (n := 1) (goes_seed_weight _ _)).trans
      (goes_seed_pair (n := 0) (goes_seed_health _ _)))

lemma goes_seed_complete (hregion : si.region ≠ []) (rest : Bytes) :
    Goes ahead (decodeSeedInfo fuel) (encodeSeedInfo si ++ rest) (pure si) rest := by
  have h := goes_seed_fields fuel si rest
  rwa [if_neg hregion] at h

lemma goes_seed_short (fuel : ℕ) (hregion : si.region = [])
    (h : Goes ahead (decodeSeedPairs fuel 1 si) i (pure si) j) :
    Goes ahead (decodeSeedInfo fuel) (encodeSeedInfo si ++ i) (pure si) j := by
  have hfields := goes_seed_fields fuel si i
  rw [if_pos hregion] at hfields
  exact hfields.trans h

lemma goes_seed_before_head (fuel : ℕ) (hregion : si.region = []) (hm : major.toNat < 8)
    (hne : major ≠ 0) (val : UInt64) (rest : Bytes) : Goes ahead (decodeSeedInfo fuel)
    (encodeSeedInfo si ++ (encodeHead major val ++ rest)) (pure si) rest :=
  goes_seed_short fuel hregion ((goes_returned_error (goes_wrong_head hm hne _ _ val rest)).bind
    (.refl _ _))

lemma goes_seed_at_end (hregion : si.region = []) :
    Goes ahead (decodeSeedInfo fuel) (encodeSeedInfo si) (pure si) [] := by
  rw [← append_nil (encodeSeedInfo si)]
  exact goes_seed_short fuel hregion ((goes_returned_error (goes_no_head _ _ _)).bind (.refl _ _))

lemma goes_seed_before_pair (hregion : si.region = []) (key : UInt64) (hkey : 4 < key)
    (val : UInt64) (rest : Bytes) : Goes ahead (decodeSeedInfo (fuel+1))
      (encodeSeedInfo si ++ (encodeUint key ++ (encodeUint val ++ rest))) (pure si) rest := by
  refine goes_seed_short _ hregion ((goes_seed_pair (n := 0) ?_).trans (.refl _ _))
  have hne : ∀ k ≤ (4 : UInt64), key ≠ k := by
    rintro k hk rfl
    exact absurd hk (UInt64.not_le.mpr hkey)
  unfold decodeSeedValue
  rw [if_neg (hne _ (by decide)),if_neg (hne _ (by decide)),if_neg (hne _ (by decide)),
    if_neg (hne _ (by decide))]
  exact (goes_returned (goes_skip_uint fuel val rest)).bind (.refl _ _)

lemma goes_seed_inside (fuel : ℕ) (hm : major.toNat < 8) (hne : major ≠ 5)
    (val : UInt64) (rest : Bytes) :
    Goes ahead (decodeSeedInfo fuel) (encodeHead major val ++ rest) (pure {}) rest :=
  (goes_returned_error (goes_wrong_head hm hne _ _ val rest)).bind (.refl _ _)

end

/-! Seeds in a row, once the position is not at the start of one. -/

def innerHeads : List (UInt8 × UInt64) :=
  [(0,kSeedEndpoint),(3,0),(0,kSeedWeight),(0,100),(0,kSeedHealthScore),(0,0x3FF0000000000000)]

def writeHeads (heads : List (UInt8 × UInt64)) : Bytes := heads.flatMap fun h => encodeHead h.1 h.2

lemma writeHeads_cons_append (c : UInt8 × UInt64) (heads : List (UInt8 × UInt64)) (rest : Bytes) :
    writeHeads (c::heads) ++ rest = encodeHead c.1 c.2 ++ (writeHeads heads ++ rest) := by
  rw [writeHeads,flatMap_cons,append_assoc]
  rfl

lemma writeHeads_append (heads heads' : List (UInt8 × UInt64)) :
    writeHeads (heads ++ heads') = writeHeads heads ++ writeHeads heads' := flatMap_append

def defaultSeeds (n : ℕ) : Bytes := (List.replicate n ({} : SeedInfo)).flatMap encodeSeedInfo

lemma defaultSeeds_succ (n : ℕ) :
    defaultSeeds (n+1) = encodeMap 4 ++ (writeHeads innerHeads ++ defaultSeeds n) := by
  rfl

lemma goes_inner_heads (fuel : ℕ) (h : heads ⊆ innerHeads)
    (rest : Bytes) :
    Goes ahead (times (decodeSeedInfo fuel) heads.length) (writeHeads heads ++ rest)
      (pure (List.replicate heads.length {})) rest := by
  have hinner : ∀ c ∈ innerHeads, c.1.toNat < 8 ∧ c.1 ≠ 5 := by simp [innerHeads]
  rw [← map_const']
  refine Goes.times_flatMap fun c hc rest => ?_
  obtain ⟨hm,hne⟩ := hinner c (h hc)
  exact goes_seed_inside fuel hm hne _ rest

lemma goes_two_seeds (fuel : ℕ) (rest : Bytes) : Goes ahead (times (decodeSeedInfo fuel) 7)
      (writeHeads innerHeads ++ (encodeSeedInfo {} ++ (encodeMap 4 ++ rest)))
      (pure (List.replicate 7 {})) rest :=
  (goes_inner_heads fuel (List.Subset.refl _) _).times_append
    (goes_seed_before_head fuel rfl (by decide) (by decide) _ rest).times_one

lemma goes_inside (fuel a q : ℕ) (hb : b ≤ 6) (rest : Bytes) :
    Goes ahead (times (decodeSeedInfo fuel) (7*a+b))
      (writeHeads innerHeads ++ (defaultSeeds (2*a+q) ++ rest)) (pure (List.replicate (7*a+b) {}))
      (writeHeads (innerHeads.drop b) ++ (defaultSeeds q ++ rest)) := by
  induction a with
  | zero =>
    have hlen : (innerHeads.take b).length = b := length_take_of_le hb
    have h := goes_inner_heads fuel (take_subset b innerHeads)
      (writeHeads (innerHeads.drop b) ++ (defaultSeeds q ++ rest))
    rw [hlen,← append_assoc,← writeHeads_append,take_append_drop] at h
    simpa only [Nat.mul_zero,Nat.zero_add] using h
  | succ a ih =>
    rw [show 7*(a+1)+b = 7+(7*a+b) by omega,show 2*(a+1)+q = 2*a+q+1+1 by omega,defaultSeeds_succ,
      defaultSeeds_succ,← replicate_append_replicate]
    have h := (goes_two_seeds fuel (writeHeads innerHeads ++ (defaultSeeds (2*a+q) ++ rest))).times_append
      ih
    simpa only [show encodeSeedInfo {} = encodeMap 4 ++ writeHeads innerHeads from rfl,append_assoc]
      using h

/-! Lists of seeds with and without regions. -/

section
variable {si : SeedInfo}

lemma goes_complete_seeds (fuel : ℕ) {seeds : List SeedInfo} (h : ∀ si ∈ seeds, si.region ≠ [])
    (rest : Bytes) :
    Goes ahead (times (decodeSeedInfo fuel) seeds.length) (seeds.flatMap encodeSeedInfo ++ rest)
      (pure seeds) rest := by
  have hrun : Goes ahead _ (seeds.flatMap encodeSeedInfo ++ rest) (pure (seeds.map id)) rest :=
    Goes.times_flatMap fun si hsi rest => goes_seed_complete fuel (h si hsi) rest
  rwa [map_id] at hrun

/-- Seeds that all have a region in front of others. -/
theorem goes_behind_complete {good : List SeedInfo} (hgood : ∀ si ∈ good, si.region ≠ [])
    (later : List SeedInfo)
    (h : Goes ahead (times (decodeSeedInfo fuel) n) (later.flatMap encodeSeedInfo ++ rest) (pure xs) j) :
    Goes ahead (times (decodeSeedInfo fuel) (good.length+n))
      ((good ++ later).flatMap encodeSeedInfo ++ rest) (pure (good ++ xs)) j := by
  rw [flatMap_append,append_assoc]
  exact (goes_complete_seeds fuel hgood _).times_append h

theorem goes_short_seed (fuel : ℕ) (hregion : si.region = []) (m : ℕ)
    (hn : 2*(n/7) ≤ m) (rest : Bytes) : Goes ahead (times (decodeSeedInfo fuel) (1+n))
      (encodeSeedInfo si ++ (defaultSeeds (m+1) ++ rest)) (pure (si::List.replicate n {}))
      (writeHeads (innerHeads.drop (n % 7)) ++ (defaultSeeds (m-2*(n/7)) ++ rest)) := by
  rw [defaultSeeds_succ,append_assoc]
  have hinside := goes_inside fuel (n/7) (m-2*(n/7)) (b := n % 7) (by omega) rest
  rw [Nat.div_add_mod,Nat.add_sub_cancel' hn] at hinside
  exact (goes_seed_before_head fuel hregion (by decide) (by decide) _ _).times_one.times_append hinside

lemma goes_other_seed (fuel : ℕ) (hregion : si.region = []) (k : ℕ) (other : SeedInfo) (rest : Bytes) :
    ∃ j, Goes ahead (times (decodeSeedInfo fuel) (1+(k+1)))
      (encodeSeedInfo si ++ (defaultSeeds k ++ (encodeSeedInfo other ++ rest)))
      (pure (si::List.replicate (k+1) {})) j := by
  cases k with
  | zero =>
    rw [show encodeSeedInfo other = encodeMap 4 ++ (encodeUint kSeedEndpoint ++ _) from rfl]
    simp only [append_assoc]
    exact ⟨_,(goes_seed_before_head fuel hregion (by decide) (by decide) _ _).times_one.times_append
      (goes_seed_inside fuel (by decide) (by decide) _ _).times_one⟩
  | succ k => exact ⟨_,goes_short_seed fuel hregion k (by omega) _⟩

end

/-! Skipping default seeds that a pair of the response follows. -/

section
variable {key val : UInt64}

lemma goes_skip_head (fuel : ℕ) (hc : c ∈ innerHeads) (rest : Bytes) :
    Goes ahead (skip (fuel+1)) (encodeHead c.1 c.2 ++ rest) (pure ()) rest := by
  have hinner : ∀ c ∈ innerHeads, c.1 = 0 ∨ c = (3,0) := by simp [innerHeads]
  obtain ⟨major,val⟩ := c
  rcases hinner _ hc with rfl | h
  · exact goes_skip_uint fuel val rest
  · cases h
    exact goes_skip_string fuel [] rest

lemma goes_skip_heads (fuel n : ℕ) (h : heads ⊆ innerHeads)
    (rest : Bytes) :
    Goes ahead (skipN (skip (fuel+1)) (heads.length+n)) (writeHeads heads ++ rest)
      (skipN (skip (fuel+1)) n) rest := by
  induction heads with
  | nil =>
    rw [length_nil,Nat.zero_add]
    exact .refl _ _
  | cons c heads ih =>
    obtain ⟨hc,hheads⟩ := cons_subset.mp h
    rw [length_cons,Nat.add_right_comm,skipN_succ,writeHeads,flatMap_cons,append_assoc]
    exact (goes_skip_head fuel hc _).bind (ih hheads)

lemma goes_skip_default (fuel : ℕ) (rest : Bytes) :
    Goes ahead (skip (fuel+2)) (encodeMap 4 ++ (writeHeads innerHeads ++ rest))
      (skip (fuel+1) >>= fun _ => skip (fuel+1) : Calls Unit) rest := by
  refine (goes_skip_map (fuel+1) 4 _).trans ?_
  refine (goes_skip_heads fuel 2 (List.Subset.refl _) rest).trans ?_
  rw [skipN_succ,skipN_succ,skipN_zero,bind_pure_unit]
  exact .refl _ _

lemma goes_skip_last (fuel : ℕ) :
    Goes ahead (skip (fuel+2)) (defaultSeeds 1 ++ (encodeUint key ++ encodeUint val))
      (pure ()) [] := by
  refine (goes_skip_default fuel _).trans ((goes_skip_uint fuel key _).bind ?_)
  rw [← append_nil (encodeUint val)]
  exact goes_skip_uint fuel val []

lemma goes_skip_several (fuel q : ℕ) :
    Goes ahead (skip (fuel+q+3)) (defaultSeeds (q+2) ++ (encodeUint key ++ encodeUint val))
      (.lift (.error (cborErr 700 "CBOR: unexpected end during skip"))) [] := by
  induction q with
  | zero =>
    exact (goes_skip_default (fuel+1) _).trans
      ((goes_skip_last fuel).bind (goes_skip_end (fuel+1)))
  | succ q ih =>
    exact (goes_skip_default (fuel+q+2) _).trans ih.fail

end

end SmoFramework.Join
