import SmoFramework.Cbor.Calls
import SmoFramework.Discovery.MembershipTable

/-! `PeerRecord::deserialize` and `MembershipTable::deserialize`. A read behind the end of the buffer,
which is undefined in the source, is a fault here and ends the run. -/
namespace SmoFramework.Discovery
open Library Library.BigEndian Cbor Library.Attempt PeerRecord Avoids Decoder

/-- A returned error or an exception, or a read outside the buffer. -/
inductive Fault
  | failure (f : Failure)
  | outside (v : View)
  deriving DecidableEq, Repr

def part (data : BytesView) (off len : ℕ) : BytesView where
  bytes := (data.bytes.drop off).take len
  small := by
    have hle := (List.take_sublist len (data.bytes.drop off)).length_le
    have hle' := (List.drop_sublist off data.bytes).length_le
    have hsmall := data.small
    omega

abbrev Scan := Attempt ℕ Fault

section
variable (data : BytesView) (n : ℕ)

def take : Scan (List.Vector UInt8 n) := fun off =>
  if h : off+n ≤ data.size then
    some (.ok ⟨(data.bytes.drop off).take n,by
      rw [List.length_take,List.length_drop]
      exact Nat.min_eq_left (Nat.le_sub_of_add_le' h)⟩,off+n)
  else some (.error (.outside ⟨off,n⟩),off)

def copy : Scan Bytes := do
  let bytes ← take data n
  pure bytes.toList

def byte : Scan UInt8 := do
  let bytes ← take data 1
  pure bytes.head

/-- The loops of the three integer readers: at most `n` bytes, the first one being the highest. -/
def word : Scan UInt64 := do
  let off ← .view id
  let bytes ← take data (min n (data.size-off))
  pure (read64 bytes.toList)

def readU16 : Scan UInt16 := do
  let v ← word data 2
  pure v.toUInt16

def readU32 : Scan UInt32 := do
  let v ← word data 4
  pure v.toUInt32

def readU64 : Scan UInt64 := word data 8

/-- `(off < data.size()) ? data[off++] : otherwise`. -/
def byteOr (otherwise : UInt8) : Scan UInt8 := do
  let off ← .view id
  if off < data.size then byte data else pure otherwise

def readStr : Scan Bytes := do
  let off ← .view id
  if off+2 > data.size then pure [] else
    let len ← readU16 data
    let off ← .view id
    if off+len.toNat > data.size then pure [] else copy data len.toNat

def readStrs : ℕ → Scan (List Bytes)
  | 0 => pure []
  | n+1 => do
    let s ← readStr data
    let off ← .view id
    if s.isEmpty ∧ off ≥ data.size then pure [] else
      let rest ← readStrs n
      pure (s::rest)

def readStrVec : Scan (List Bytes) := do
  let off ← .view id
  if off+2 > data.size then pure [] else
    let count ← readU16 data
    readStrs data count.toNat

/-- No length is compared with what is left. -/
def readEndpoint : Scan Endpoint := do
  let slen ← readU16 data
  let scheme ← copy data slen.toNat
  let hlen ← readU16 data
  let host ← copy data hlen.toNat
  let port ← readU16 data
  let plen ← readU16 data
  let path ← copy data plen.toNat
  pure { scheme, host, port, path }

def readMappedAddress : Scan MappedAddress := do
  let off ← .view id
  if off ≥ data.size then pure {} else
    let hasAddr ← byte data
    if hasAddr = 0 then pure {} else
      let off ← .view id
      if off+2 > data.size then pure {} else
        let ipLen ← readU16 data
        let off ← .view id
        if off+ipLen.toNat > data.size then pure {} else
          let ip ← copy data ipLen.toNat
          let off ← .view id
          if off+2 > data.size then pure { ip } else
            let port ← readU16 data
            let off ← .view id
            if off ≥ data.size then pure { ip, port } else
              let isIpv6 ← byte data
              let off ← .view id
              if off+8 ≤ data.size then
                let discoveredAt ← readU64 data
                pure { ip, port, isIpv6 := isIpv6 ≠ 0, discoveredAt := discoveredAt.toInt64 }
              else pure { ip, port, isIpv6 := isIpv6 ≠ 0 }

def readRtt : Scan UInt64 := do
  let off ← .view id
  if off+8 ≤ data.size then readU64 data else pure 0

end

/-! The candidates, in CBOR (`IceAgent::decode_candidates_cbor`). -/

abbrev Decode := Attempt Decoder Fault

def calling {α : Type} (f : Decoder → Outcome α × Decoder) : Decode α :=
  fun d => some ((f d).1.mapError .failure,(f d).2)

/-- `decode_string`, with the copy before it is known to lie inside the input. -/
def decodeText : Decode Bytes := do
  let len ← calling (decodeHeadOf 3 705 "CBOR: expected text string")
  let d ← .view id
  .ensure (sizeAdd d.pos len.toNat ≤ d.data.size) (.failure (cborErr 700 "CBOR: truncated text string"))
  .ensure (len.toNat ≤ kMaxString) (.failure .lengthError)
  .ensure (d.pos+len.toNat ≤ d.data.size) (.outside ⟨d.pos,len.toNat⟩)
  .update fun d => { d with pos := sizeAdd d.pos len.toNat }
  pure ((d.data.bytes.drop d.pos).take len.toNat)

variable (fuel : ℕ)

def skipping : Decode Unit :=
  fun d => (skip fuel d).map fun r => (r.1.mapError .failure,r.2)

def readField (cand : Candidate) : Decode Candidate := do
  let key ← calling decodeUint
  match key.toNat with
  | 1 =>
    let v ← calling decodeUint
    pure { cand with type := ⟨v.toUInt8⟩ }
  | 2 =>
    let v ← decodeText
    pure { cand with foundation := v }
  | 3 =>
    let v ← decodeText
    pure { cand with ip := v }
  | 4 =>
    let v ← calling decodeUint
    pure { cand with port := v.toUInt16 }
  | 5 =>
    let v ← calling decodeUint
    pure { cand with isIpv6 := v ≠ 0 }
  | 6 =>
    let v ← calling decodeUint
    pure { cand with priority := v.toUInt32 }
  | 7 =>
    let v ← decodeText
    pure { cand with relatedAddr := v }
  | 8 =>
    let v ← calling decodeUint
    pure { cand with relatedPort := v.toUInt16 }
  | 9 =>
    let v ← calling decodeUint
    pure { cand with discoveredAt := v.toInt64 }
  | _ =>
    skipping fuel
    pure cand

def readFields (fuel : ℕ) : ℕ → Candidate → Decode Candidate
  | 0, cand => pure cand
  | n+1, cand => do
    let cand ← readField fuel cand
    readFields fuel n cand

def readCandidate : Decode Candidate := do
  let size ← calling decodeMapSize
  readFields fuel size.toNat {}

def decodeCandidates : Decode (List Candidate) := do
  let size ← calling decodeArraySize
  .times (readCandidate fuel) size.toNat

/-- A returned error is looked at and dropped; an exception or a fault goes on. -/
def tolerated {α : Type} : Except Fault α → Except Fault (Option α)
  | .ok a => .ok (some a)
  | .error (.failure (.error _)) => .ok none
  | .error e => .error e

/-- A function on a part of the buffer whose `Result` is looked at. -/
def onPart {α : Type} (f : BytesView → Option (Except Fault α)) (data : BytesView) (len : ℕ) :
    Scan (Option α) := do
  let off ← .view id
  let _ ← take data len
  fun off' => (f (part data off len)).map fun r => (tolerated r,off')

section
variable (fuel : ℕ) (data : BytesView)

def readIceCandidates : Scan (List Candidate) := do
  let off ← .view id
  if off+4 > data.size then pure [] else
    let cborLen ← readU32 data
    let off ← .view id
    if cborLen = 0 ∨ off+cborLen.toNat > data.size then pure [] else
      let decoded ← onPart (fun view => ((decodeCandidates fuel).outcome ⟨view,0⟩).map Prod.fst)
        data cborLen.toNat
      pure (decoded.getD [])

namespace PeerRecord

def truncated (what : String) : Fault :=
  .failure (.error (smoErrDiscovery 400 .info .retrySafe .none
    ("truncated " ++ what ++ " in PeerRecord")))

def readHead : Scan PeerRecord := do
  let off ← .view id
  .ensure (off+32 ≤ data.size) (truncated "node_id")
  let nodeId ← take data 32
  let off ← .view id
  .ensure (off < data.size) (truncated "state")
  let state ← byte data
  let lastSeen ← readU64 data
  let pingMisses ← byteOr data 0
  let displayName ← readStr data
  let hostname ← readStr data
  let meshName ← readStr data
  let role ← byteOr data Role.reader.toByte
  let tags ← readStrVec data
  let platform ← readStr data
  let arch ← readStr data
  let version ← readStr data
  let location ← readStr data
  let aliases ← readStrVec data
  pure { nodeId, displayName, hostname, meshName, role := .ofByte role, tags, platform, arch, version,
         location, aliases, state := ⟨state⟩, lastSeen := lastSeen.toInt64,
         pingMisses := pingMisses.toUInt32.toInt32 }

def readTail (rec : PeerRecord) : Scan PeerRecord := do
  let mappedAddress ← readMappedAddress data
  let relayCapable ← byteOr data 0
  let rttMicros ← readRtt data
  let iceCandidates ← readIceCandidates fuel data
  pure { rec with mappedAddress, relayCapable := relayCapable ≠ 0, rttMicros, iceCandidates }

def read : Scan PeerRecord := do
  let rec ← readHead data
  let endpoint ← readEndpoint data
  readTail fuel data { rec with endpoint }

def deserialize : Option (Except Fault PeerRecord) := ((read fuel data).outcome 0).map Prod.fst

end PeerRecord

namespace MembershipTable

/-- `emplace`: a key that is there keeps its record. -/
def emplace (records : AssocMap UInt64 PeerRecord) (rec : PeerRecord) : AssocMap UInt64 PeerRecord :=
  if records.contains (toKey rec.nodeId) then records else records.insert (toKey rec.nodeId) rec

def readRecords : ℕ → AssocMap UInt64 PeerRecord → Scan (AssocMap UInt64 PeerRecord)
  | 0, records => pure records
  | n+1, records => do
    let off ← .view id
    if off+4 > data.size then pure records else
      let recLen ← readU32 data
      let off ← .view id
      if off+recLen.toNat > data.size then pure records else
        let rec ← onPart (PeerRecord.deserialize fuel) data recLen.toNat
        match rec with
        | none => readRecords n records
        | some rec => readRecords n (emplace records rec)

def read : Scan MembershipTable := do
  let count ← readU32 data
  let records ← readRecords fuel data count.toNat AssocMap.empty
  pure { records }

def deserialize : Option (Except Fault MembershipTable) := ((read fuel data).outcome 0).map Prod.fst

end MembershipTable
end

/-! Where the readers end, by the lengths in the buffer alone. -/

section
variable (data : BytesView)

/-- The end of a number of `n` bytes, which stops at the end of the buffer. -/
def atMost (n off : ℕ) : ℕ := off+min n (data.size-off)

variable (off : ℕ)

def lenAt : ℕ :=
  (read64 ((data.bytes.drop off).take (min 2 (data.size-off)))).toUInt16.toNat

def countAt : ℕ :=
  (read64 ((data.bytes.drop off).take (min 4 (data.size-off)))).toUInt32.toNat

/-- A text that is longer than the rest of the buffer is left out, but not its length. -/
def strEnd : ℕ :=
  if off+2 > data.size then off
  else if off+2+lenAt data off > data.size then off+2
  else off+2+lenAt data off

def strVecEnd : ℕ :=
  if off+2 > data.size then off else (strEnd data)^[lenAt data off] (off+2)

/-- Where the endpoint of a record begins. -/
def endpointStart : ℕ :=
  let str := strEnd data
  let names := str (str (str (atMost data 1 (atMost data 8 33))))
  let tags := strVecEnd data (atMost data 1 names)
  strVecEnd data (str (str (str (str tags))))

def textEnd : ℕ := atMost data 2 off+lenAt data off

def endpointEnd : ℕ := textEnd data (atMost data 2 (textEnd data (textEnd data off)))

/-- The texts of an endpoint at the offset, with a port between the second and the third, end inside the
buffer. -/
structure EndpointFits (off : ℕ) : Prop where
  scheme : textEnd data off ≤ data.size
  host : textEnd data (textEnd data off) ≤ data.size
  path : endpointEnd data off ≤ data.size

def mappedEnd : ℕ :=
  if off ≥ data.size then off
  else if data.bytes.getD off 0 = 0 then off+1
  else if off+1+2 > data.size then off+1
  else if off+1+2+lenAt data (off+1) > data.size then off+1+2
  else
    let ip := off+1+2+lenAt data (off+1)
    if ip+2 > data.size then ip
    else if ip+2 ≥ data.size then ip+2
    else if ip+2+1+8 ≤ data.size then ip+2+1+8 else ip+2+1

def rttEnd : ℕ := if off+8 ≤ data.size then off+8 else off

/-- The bytes of the candidates, if there are any. -/
def candidatesAt : Option BytesView :=
  if off+4 > data.size ∨ countAt data off = 0 ∨ off+4+countAt data off > data.size then none
  else some (part data (off+4) (countAt data off))

def candidatesOf : Option BytesView :=
  candidatesAt data (rttEnd data (atMost data 1 (mappedEnd data (endpointEnd data (endpointStart data)))))

end

/-! The readers end there. -/

section
variable {α β : Type} {data : BytesView} {off : ℕ}

def EndsAt (data : BytesView) (x : Scan α) (off e : ℕ) : Prop := e ≤ data.size ∧ ∃ a, x.Returns off a e

def Ends (data : BytesView) (x : Scan α) (g : ℕ → ℕ) : Prop :=
  ∀ off ≤ data.size, EndsAt data x off (g off)

lemma EndsAt.pure (a : α) (h : off ≤ data.size) : EndsAt data (pure a : Scan α) off off :=
  ⟨h,a,returns_pure.mpr ⟨rfl,rfl⟩⟩

variable {x : Scan α} {f : α → Scan β} {e : ℕ}

lemma EndsAt.step {a : α} {off' : ℕ} (hx : x.Returns off a off')
    (h : EndsAt data (f a) off' e) : EndsAt data (x >>= f) off e := by
  obtain ⟨he,b,hb⟩ := h
  exact ⟨he,b,returns_bind.mpr ⟨a,off',hx,hb⟩⟩

lemma EndsAt.look {f : ℕ → Scan α} (h : EndsAt data (f off) off e) :
    EndsAt data (view id >>= f) off e := .step (returns_view.mpr ⟨rfl,rfl⟩) h

lemma EndsAt.guard {c : ℕ → Prop} [∀ off, Decidable (c off)] {x y : Scan α} {e' : ℕ}
    (hy : c off → EndsAt data y off e) (hx : ¬c off → EndsAt data x off e') :
    EndsAt data (view id >>= fun off => if c off then y else x) off (if c off then e else e') := by
  refine .look ?_
  by_cases h : c off
  · simpa only [if_pos h] using hy h
  · simpa only [if_neg h] using hx h

lemma Ends.bind {g h : ℕ → ℕ} (hx : Ends data x g)
    (hf : ∀ a, Ends data (f a) h) : Ends data (x >>= f) (fun off => h (g off)) := by
  intro off hoff
  obtain ⟨hle,a,ha⟩ := hx off hoff
  exact .step ha (hf a (g off) hle)

lemma EndsAt.map {f : α → β} (hx : EndsAt data x off e) :
    EndsAt data (x >>= fun a => Pure.pure (f a)) off e := by
  obtain ⟨he,a,ha⟩ := hx
  exact .step ha (.pure _ he)

lemma EndsAt.ensure {p : Prop} [Decidable p] {f : Unit → Scan α} {fault : Fault} (hp : p)
    (h : EndsAt data (f ()) off e) : EndsAt data (Attempt.ensure p fault >>= f) off e :=
  .step (returns_ensure.mpr ⟨hp,rfl⟩) h

variable {n : ℕ}

lemma returns_take (h : off+n ≤ data.size) : ∃ v : List.Vector UInt8 n,
    v.toList = (data.bytes.drop off).take n ∧ (take data n).Returns off v (off+n) :=
  ⟨_,rfl,dif_pos h⟩

lemma returns_copy (h : off+n ≤ data.size) : ∃ bytes, (copy data n).Returns off bytes (off+n) := by
  obtain ⟨v,-,hv⟩ := returns_take h
  exact ⟨v.toList,returns_bind.mpr ⟨v,_,hv,returns_pure.mpr ⟨rfl,rfl⟩⟩⟩

lemma returns_byte (h : off < data.size) : (byte data).Returns off (data.bytes.getD off 0) (off+1) := by
  obtain ⟨v,hv,hret⟩ := returns_take (show off+1 ≤ data.size from h)
  refine returns_bind.mpr ⟨v,_,hret,returns_pure.mpr ⟨?_,rfl⟩⟩
  have hlt : off < data.bytes.length := h
  rw [List.drop_eq_getElem_cons hlt,List.take_succ_cons,List.take_zero] at hv
  rw [List.getD_eq_getElem _ _ hlt]
  obtain ⟨l,hl⟩ := v
  subst hv
  rfl

lemma returns_word (h : off ≤ data.size) (n : ℕ) : (word data n).Returns off
    (read64 ((data.bytes.drop off).take (min n (data.size-off)))) (atMost data n off) := by
  obtain ⟨bytes,hbytes,hret⟩ := returns_take (show off+min n (data.size-off) ≤ data.size by omega)
  simp only [word,returns_bind,returns_view,returns_pure]
  exact ⟨off,off,⟨rfl,rfl⟩,bytes,_,hret,by rw [hbytes],rfl⟩

lemma returns_readU16 (h : off ≤ data.size) : ∃ v : UInt16,
    v.toNat = lenAt data off ∧ (readU16 data).Returns off v (atMost data 2 off) :=
  ⟨_,rfl,returns_bind.mpr ⟨_,_,returns_word h 2,returns_pure.mpr ⟨rfl,rfl⟩⟩⟩

lemma returns_readU32 (h : off ≤ data.size) : ∃ v : UInt32,
    v.toNat = countAt data off ∧ (readU32 data).Returns off v (atMost data 4 off) :=
  ⟨_,rfl,returns_bind.mpr ⟨_,_,returns_word h 4,returns_pure.mpr ⟨rfl,rfl⟩⟩⟩

lemma atMost_le (n : ℕ) (h : off ≤ data.size) : atMost data n off ≤ data.size := by
  unfold atMost
  omega

lemma atMost_eq (h : off+n ≤ data.size) : atMost data n off = off+n := by
  unfold atMost
  omega

lemma ends_word (n : ℕ) : Ends data (word data n) (atMost data n) :=
  fun _ hoff => ⟨atMost_le n hoff,_,returns_word hoff n⟩

lemma endsAt_readU64 (h : off+8 ≤ data.size) : EndsAt data (readU64 data) off (off+8) := by
  have hword := ends_word 8 off (Nat.le_of_add_right_le h)
  rwa [atMost_eq h] at hword

lemma ends_byteOr (otherwise : UInt8) : Ends data (byteOr data otherwise) (atMost data 1) := by
  intro off hoff
  refine .look ?_
  by_cases h : off < data.size
  · rw [if_pos h,atMost_eq h]
    exact ⟨h,_,returns_byte h⟩
  · rw [if_neg h,atMost,Nat.sub_eq_zero_of_le (Nat.not_lt.mp h)]
    exact .pure _ hoff

lemma ends_readStr : Ends data (readStr data) (strEnd data) := by
  intro off hoff
  refine .guard (fun _ => .pure _ hoff) fun hhead => ?_
  obtain ⟨len,hlen,hret⟩ := returns_readU16 hoff
  rw [atMost_eq (Nat.not_lt.mp hhead)] at hret
  rw [← hlen]
  exact .step hret (.guard (fun _ => .pure _ (Nat.not_lt.mp hhead)) fun htext =>
    ⟨Nat.not_lt.mp htext,returns_copy (Nat.not_lt.mp htext)⟩)

lemma strEnd_of_size_le (h : data.size ≤ off) : strEnd data off = off := if_pos (by omega)

/-- The loop stops early only at the end of the buffer, where no text is read any more. -/
lemma ends_readStrs (n : ℕ) : Ends data (readStrs data n) (strEnd data)^[n] := by
  induction n with
  | zero => exact fun off hoff => .pure _ hoff
  | succ n ih =>
    refine ends_readStr.bind fun s off hoff => .look ?_
    by_cases hstop : s.isEmpty ∧ off ≥ data.size
    · rw [if_pos hstop,Function.iterate_fixed (strEnd_of_size_le hstop.2)]
      exact .pure _ hoff
    · rw [if_neg hstop]
      exact (ih off hoff).map

lemma ends_readStrVec : Ends data (readStrVec data) (strVecEnd data) := by
  intro off hoff
  refine .guard (fun _ => .pure _ hoff) fun hhead => ?_
  obtain ⟨count,hcount,hret⟩ := returns_readU16 hoff
  rw [atMost_eq (Nat.not_lt.mp hhead)] at hret
  rw [← hcount]
  exact .step hret (ends_readStrs _ _ (Nat.not_lt.mp hhead))

lemma ends_readMappedAddress : Ends data (readMappedAddress data) (mappedEnd data) := by
  intro off hoff
  refine .guard (fun _ => .pure _ hoff) fun hbyte => .step (returns_byte (Nat.not_le.mp hbyte)) ?_
  have hbyte : off+1 ≤ data.size := Nat.not_le.mp hbyte
  by_cases hzero : data.bytes.getD off 0 = 0
  · rw [if_pos hzero,if_pos hzero]
    exact .pure _ hbyte
  rw [if_neg hzero,if_neg hzero]
  refine .guard (fun _ => .pure _ hbyte) fun hlen => ?_
  obtain ⟨len,hval,hret⟩ := returns_readU16 hbyte
  rw [atMost_eq (Nat.not_lt.mp hlen)] at hret
  rw [← hval]
  refine .step hret (.guard (fun _ => .pure _ (Nat.not_lt.mp hlen)) fun htext => ?_)
  obtain ⟨ip,hip⟩ := returns_copy (Nat.not_lt.mp htext)
  refine .step hip (.guard (fun _ => .pure _ (Nat.not_lt.mp htext)) fun hport => ?_)
  obtain ⟨port,-,hret⟩ := returns_readU16 (Nat.not_lt.mp htext)
  rw [atMost_eq (Nat.not_lt.mp hport)] at hret
  refine .step hret (.guard (fun _ => .pure _ (Nat.not_lt.mp hport)) fun hv6 => ?_)
  have hv6 : off+1+2+len.toNat+2+1 ≤ data.size := Nat.not_le.mp hv6
  exact .step (returns_byte hv6) (.guard (fun h => (endsAt_readU64 h).map) fun _ => .pure _ hv6)

lemma ends_readRtt : Ends data (readRtt data) (rttEnd data) :=
  fun _ hoff => .guard (fun h => endsAt_readU64 h) fun _ => .pure _ hoff

lemma ends_readHead (h : 33 ≤ data.size) :
    EndsAt data (PeerRecord.readHead data) 0 (endpointStart data) := by
  obtain ⟨nodeId,-,hid⟩ := returns_take (show 0+32 ≤ data.size by omega)
  refine .look (.ensure (by omega) (.step hid (.look (.ensure h (.step (returns_byte h) ?_)))))
  exact ((ends_word 8).bind fun _ => (ends_byteOr _).bind fun _ => ends_readStr.bind fun _ =>
    ends_readStr.bind fun _ => ends_readStr.bind fun _ => (ends_byteOr _).bind fun _ =>
    ends_readStrVec.bind fun _ => ends_readStr.bind fun _ => ends_readStr.bind fun _ =>
    ends_readStr.bind fun _ => ends_readStr.bind fun _ off hoff => (ends_readStrVec off hoff).map) _ h

end

/-! The endpoint. -/

lemma outcome_text {α : Type} {data : BytesView} {off : ℕ} (h : off ≤ data.size) (f : Bytes → Scan α) :
    ∃ bytes, (do
      let len ← readU16 data
      let bytes ← copy data len.toNat
      f bytes : Scan α).outcome off = if textEnd data off ≤ data.size then
        (f bytes).outcome (textEnd data off)
      else some (.error (.outside ⟨atMost data 2 off,lenAt data off⟩),atMost data 2 off) := by
  obtain ⟨len,hlen,hret⟩ := returns_readU16 h
  rw [hret.outcome_bind,hlen,textEnd]
  by_cases hfits : atMost data 2 off+lenAt data off ≤ data.size
  · obtain ⟨bytes,hcopy⟩ := returns_copy hfits
    exact ⟨bytes,by rw [hcopy.outcome_bind,if_pos hfits]⟩
  · have htake : (take data (lenAt data off)).outcome (atMost data 2 off) =
      some (.error (.outside ⟨atMost data 2 off,lenAt data off⟩),atMost data 2 off) := dif_neg hfits
    refine ⟨[],?_⟩
    rw [if_neg hfits,copy,outcome_bind,outcome_bind,htake]
    rfl

lemma outcome_readEndpoint {data : BytesView} {off : ℕ} (h : off ≤ data.size) :
    (EndpointFits data off → ∃ endpoint, (readEndpoint data).Returns off endpoint (endpointEnd data off)) ∧
    (¬EndpointFits data off → ∃ v off', (readEndpoint data).outcome off = some (.error (.outside v),off')) := by
  obtain ⟨scheme,hscheme⟩ := outcome_text h fun scheme => (do
    let hlen ← readU16 data
    let host ← copy data hlen.toNat
    let port ← readU16 data
    let plen ← readU16 data
    let path ← copy data plen.toNat
    pure { scheme, host, port, path } : Scan Endpoint)
  by_cases hs : textEnd data off ≤ data.size
  · obtain ⟨host,hhost⟩ := outcome_text hs fun host => (do
      let port ← readU16 data
      let plen ← readU16 data
      let path ← copy data plen.toNat
      pure { scheme, host, port, path } : Scan Endpoint)
    by_cases hh : textEnd data (textEnd data off) ≤ data.size
    · obtain ⟨port,-,hport⟩ := returns_readU16 hh
      obtain ⟨path,hpath⟩ := outcome_text (atMost_le 2 hh) fun path =>
        (pure { scheme, host, port, path } : Scan Endpoint)
      have hall := hscheme.trans ((if_pos hs).trans (hhost.trans ((if_pos hh).trans
        (hport.outcome_bind.trans hpath))))
      by_cases hp : textEnd data (atMost data 2 (textEnd data (textEnd data off))) ≤ data.size
      · exact ⟨fun _ => ⟨_,hall.trans (if_pos hp)⟩,fun hno => absurd ⟨hs,hh,hp⟩ hno⟩
      · exact ⟨fun hfits => absurd hfits.path hp,fun _ => ⟨_,_,hall.trans (if_neg hp)⟩⟩
    · exact ⟨fun hfits => absurd hfits.host hh,
        fun _ => ⟨_,_,hscheme.trans ((if_pos hs).trans (hhost.trans (if_neg hh)))⟩⟩
  · exact ⟨fun hfits => absurd hfits.scheme hs,fun _ => ⟨_,_,hscheme.trans (if_neg hs)⟩⟩

/-! No read of the decoder is outside. -/

def Fault.IsOutside (e : Fault) : Prop := ∃ v, e = .outside v

lemma not_isOutside_failure (f : Failure) : ¬(Fault.failure f).IsOutside := by
  rintro ⟨v,hv⟩
  cases hv

section
variable {α : Type}

def Contained (x : Decode α) : Prop := ∀ d, x.Avoids (fun _ => True) Fault.IsOutside d

lemma Contained.bind {β : Type} {f : α → Decode β} (hx : Contained x)
    (hf : ∀ a, Contained (f a)) : Contained (x >>= f) := fun d => (hx d).bind fun a t _ => hf a t

lemma Contained.pure (a : α) : Contained (pure a : Decode α) := fun _ => .pure a trivial

lemma contained_of_outcome (h : ∀ d r d', x.outcome d = some (r,d') →
    ∃ r₀ : Outcome α, r = r₀.mapError .failure) : Contained x := by
  intro d r d' hout
  obtain ⟨r₀,rfl⟩ := h d r d' hout
  cases r₀ with
  | ok a => trivial
  | error f => exact not_isOutside_failure f

lemma contained_calling (f : Decoder → Outcome α × Decoder) : Contained (calling f) := by
  refine contained_of_outcome fun d r d' hout => ?_
  cases hout
  exact ⟨_,rfl⟩

lemma contained_skipping : Contained (skipping fuel) := by
  refine contained_of_outcome fun d r d' hout => ?_
  obtain ⟨r₀,-,hr⟩ := Option.map_eq_some_iff.mp hout
  cases hr
  exact ⟨_,rfl⟩

lemma outcome_decodeText (d : Decoder) :
    decodeText.outcome d = some (d.decodeString.1.mapError .failure,d.decodeString.2) := by
  have hsmall : d.data.size < 2^63 := d.data.small
  unfold decodeText decodeString
  rcases decodeHeadOf_cases 3 705 "CBOR: expected text string" d with
    ⟨val,q,hd,hq⟩ | ⟨e,q,hd,-,-⟩
  · have hcall : (calling (decodeHeadOf 3 705 "CBOR: expected text string")).Returns d val
        { d with pos := q } := by
      change some (_,_) = _
      rw [hd]
      rfl
    have hsize : q ≤ d.data.size := hq.lt.2
    rw [hcall.outcome_bind,hd,outcome_look,outcome_ensure_bind]
    dsimp only [id]
    by_cases hfits : sizeAdd q val.toNat ≤ d.data.size
    · rw [if_pos hfits,if_neg (Nat.not_lt.mpr hfits),outcome_ensure_bind]
      by_cases hmax : val.toNat ≤ kMaxString
      · -- A length that a string can have does not wrap.
        have hinside : q+val.toNat ≤ d.data.size := by
          unfold sizeAdd at hfits
          unfold kMaxString at hmax
          omega
        rw [if_pos hmax,if_neg (Nat.not_lt.mpr hmax),outcome_ensure_bind,if_pos hinside]
        rfl
      · rw [if_neg hmax,if_pos (Nat.not_le.mp hmax)]
        rfl
    · rw [if_neg hfits,if_pos (Nat.not_le.mp hfits)]
      rfl
  · rw [outcome_bind]
    change Option.bind (some (_,_)) _ = _
    rw [hd]
    rfl

lemma contained_decodeText : Contained decodeText := by
  refine contained_of_outcome fun d r d' hout => ?_
  rw [outcome_decodeText] at hout
  cases hout
  exact ⟨_,rfl⟩

lemma contained_readField (cand : Candidate) : Contained (readField fuel cand) := by
  refine (contained_calling _).bind fun key => ?_
  split
  case h_10 => exact (contained_skipping fuel).bind fun _ => .pure _
  all_goals first
    | exact (contained_calling _).bind fun _ => .pure _
    | exact contained_decodeText.bind fun _ => .pure _

lemma contained_readFields (fuel n : ℕ) (cand : Candidate) : Contained (readFields fuel n cand) := by
  induction n generalizing cand with
  | zero => exact .pure _
  | succ n ih => exact (contained_readField fuel cand).bind ih

lemma contained_times (hx : Contained x) (n : ℕ) : Contained (times x n) := by
  induction n with
  | zero => exact .pure _
  | succ n ih => exact hx.bind fun _ => ih.bind fun _ => .pure _

lemma contained_decodeCandidates : Contained (decodeCandidates fuel) :=
  (contained_calling _).bind fun _ =>
    contained_times ((contained_calling _).bind fun _ => contained_readFields fuel _ _) _

end

/-! The record. -/

section
variable {α : Type} {data : BytesView} {off len : ℕ}

lemma outcome_onPart {f : BytesView → Option (Except Fault α)}
    (hlen : off+len ≤ data.size) : (onPart f data len).outcome off =
      (f (part data off len)).map fun r => (tolerated r,off+len) := by
  obtain ⟨v,-,hv⟩ := returns_take hlen
  rw [onPart,outcome_look,hv.outcome_bind]
  rfl

/-- What becomes of the bytes of the candidates. -/
def candidatesResult : Option BytesView → Option (Except Fault (List Candidate))
  | none => some (.ok [])
  | some view => ((decodeCandidates fuel).outcome ⟨view,0⟩).map fun r => (tolerated r.1).map (·.getD [])

lemma outcome_readIceCandidates (fuel : ℕ) (hoff : off ≤ data.size) :
    ∃ off', (readIceCandidates fuel data).outcome off =
      (candidatesResult fuel (candidatesAt data off)).map fun r => (r,off') := by
  unfold readIceCandidates candidatesAt
  rw [outcome_look]
  by_cases hhead : off+4 > data.size
  · rw [if_pos hhead,if_pos (.inl hhead)]
    exact ⟨off,rfl⟩
  obtain ⟨len,hlen,hret⟩ := returns_readU32 hoff
  rw [atMost_eq (Nat.not_lt.mp hhead)] at hret
  rw [if_neg hhead,hret.outcome_bind,outcome_look,← hlen]
  have hzero : len = 0 ↔ len.toNat = 0 := UInt32.toNat_inj.symm
  by_cases hnone : len = 0 ∨ off+4+len.toNat > data.size
  · rw [if_pos hnone,if_pos (.inr (hnone.imp_left hzero.mp))]
    exact ⟨off+4,rfl⟩
  · rw [if_neg hnone,if_neg (not_or.mpr ⟨hhead,fun h => hnone (h.imp_left hzero.mpr)⟩)]
    refine ⟨off+4+len.toNat,?_⟩
    rw [outcome_bind,outcome_onPart (by omega)]
    simp only [candidatesResult,Option.map_map]
    cases (decodeCandidates fuel).outcome ⟨part data (off+4) len.toNat,0⟩ with
    | none => rfl
    | some r => cases ht : tolerated r.1 <;> simp [ht,Except.map]

/-- A record that is not cut in its fixed part has an endpoint that fits. -/
def RecordFits (data : BytesView) : Prop := 33 ≤ data.size → EndpointFits data (endpointStart data)

/-- The loop over the records goes on behind this one: it is cut in its fixed part, or its endpoint fits
and the decoder of its candidates comes back. -/
def GoesOn (data : BytesView) : Prop :=
  data.size < 33 ∨ EndpointFits data (endpointStart data) ∧
    ∃ candidates, candidatesResult fuel (candidatesOf data) = some (.ok candidates)

lemma candidatesResult_error {fuel : ℕ} {bytes : Option BytesView} {e : Fault}
    (h : candidatesResult fuel bytes = some (.error e)) :
    ¬e.IsOutside ∧ tolerated (.error e : Except Fault α) = .error e := by
  cases bytes with
  | none => cases h
  | some view =>
    obtain ⟨⟨r,d⟩,hr,hmap⟩ := Option.map_eq_some_iff.mp h
    have hno := contained_decodeCandidates fuel _ r d hr
    match r with
    | .ok _ => cases hmap
    | .error (.failure (.error _)) => cases hmap
    | .error (.failure .lengthError) => cases hmap; exact ⟨hno,rfl⟩
    | .error (.outside v) => exact absurd ⟨v,rfl⟩ hno

namespace PeerRecord

lemma deserialize_short (h : data.size < 33) (fuel : ℕ) :
    ∃ e, deserialize fuel data = some (.error (.failure (.error e))) := by
  have hhead : ∃ e off, (readHead data).outcome 0 = some (.error (.failure (.error e)),off) := by
    rw [readHead,outcome_look,outcome_ensure_bind]
    by_cases hid : 0+32 ≤ data.size
    · obtain ⟨nodeId,-,hret⟩ := returns_take hid
      rw [if_pos hid,hret.outcome_bind,outcome_look,outcome_ensure_bind,if_neg (by simp; omega)]
      exact ⟨_,_,rfl⟩
    · rw [if_neg hid]
      exact ⟨_,_,rfl⟩
  obtain ⟨e,off,hhead⟩ := hhead
  refine ⟨e,?_⟩
  rw [deserialize,read,outcome_bind,hhead]
  rfl

lemma deserialize_outside (h : ¬RecordFits data) (fuel : ℕ) :
    ∃ v, deserialize fuel data = some (.error (.outside v)) := by
  obtain ⟨hsize,hno⟩ := Classical.not_imp.mp h
  obtain ⟨hoff,rec,hrec⟩ := ends_readHead hsize
  obtain ⟨v,off',hout⟩ := (outcome_readEndpoint hoff).2 hno
  refine ⟨v,?_⟩
  rw [deserialize,read,hrec.outcome_bind,outcome_bind,hout]
  rfl

lemma deserialize_fits (hsize : 33 ≤ data.size) (hfits : EndpointFits data (endpointStart data))
    (fuel : ℕ) : ∃ f : List Candidate → PeerRecord,
      deserialize fuel data = (candidatesResult fuel (candidatesOf data)).map (Except.map f) := by
  obtain ⟨hoff,rec,hrec⟩ := ends_readHead hsize
  obtain ⟨endpoint,hendpoint⟩ := (outcome_readEndpoint hoff).1 hfits
  obtain ⟨hoff,mapped,hmapped⟩ := ends_readMappedAddress _ hfits.path
  obtain ⟨hoff,relay,hrelay⟩ := ends_byteOr 0 _ hoff
  obtain ⟨hoff,rtt,hrtt⟩ := ends_readRtt _ hoff
  obtain ⟨off',hice⟩ := outcome_readIceCandidates fuel hoff
  refine ⟨fun iceCandidates => { rec with
    endpoint, mappedAddress := mapped, relayCapable := relay ≠ 0, rttMicros := rtt, iceCandidates },?_⟩
  rw [deserialize,read,hrec.outcome_bind,hendpoint.outcome_bind,readTail,hmapped.outcome_bind,
    hrelay.outcome_bind,hrtt.outcome_bind,outcome_bind,hice,candidatesOf]
  generalize candidatesResult fuel _ = result
  rcases result with _ | _ | _ <;> rfl

lemma deserialize_inside (h : RecordFits data) (fuel : ℕ) (v : View) :
    deserialize fuel data ≠ some (.error (.outside v)) := by
  rcases Nat.lt_or_ge data.size 33 with hsize | hsize
  · obtain ⟨e,he⟩ := deserialize_short hsize fuel
    rw [he]
    nofun
  · obtain ⟨f,hf⟩ := deserialize_fits hsize (h hsize) fuel
    intro hv
    obtain ⟨_ | _,hr,hmap⟩ := Option.map_eq_some_iff.mp (hf.symm.trans hv)
    · cases hmap
      exact (candidatesResult_error (α := Unit) hr).1 ⟨v,rfl⟩
    · cases hmap

end PeerRecord

/-- The record is read or its error is passed over. -/
def Returned (buffer : BytesView) : Prop :=
  ∃ r rec, PeerRecord.deserialize fuel buffer = some r ∧ tolerated r = .ok rec

lemma returned_iff (fuel : ℕ) : Returned fuel data ↔ GoesOn fuel data := by
  rcases Nat.lt_or_ge data.size 33 with hsize | hsize
  · obtain ⟨e,he⟩ := deserialize_short hsize fuel
    exact iff_of_true ⟨_,_,he,rfl⟩ (.inl hsize)
  rw [GoesOn,or_iff_right (Nat.not_lt.mpr hsize)]
  by_cases hfits : EndpointFits data (endpointStart data)
  · obtain ⟨f,hf⟩ := deserialize_fits hsize hfits fuel
    rw [Returned,hf,and_iff_right hfits]
    cases hr : candidatesResult fuel (candidatesOf data) with
    | none => simp
    | some result =>
      cases result with
      | ok candidates => simp [Except.map,tolerated]
      | error e => simp [Except.map,(candidatesResult_error (α := PeerRecord) hr).2]
  · obtain ⟨v,hv⟩ := deserialize_outside (fun h => hfits (h hsize)) fuel
    simp [Returned,hv,hfits,tolerated]

/-! The table. -/

/-- The buffers of at most `n` records with their lengths in front of them. -/
def buffers (data : BytesView) : ℕ → ℕ → List BytesView
  | 0, _ => []
  | n+1, off =>
    if off+4 > data.size ∨ off+4+countAt data off > data.size then []
    else part data (off+4) (countAt data off)::buffers data n (off+4+countAt data off)

def recordBuffers (data : BytesView) : List BytesView :=
  buffers data (countAt data 0) (min 4 data.size)

namespace MembershipTable

section
variable (fuel n : ℕ) (records : AssocMap UInt64 PeerRecord) {off : ℕ}

lemma readRecords_stop (hoff : off ≤ data.size)
    (hstop : off+4 > data.size ∨ off+4+countAt data off > data.size) :
    ∃ off', (readRecords fuel data (n+1) records).outcome off = some (.ok records,off') := by
  rw [readRecords,outcome_look]
  by_cases hhead : off+4 > data.size
  · exact ⟨off,by rw [if_pos hhead]; rfl⟩
  · obtain ⟨len,hlen,hret⟩ := returns_readU32 hoff
    rw [atMost_eq (Nat.not_lt.mp hhead)] at hret
    refine ⟨off+4,?_⟩
    rw [if_neg hhead,hret.outcome_bind,outcome_look,hlen,if_pos (hstop.resolve_left hhead)]
    rfl

lemma readRecords_turn (hhead : off+4 ≤ data.size) (hrec : off+4+countAt data off ≤ data.size) :
    (readRecords fuel data (n+1) records).outcome off =
      (PeerRecord.deserialize fuel (part data (off+4) (countAt data off))).bind fun r =>
        match tolerated r with
        | .error e => some (.error e,off+4+countAt data off)
        | .ok none => (readRecords fuel data n records).outcome (off+4+countAt data off)
        | .ok (some rec) =>
          (readRecords fuel data n (emplace records rec)).outcome (off+4+countAt data off) := by
  obtain ⟨len,hlen,hret⟩ := returns_readU32 (show off ≤ data.size by omega)
  rw [atMost_eq hhead] at hret
  rw [readRecords,outcome_look,if_neg (Nat.not_lt.mpr hhead),hret.outcome_bind,outcome_look,hlen,
    if_neg (Nat.not_lt.mpr hrec),outcome_bind,outcome_onPart hrec]
  cases PeerRecord.deserialize fuel (part data (off+4) (countAt data off)) with
  | none => rfl
  | some r =>
    cases ht : tolerated r with
    | error e => simp [ht]
    | ok rec => cases rec <;> simp [ht]

end

lemma tolerated_outside :
    tolerated r = .error (.outside v) ↔ r = .error (.outside v) := by
  match r with
  | .ok a => simp [tolerated]
  | .error (.failure (.error e)) => simp [tolerated]
  | .error (.failure .lengthError) => simp [tolerated]
  | .error (.outside w) => simp [tolerated]

lemma exists_split_cons {β : Type} {Go P : β → Prop} {x : β} {xs : List β} :
    (∃ pre b post, x::xs = pre ++ b::post ∧ (∀ y ∈ pre, Go y) ∧ P b) ↔
      P x ∨ Go x ∧ ∃ pre b post, xs = pre ++ b::post ∧ (∀ y ∈ pre, Go y) ∧ P b := by
  constructor
  · rintro ⟨pre,b,post,heq,hpre,hb⟩
    cases pre with
    | nil =>
      cases heq
      exact Or.inl hb
    | cons y pre =>
      cases heq
      obtain ⟨hy,hpre⟩ := List.forall_mem_cons.mp hpre
      exact Or.inr ⟨hy,pre,b,post,rfl,hpre,hb⟩
  · rintro (hx | ⟨hx,pre,b,post,rfl,hpre,hb⟩)
    · exact ⟨[],x,xs,rfl,by simp,hx⟩
    · exact ⟨x::pre,b,post,rfl,List.forall_mem_cons.mpr ⟨hx,hpre⟩,hb⟩

lemma readRecords_outside_iff (fuel n : ℕ) {off : ℕ} (h : off ≤ data.size)
    (records : AssocMap UInt64 PeerRecord) :
    (∃ v off', (readRecords fuel data n records).outcome off = some (.error (.outside v),off')) ↔
      ∃ pre buffer post, buffers data n off = pre ++ buffer::post ∧ (∀ b ∈ pre, Returned fuel b) ∧
        ∃ v, PeerRecord.deserialize fuel buffer = some (.error (.outside v)) := by
  induction n generalizing off records with
  | zero => simp [readRecords,buffers]
  | succ n ih =>
    by_cases hstop : off+4 > data.size ∨ off+4+countAt data off > data.size
    · obtain ⟨off',hout⟩ := readRecords_stop fuel n records h hstop
      simp [hout,buffers,hstop]
    · rw [readRecords_turn fuel n records (by omega) (by omega),buffers,if_neg hstop,exists_split_cons]
      generalize part data (off+4) (countAt data off) = buffer
      have hnext : off+4+countAt data off ≤ data.size := by omega
      cases hr : PeerRecord.deserialize fuel buffer with
      | none => simp [Returned,hr]
      | some r =>
        cases ht : tolerated r with
        | error e =>
          have hno : ¬Returned fuel buffer := by
            rintro ⟨r',rec,hr',ht'⟩
            cases hr.symm.trans hr'
            cases ht.symm.trans ht'
          simp [ht,hno,← tolerated_outside]
        | ok rec =>
          have hreturned : Returned fuel buffer := ⟨r,rec,hr,ht⟩
          have hno : ¬∃ v, some r = some (.error (.outside v)) := by
            rintro ⟨v,hv⟩
            rw [tolerated_outside.mpr (Option.some.inj hv)] at ht
            cases ht
          rw [or_iff_right hno,and_iff_right hreturned,Option.bind_some,ht]
          cases rec with
          | none => exact ih hnext records
          | some rec => exact ih hnext _

lemma deserialize_outside_iff (fuel : ℕ) :
    (∃ v, deserialize fuel data = some (.error (.outside v))) ↔
      ∃ pre buffer post, recordBuffers data = pre ++ buffer::post ∧ (∀ b ∈ pre, Returned fuel b) ∧
        ∃ v, PeerRecord.deserialize fuel buffer = some (.error (.outside v)) := by
  obtain ⟨count,hcount,hret⟩ := returns_readU32 (Nat.zero_le data.size)
  rw [atMost,Nat.zero_add] at hret
  rw [recordBuffers,← readRecords_outside_iff fuel _ (Nat.min_le_right _ _) AssocMap.empty,deserialize,
    read,hret.outcome_bind,hcount,outcome_bind]
  cases (readRecords fuel data (countAt data 0) AssocMap.empty).outcome (min 4 data.size) with
  | none => simp
  | some out =>
    obtain ⟨r,off⟩ := out
    cases r with
    | error e => simp
    | ok records => simp

end MembershipTable

/-- Reading a record stays inside its buffer exactly if the lengths in its endpoint fit. Reading a table
does exactly if they fit in every record that is come to. -/
theorem deserialize_inside_iff (data : BytesView) :
    ((∀ fuel v, PeerRecord.deserialize fuel data ≠ some (.error (.outside v))) ↔ RecordFits data) ∧
    ((∀ fuel v, MembershipTable.deserialize fuel data ≠ some (.error (.outside v))) ↔
      ∀ pre buffer post, recordBuffers data = pre ++ buffer::post →
        (∃ fuel, ∀ b ∈ pre, GoesOn fuel b) → RecordFits buffer) := by
  simp only [← returned_iff]
  refine ⟨⟨fun h => ?_,deserialize_inside⟩,?_,?_⟩
  · by_contra hno
    obtain ⟨v,hv⟩ := deserialize_outside hno 0
    exact h 0 v hv
  · rintro h pre buffer post hbuffers ⟨fuel,hpre⟩
    by_contra hno
    obtain ⟨v,hv⟩ := (MembershipTable.deserialize_outside_iff fuel).mpr
      ⟨pre,buffer,post,hbuffers,hpre,deserialize_outside hno fuel⟩
    exact h fuel v hv
  · intro h fuel v hv
    obtain ⟨pre,buffer,post,hbuffers,hpre,v,hv⟩ :=
      (MembershipTable.deserialize_outside_iff fuel).mp ⟨v,hv⟩
    exact deserialize_inside (h pre buffer post hbuffers ⟨fuel,hpre⟩) fuel v hv

def faultOf : Option (Except Fault α) → Option Fault
  | some (.error e) => some e
  | _ => none

lemma eq_of_faultOf (h : faultOf r = some e) :
    r = some (.error e) := by
  match r, h with
  | some (.error e), h =>
    cases h
    rfl

def shortRecord : Bytes := List.replicate 61 0 ++ [255,255]

theorem deserialize_reads_outside :
    PeerRecord.deserialize 0 ⟨shortRecord,by decide⟩ = some (.error (.outside ⟨63,65535⟩)) ∧
    MembershipTable.deserialize 0 ⟨[0,0,0,1] ++ [0,0,0,63] ++ shortRecord,by decide⟩ =
      some (.error (.outside ⟨63,65535⟩)) := by
  constructor
  · exact eq_of_faultOf (by decide +kernel)
  · exact eq_of_faultOf (by decide +kernel)

end
end SmoFramework.Discovery
