import Mathlib.Data.List.Lex
import SmoFramework.Cbor.Codec

/-! Context values and their CBOR form (`core/cbor/context_value`). -/
namespace SmoFramework.Cbor
open SmoFramework.Library.BigEndian List Decoder

/-- The alternatives of the variant. A double is its bit pattern, a map lists its entries. -/
inductive RawValue
  | nil
  | bool (b : Bool)
  | int (i : Int64)
  | float (bits : UInt64)
  | string (s : Bytes)
  | bytes (b : Bytes)
  | array (xs : List RawValue)
  | map (m : List (Bytes × RawValue))

def kMaxContextArray : ℕ := (2^63-1)/56

mutual
/-- A `std::map` is sorted by key, without repetition, and a `std::vector` holds at most
`max_size()` elements. -/
def RawValue.WF : RawValue → Prop
  | .array xs => xs.length ≤ kMaxContextArray ∧ wfElems xs
  | .map m => m.Pairwise (fun e e' => e.1 < e'.1) ∧ wfEntries m
  | _ => True
def wfElems : List RawValue → Prop
  | [] => True
  | x::xs => x.WF ∧ wfElems xs
def wfEntries : List (Bytes × RawValue) → Prop
  | [] => True
  | (_,v)::m => v.WF ∧ wfEntries m
end

structure ContextValue where
  raw : RawValue
  wf : raw.WF

mutual
def encodeContextValue : RawValue → Bytes
  | .nil => [0xF6]
  | .bool b => [if b then 0xF5 else 0xF4]
  | .int i => encodeInt i
  | .float bits => 0xFB::write64 bits
  | .string s => encodeString s
  | .bytes b => encodeBytes b
  | .array xs => encodeArray xs.length ++ encodeElems xs
  | .map m => encodeMap m.length ++ encodeEntries m
def encodeElems : List RawValue → Bytes
  | [] => []
  | x::xs => encodeContextValue x ++ encodeElems xs
def encodeEntries : List (Bytes × RawValue) → Bytes
  | [] => []
  | (key,v)::m => encodeString key ++ (encodeContextValue v ++ encodeEntries m)
end

/-- `std::map::emplace`: an existing key keeps its value. -/
def emplace (key : Bytes) (v : RawValue) : List (Bytes × RawValue) → List (Bytes × RawValue)
  | [] => [(key,v)]
  | e::m => if key < e.1 then (key,v)::e::m else if key = e.1 then e::m else e::emplace key v m

abbrev Decode (α : Type) := Decoder → Option (Outcome α × Decoder)

def decodeElems (decode : Decode RawValue) (acc : List RawValue) : ℕ → Decode (List RawValue)
  | 0, d => some (.ok acc,d)
  | count+1, d => match decode d with
    | none => none
    | some (.error e,d) => some (.error e,d)
    | some (.ok x,d) => decodeElems decode (acc ++ [x]) count d

def decodeEntries (decode : Decode RawValue) (acc : List (Bytes × RawValue)) :
    ℕ → Decode (List (Bytes × RawValue))
  | 0, d => some (.ok acc,d)
  | count+1, d => match d.decodeString with
    | (.error e,d) => some (.error e,d)
    | (.ok key,d) => match decode d with
      | none => none
      | some (.error e,d) => some (.error e,d)
      | some (.ok v,d) => decodeEntries decode (emplace key v acc) count d

/-- The fuel bounds the nesting of values. -/
def decodeContextValue : ℕ → Decode RawValue
  | 0, _ => none
  | fuel+1, d =>
    if d.pos ≥ d.data.size then some (.error (cborErr 700 "CBOR: unexpected end of data"),d)
    else
      let major := d.peekMajor
      let ai := d.data.bytes.getD d.pos 0 &&& 0x1F
      if major = 7 ∧ ai = 20 then some (.ok (.bool false),{ d with pos := d.pos+1 })
      else if major = 7 ∧ ai = 21 then some (.ok (.bool true),{ d with pos := d.pos+1 })
      else if major = 7 ∧ ai = 22 then some (.ok .nil,{ d with pos := d.pos+1 })
      else if major = 7 ∧ ai = 27 then
        if d.data.size-d.pos < 9 then some (.error (cborErr 700 "CBOR: truncated float64"),d)
        else some (.ok (.float (read64 (bytesAt d.data.bytes (d.pos+1) 8))),{ d with pos := d.pos+9 })
      else if major = 0 then match d.decodeUint with
        | (.error e,d) => some (.error e,d)
        | (.ok u,d) => some (.ok (.int u.toInt64),d)
      else if major = 1 then match d.decodeInt with
        | (.error e,d) => some (.error e,d)
        | (.ok i,d) => some (.ok (.int i),d)
      else if major = 2 then match d.decodeBytes with
        | (.error e,d) => some (.error e,d)
        | (.ok v,d) =>
          -- The copy into a vector throws on a length no vector can have.
          if v.len > kMaxString then some (.error .lengthError,d)
          else some (.ok (.bytes ((d.data.bytes.drop v.off).take v.len)),d)
      else if major = 3 then match d.decodeString with
        | (.error e,d) => some (.error e,d)
        | (.ok s,d) => some (.ok (.string s),d)
      else if major = 4 then match d.decodeArraySize with
        | (.error e,d) => some (.error e,d)
        | (.ok size,d) =>
          -- `reserve` throws before any element is read.
          if size.toNat > kMaxContextArray then some (.error .lengthError,d)
          else match decodeElems (decodeContextValue fuel) [] size.toNat d with
            | none => none
            | some (.error e,d) => some (.error e,d)
            | some (.ok xs,d) => some (.ok (.array xs),d)
      else if major = 5 then match d.decodeMapSize with
        | (.error e,d) => some (.error e,d)
        | (.ok size,d) => match decodeEntries (decodeContextValue fuel) [] size.toNat d with
          | none => none
          | some (.error e,d) => some (.error e,d)
          | some (.ok m,d) => some (.ok (.map m),d)
      else some (.error (cborErr 708 ("CBOR: unsupported major type " ++ toString major.toNat ++
        " for ContextValue")),d)

/-! Encoded heads are heads. -/

lemma toNat_headByte {major x : UInt8} (hm : major.toNat < 8) (hx : x.toNat < 32) :
    ((major <<< 5) ||| x).toNat = major.toNat*32+x.toNat := by
  change major.toNat <<< (5 % 8) % 2^8 ||| x.toNat = _
  rw [show 5 % 8 = 5 from rfl,Nat.mod_eq_of_lt (by rw [Nat.shiftLeft_eq]; omega),
    ← Nat.shiftLeft_add_eq_or_of_lt (show x.toNat < 2^5 from hx),Nat.shiftLeft_eq]

lemma headAt_extended (hk : k < 4)
    (hib : ib.toNat = major*32+(24+k)) (hext : ext.length = 2^k) :
    HeadAt (pre ++ (ib::ext ++ rest)) pre.length major (ofBE ext) (pre.length+(ib::ext).length) := by
  have hai : ib.toNat % 32 = 24+k := by omega
  have hdrop : (pre ++ (ib::ext ++ rest)).drop (pre.length+1) = ext ++ rest := by
    rw [← drop_drop,drop_left]
    rfl
  refine ⟨ib,by simp,by omega,Or.inr ⟨by omega,by omega,?_,?_,?_⟩⟩
  · rw [hai,Nat.add_sub_cancel_left,length_cons]
    omega
  · simp only [length_append]
    omega
  · rw [hdrop,hai,Nat.add_sub_cancel_left,← hext,take_left]

lemma headAt_encodeHead (pre rest : Bytes) {major : UInt8} (hm : major.toNat < 8) (val : UInt64) :
    HeadAt (pre ++ (encodeHead major val ++ rest)) pre.length major.toNat val.toNat
      (pre.length+(encodeHead major val).length) := by
  have hval := val.toNat_lt
  have hle : ∀ k : UInt64, val ≤ k ↔ val.toNat ≤ k.toNat := fun k => UInt64.le_iff_toNat_le
  unfold encodeHead
  simp only [hle,UInt64.reduceToNat]
  split_ifs with h1 h2 h3 h4
  · have hx : val.toUInt8.toNat = val.toNat := by
      rw [UInt64.toNat_toUInt8]
      omega
    have hib := @toNat_headByte major val.toUInt8 hm (by omega)
    exact ⟨(major <<< 5) ||| val.toUInt8,by simp,by omega,Or.inl ⟨by omega,by omega,rfl⟩⟩
  · obtain ⟨hlen,hof⟩ := write64_drop (k := 7) (w := 1) rfl (by omega : val.toNat < 256^1)
    rw [← hof]
    exact headAt_extended (k := 0) (by decide) (toNat_headByte hm (by decide)) hlen
  · obtain ⟨hlen,hof⟩ := write64_drop (k := 6) (w := 2) rfl (by omega : val.toNat < 256^2)
    rw [← hof]
    exact headAt_extended (k := 1) (by decide) (toNat_headByte hm (by decide)) hlen
  · obtain ⟨hlen,hof⟩ := write64_drop (k := 4) (w := 4) rfl (by omega : val.toNat < 256^4)
    rw [← hof]
    exact headAt_extended (k := 2) (by decide) (toNat_headByte hm (by decide)) hlen
  · obtain ⟨hlen,hof⟩ := write64_drop (k := 0) (w := 8) rfl (by omega : val.toNat < 256^8)
    rw [← hof]
    exact headAt_extended (k := 3) (by decide) (toNat_headByte hm (by decide)) hlen

/-! Reading back at any offset. -/

section
variable {data : BytesView} {pre rest : Bytes}

variable {field : Bytes}

lemma size_of_bytes (h : data.bytes = pre ++ (field ++ rest)) :
    pre.length+field.length ≤ data.size := by
  unfold BytesView.size
  rw [h,length_append,length_append]
  omega

variable {major : UInt8} {val : UInt64}

lemma headAt_of_bytes (hm : major.toNat < 8)
    (h : data.bytes = pre ++ (encodeHead major val ++ rest)) :
    HeadAt data.bytes pre.length major.toNat val.toNat
      (pre.length+(encodeHead major val).length) := by
  rw [h]
  exact headAt_encodeHead pre rest hm val

lemma decodeHead_encoded (hm : major.toNat < 8)
    (h : data.bytes = pre ++ (encodeHead major val ++ rest)) :
    decodeHead ⟨data,pre.length⟩ =
      (.ok (major,val),⟨data,pre.length+(encodeHead major val).length⟩) := by
  have hhead := headAt_of_bytes hm h
  rcases decodeHead_cases ⟨data,pre.length⟩ with ⟨m,v,q,hd,hq⟩ | ⟨e,q,-,hno,-⟩
  · obtain ⟨hm',hv,rfl⟩ := hhead.unique hq
    rw [hd,← UInt8.toNat_inj.mp hm',← UInt64.toNat_inj.mp hv]
  · exact absurd hhead (hno _ _ _)

lemma decodeHeadOf_encoded (hm : major.toNat < 8) (code : ℕ) (message : String)
    (h : data.bytes = pre ++ (encodeHead major val ++ rest)) :
    decodeHeadOf major code message ⟨data,pre.length⟩ =
      (.ok val,⟨data,pre.length+(encodeHead major val).length⟩) := by
  unfold decodeHeadOf
  rw [decodeHead_encoded hm h]
  exact if_neg (not_not.mpr rfl)

lemma peek_encoded (hm : major.toNat < 8) (h : data.bytes = pre ++ (encodeHead major val ++ rest))
    : ¬pre.length ≥ data.size ∧ peekMajor ⟨data,pre.length⟩ = major := by
  have hhead := headAt_of_bytes hm h
  have hlt : ¬pre.length ≥ data.size := not_le.mpr (hhead.lt.1.trans_le hhead.lt.2)
  refine ⟨hlt,?_⟩
  obtain ⟨ib,hib,hmajor,-⟩ := hhead
  unfold peekMajor
  rw [if_neg hlt,getD_eq_getElem?_getD,hib]
  exact UInt8.toNat_inj.mp ((toNat_shiftRight5 ib).trans hmajor.symm)

lemma toNat_ofNat_length (h : field.length ≤ data.size) :
    (UInt64.ofNat field.length).toNat = field.length := by
  have hsmall : data.size < 2^63 := data.small
  exact UInt64.toNat_ofNat_of_lt' (lt_of_le_of_lt h (hsmall.trans (by decide)))

lemma lengthPrefixed (hm : major.toNat < 8)
    (h : data.bytes = pre ++ (encodeHead major (UInt64.ofNat field.length) ++ field ++ rest)) :
    HeadAt data.bytes pre.length major.toNat field.length
        (pre.length+(encodeHead major (UInt64.ofNat field.length)).length) ∧
      (data.bytes.drop (pre.length+(encodeHead major (UInt64.ofNat field.length)).length)).take
        field.length = field ∧
      pre.length+(encodeHead major (UInt64.ofNat field.length)).length+field.length ≤ data.size := by
  have hsize := size_of_bytes h
  rw [length_append] at hsize
  have hhead := headAt_of_bytes hm (h.trans (by rw [append_assoc]))
  rw [@toNat_ofNat_length data field (by omega)] at hhead
  refine ⟨hhead,?_,by omega⟩
  rw [h,append_assoc,← append_assoc,← length_append,drop_left,take_left]

lemma decodeString_encoded (h : data.bytes = pre ++ (encodeString s ++ rest)) :
    decodeString ⟨data,pre.length⟩ = (.ok s,⟨data,pre.length+(encodeString s).length⟩) := by
  unfold encodeString at h ⊢
  obtain ⟨hhead,hfield,hsize⟩ := lengthPrefixed (show (3 : UInt8).toNat < 8 by decide) h
  rcases decodeString_cases ⟨data,pre.length⟩ with ⟨n,q,hq,-,hd⟩ | ⟨e,q,-,-,hno⟩
  · obtain ⟨-,rfl,rfl⟩ := hhead.unique hq
    rw [hd,hfield,length_append,Nat.add_assoc]
  · exact absurd (hno _ _ hhead) (not_lt.mpr hsize)

lemma decodeBytes_encoded (h : data.bytes = pre ++ (encodeBytes b ++ rest)) :
    ∃ off, decodeBytes ⟨data,pre.length⟩ =
        (.ok ⟨off,b.length⟩,⟨data,pre.length+(encodeBytes b).length⟩) ∧
      (data.bytes.drop off).take b.length = b ∧ b.length ≤ data.size := by
  have hsmall : data.size < 2^63 := data.small
  unfold encodeBytes at h ⊢
  obtain ⟨hhead,hfield,hsize⟩ := lengthPrefixed (show (2 : UInt8).toNat < 8 by decide) h
  rcases decodeBytes_cases ⟨data,pre.length⟩ with
    ⟨n,q,hq,-,hd⟩ | ⟨n,q,hq,hwrap,-⟩ | ⟨e,q,-,-,hno⟩
  · obtain ⟨-,rfl,rfl⟩ := hhead.unique hq
    exact ⟨_,by rw [hd,length_append,Nat.add_assoc],hfield,by omega⟩
  · obtain ⟨-,rfl,rfl⟩ := hhead.unique hq
    omega
  · exact absurd (hno _ _ hhead).1 (not_lt.mpr hsize)

lemma emplace_last (h : ∀ e ∈ m, e.1 < key) : emplace key v m = m ++ [(key,v)] := by
  induction m with
  | nil => rfl
  | cons e m ih =>
    have he := h e List.mem_cons_self
    have hne : key ≠ e.1 := by
      rintro rfl
      exact List.lt_irrefl _ he
    rw [emplace,if_neg (List.lt_asymm he),if_neg hne,
      ih fun e' he' => h e' (List.mem_cons_of_mem _ he')]
    rfl

end

def DecodesTo (fuel : ℕ) (v : RawValue) : Prop :=
  ∀ (data : BytesView) (pre rest : Bytes), data.bytes = pre ++ (encodeContextValue v ++ rest) →
    decodeContextValue fuel ⟨data,pre.length⟩ =
      some (.ok v,⟨data,pre.length+(encodeContextValue v).length⟩)

section
variable {data : BytesView} {pre rest : Bytes}

lemma decodeElems_encoded (acc : List RawValue)
    (hxs : ∀ x ∈ xs, DecodesTo fuel x) (h : data.bytes = pre ++ (encodeElems xs ++ rest)) :
    decodeElems (decodeContextValue fuel) acc xs.length ⟨data,pre.length⟩ =
      some (.ok (acc ++ xs),⟨data,pre.length+(encodeElems xs).length⟩) := by
  induction xs generalizing pre acc with
  | nil => simp [decodeElems,encodeElems]
  | cons x xs ih =>
    rw [encodeElems,append_assoc] at h
    have hx := hxs x mem_cons_self data pre _ h
    rw [← append_assoc] at h
    have hrest := ih (acc ++ [x]) (fun y hy => hxs y (mem_cons_of_mem _ hy)) h
    rw [length_append] at hrest
    rw [length_cons,decodeElems,hx,encodeElems]
    dsimp only
    rw [hrest,length_append,append_assoc,Nat.add_assoc]
    rfl

lemma decodeEntries_encoded (acc : List (Bytes × RawValue)) (hm : ∀ e ∈ m, DecodesTo fuel e.2)
    (hsorted : (acc ++ m).Pairwise (fun e e' => e.1 < e'.1))
    (h : data.bytes = pre ++ (encodeEntries m ++ rest)) :
    decodeEntries (decodeContextValue fuel) acc m.length ⟨data,pre.length⟩ =
      some (.ok (acc ++ m),⟨data,pre.length+(encodeEntries m).length⟩) := by
  induction m generalizing pre acc with
  | nil => simp [decodeEntries,encodeEntries]
  | cons e m ih =>
    obtain ⟨key,v⟩ := e
    rw [encodeEntries,append_assoc,append_assoc] at h
    have hkey := decodeString_encoded h
    rw [← append_assoc] at h
    have hv := hm (key,v) mem_cons_self data _ _ h
    rw [← append_assoc] at h
    have hlast : emplace key v acc = acc ++ [(key,v)] := by
      apply emplace_last
      intro e he
      exact (pairwise_append.mp hsorted).2.2 e he (key,v) mem_cons_self
    have hrest := ih (acc ++ [(key,v)]) (fun y hy => hm y (mem_cons_of_mem _ hy))
      (by rwa [append_assoc]) h
    rw [length_append] at hv hrest
    rw [length_append] at hrest
    rw [length_cons,decodeEntries,hkey]
    dsimp only
    rw [hv]
    dsimp only
    rw [hlast,hrest,encodeEntries,length_append,length_append,append_assoc]
    simp only [Nat.add_assoc]
    rfl

end

variable {data : BytesView}

lemma le_size_of_count {pre rest head body : Bytes} {count : ℕ}
    (h : data.bytes = pre ++ (head ++ body ++ rest)) (hcount : count ≤ body.length) :
    (UInt64.ofNat count).toNat = count := by
  have hsmall : data.size < 2^63 := data.small
  have hsize := size_of_bytes h
  rw [length_append] at hsize
  exact UInt64.toNat_ofNat_of_lt' (show count < 2^64 by omega)

lemma encodeHead_length_pos (major : UInt8) (val : UInt64) :
    0 < (encodeHead major val).length := by
  unfold encodeHead
  split_ifs <;> simp

lemma encodeContextValue_length_pos (v : RawValue) : 0 < (encodeContextValue v).length := by
  cases v with
  | nil | bool | float => simp [encodeContextValue]
  | int i =>
    rw [encodeContextValue,encodeInt]
    split_ifs <;> exact encodeHead_length_pos _ _
  | string s =>
    rw [encodeContextValue,encodeString,length_append]
    exact Nat.add_pos_left (encodeHead_length_pos _ _) _
  | bytes b =>
    rw [encodeContextValue,encodeBytes,length_append]
    exact Nat.add_pos_left (encodeHead_length_pos _ _) _
  | array xs =>
    rw [encodeContextValue,length_append]
    exact Nat.add_pos_left (encodeHead_length_pos _ _) _
  | map m =>
    rw [encodeContextValue,length_append]
    exact Nat.add_pos_left (encodeHead_length_pos _ _) _

lemma length_le_encodeElems (xs : List RawValue) : xs.length ≤ (encodeElems xs).length := by
  induction xs with
  | nil => exact le_rfl
  | cons x xs ih =>
    have := encodeContextValue_length_pos x
    rw [encodeElems,length_append,length_cons]
    omega

lemma length_le_encodeEntries (m : List (Bytes × RawValue)) :
    m.length ≤ (encodeEntries m).length := by
  induction m with
  | nil => exact le_rfl
  | cons e m ih =>
    have := encodeContextValue_length_pos e.2
    rw [encodeEntries,length_append,length_append,length_cons]
    omega

/-! One lemma for each alternative. -/

lemma simple_byte {pre rest : Bytes} {ib : UInt8} (hib : ib >>> 5 = 7)
    (h : data.bytes = pre ++ ([ib] ++ rest)) :
    ¬pre.length ≥ data.size ∧ peekMajor ⟨data,pre.length⟩ = 7 ∧
      data.bytes.getD pre.length 0 = ib := by
  have hsize := size_of_bytes h
  have hlt : ¬pre.length ≥ data.size := by
    rw [length_singleton] at hsize
    omega
  have hget : data.bytes.getD pre.length 0 = ib := by
    rw [h]
    simp
  refine ⟨hlt,?_,hget⟩
  unfold peekMajor
  rw [if_neg hlt,hget,hib]

lemma decodesTo_nil (fuel : ℕ) : DecodesTo (fuel+1) .nil := by
  intro data pre rest h
  obtain ⟨hlt,hmajor,hget⟩ := simple_byte (by decide) h
  rw [decodeContextValue,if_neg hlt]
  simp only [hmajor,hget]
  rfl

lemma decodesTo_bool (fuel : ℕ) (b : Bool) : DecodesTo (fuel+1) (.bool b) := by
  intro data pre rest h
  cases b
  all_goals
    obtain ⟨hlt,hmajor,hget⟩ := simple_byte (by decide) h
    rw [decodeContextValue,if_neg hlt]
    simp only [hmajor,hget]
    rfl

lemma decodesTo_float (fuel : ℕ) (bits : UInt64) : DecodesTo (fuel+1) (.float bits) := by
  intro data pre rest h
  have hsize := size_of_bytes h
  rw [encodeContextValue] at h hsize ⊢
  rw [length_cons,length_write64] at hsize ⊢
  obtain ⟨hlt,hmajor,hget⟩ :=
    @simple_byte data pre (write64 bits ++ rest) 0xFB (by decide) h
  have hbits : bytesAt data.bytes (pre.length+1) 8 = write64 bits := by
    have := @bytesAt_append (pre ++ [0xFB]) (write64 bits) rest (pre.length+1) 8 (by simp) (by simp)
    rw [h]
    simpa using this
  rw [decodeContextValue,if_neg hlt]
  simp only [hmajor,hget,hbits,read64_write64]
  rw [if_neg (by decide),if_neg (by decide),if_neg (by decide),if_pos (by decide),if_neg (by omega)]

lemma decodesTo_int (fuel : ℕ) (i : Int64) : DecodesTo (fuel+1) (.int i) := by
  intro data pre rest h
  rw [encodeContextValue,encodeInt] at h ⊢
  by_cases hi : i ≥ 0
  · rw [if_pos hi,encodeUint] at h ⊢
    obtain ⟨hlt,hmajor⟩ := peek_encoded (by decide) h
    rw [decodeContextValue,if_neg hlt]
    simp only [hmajor,decodeUint,decodeHeadOf_encoded (by decide) _ _ h]
    simp
  · rw [if_neg hi] at h ⊢
    obtain ⟨hlt,hmajor⟩ := peek_encoded (by decide) h
    rw [decodeContextValue,if_neg hlt]
    simp only [hmajor,decodeInt,decodeHead_encoded (by decide) h]
    have hneg : -1-(-1-i) = i := by grind
    simp [hneg]

lemma decodesTo_string (fuel : ℕ) (s : Bytes) : DecodesTo (fuel+1) (.string s) := by
  intro data pre rest h
  rw [encodeContextValue] at h ⊢
  obtain ⟨hlt,hmajor⟩ := peek_encoded (show (3 : UInt8).toNat < 8 by decide)
    (h.trans (by rw [encodeString,append_assoc]))
  rw [decodeContextValue,if_neg hlt]
  simp only [hmajor,decodeString_encoded h]
  rfl

lemma decodesTo_bytes (fuel : ℕ) (b : Bytes) : DecodesTo (fuel+1) (.bytes b) := by
  intro data pre rest h
  have hsmall : data.size < 2^63 := data.small
  rw [encodeContextValue] at h ⊢
  obtain ⟨hlt,hmajor⟩ := peek_encoded (show (2 : UInt8).toNat < 8 by decide)
    (h.trans (by rw [encodeBytes,append_assoc]))
  obtain ⟨off,hd,hfield,hlen⟩ := decodeBytes_encoded h
  have hmax : ¬ b.length > kMaxString := by
    unfold kMaxString
    omega
  rw [decodeContextValue,if_neg hlt]
  simp only [hmajor,hd,hfield,if_neg hmax]
  rfl

variable {fuel : ℕ} {xs : List RawValue}

lemma decodesTo_array (hmax : xs.length ≤ kMaxContextArray)
    (hxs : ∀ x ∈ xs, DecodesTo fuel x) : DecodesTo (fuel+1) (.array xs) := by
  intro data pre rest h
  rw [encodeContextValue,encodeArray] at h ⊢
  have hcount := le_size_of_count h (length_le_encodeElems xs)
  rw [append_assoc] at h
  obtain ⟨hlt,hmajor⟩ := peek_encoded (show (4 : UInt8).toNat < 8 by decide) h
  have hhead := decodeHeadOf_encoded (show (4 : UInt8).toNat < 8 by decide) 706
    "CBOR: expected array" h
  rw [← append_assoc] at h
  have helems := decodeElems_encoded [] hxs h
  rw [length_append] at helems
  rw [decodeContextValue,if_neg hlt]
  simp only [hmajor,decodeArraySize,hhead,hcount,if_neg (not_lt.mpr hmax),helems]
  rw [length_append,Nat.add_assoc]
  rfl

variable {m : List (Bytes × RawValue)}

lemma decodesTo_map
    (hsorted : m.Pairwise (fun e e' => e.1 < e'.1)) (hm : ∀ e ∈ m, DecodesTo fuel e.2) :
    DecodesTo (fuel+1) (.map m) := by
  intro data pre rest h
  rw [encodeContextValue,encodeMap] at h ⊢
  have hcount := le_size_of_count h (length_le_encodeEntries m)
  rw [append_assoc] at h
  obtain ⟨hlt,hmajor⟩ := peek_encoded (show (5 : UInt8).toNat < 8 by decide) h
  have hhead := decodeHeadOf_encoded (show (5 : UInt8).toNat < 8 by decide) 707
    "CBOR: expected map" h
  rw [← append_assoc] at h
  have hentries := decodeEntries_encoded [] hm hsorted h
  rw [length_append] at hentries
  rw [decodeContextValue,if_neg hlt]
  simp only [hmajor,decodeMapSize,hhead,hcount,hentries]
  rw [length_append,Nat.add_assoc]
  rfl

mutual
def RawValue.depth : RawValue → ℕ
  | .array xs => depthElems xs+1
  | .map m => depthEntries m+1
  | _ => 1
def depthElems : List RawValue → ℕ
  | [] => 0
  | x::xs => max x.depth (depthElems xs)
def depthEntries : List (Bytes × RawValue) → ℕ
  | [] => 0
  | (_,v)::m => max v.depth (depthEntries m)
end

lemma mem_elems (hwf : wfElems xs) (hd : depthElems xs ≤ fuel) :
    ∀ x ∈ xs, x.WF ∧ x.depth ≤ fuel := by
  induction xs with
  | nil => simp
  | cons y ys ih =>
    rw [depthElems,max_le_iff] at hd
    exact forall_mem_cons.mpr ⟨⟨hwf.1,hd.1⟩,ih hwf.2 hd.2⟩

lemma mem_entries (hwf : wfEntries m)
    (hd : depthEntries m ≤ fuel) : ∀ e ∈ m, e.2.WF ∧ e.2.depth ≤ fuel := by
  induction m with
  | nil => simp
  | cons e m ih =>
    rw [depthEntries,max_le_iff] at hd
    exact forall_mem_cons.mpr ⟨⟨hwf.1,hd.1⟩,ih hwf.2 hd.2⟩

/-- Induction over the fuel: each container hands it, less one, to what it holds. -/
theorem decodesTo_of_depth (v : RawValue) (fuel : ℕ) (hwf : v.WF) (hd : v.depth ≤ fuel) :
    DecodesTo fuel v := by
  induction fuel generalizing v with
  | zero => cases v <;> simp [RawValue.depth] at hd
  | succ fuel ih =>
    cases v with
    | nil => exact decodesTo_nil fuel
    | bool b => exact decodesTo_bool fuel b
    | int i => exact decodesTo_int fuel i
    | float bits => exact decodesTo_float fuel bits
    | string s => exact decodesTo_string fuel s
    | bytes b => exact decodesTo_bytes fuel b
    | array xs =>
      rw [RawValue.depth] at hd
      have hmem := mem_elems hwf.2 (show depthElems xs ≤ fuel by omega)
      exact decodesTo_array hwf.1 fun x hx => ih x (hmem x hx).1 (hmem x hx).2
    | map m =>
      rw [RawValue.depth] at hd
      have hmem := mem_entries hwf.2 (show depthEntries m ≤ fuel by omega)
      exact decodesTo_map hwf.1 fun e he => ih e.2 (hmem e he).1 (hmem e he).2

/-- Every context value decodes from its encoding, wherever it stands, to itself, and the decoder
stops behind it. -/
theorem contextValue_round_trip (v : ContextValue) (pre rest : Bytes) (data : BytesView)
    (h : data.bytes = pre ++ (encodeContextValue v.raw ++ rest)) (fuel : ℕ)
    (hfuel : v.raw.depth ≤ fuel) : decodeContextValue fuel ⟨data,pre.length⟩ =
      some (.ok v.raw,⟨data,pre.length+(encodeContextValue v.raw).length⟩) ∧
    data.bytes.drop (pre.length+(encodeContextValue v.raw).length) = rest := by
  refine ⟨decodesTo_of_depth v.raw fuel v.wf hfuel data pre rest h,?_⟩
  rw [h,← append_assoc,← length_append,drop_left]

def sampleValue : ContextValue where
  raw := .map [([0x61],.array [.nil,.bool true,.int (-300)]),([0x62],.bytes [])]
  wf := by
    have hlt : ([0x61] : Bytes) < [0x62] := by decide
    simp [RawValue.WF,wfEntries,wfElems,kMaxContextArray,hlt]

def sampleView : BytesView where
  bytes := [0x07] ++ (encodeContextValue sampleValue.raw ++ [0xFF])
  small := by decide

theorem contextValue_round_trip_sample : decodeContextValue 3 ⟨sampleView,1⟩ =
    some (.ok sampleValue.raw,⟨sampleView,13⟩) ∧ sampleView.bytes.drop 13 = [0xFF] :=
  contextValue_round_trip sampleValue [0x07] [0xFF] sampleView rfl 3 (by decide)

end SmoFramework.Cbor
