import Mathlib.Data.Vector.Basic
import SmoFramework.Errors
import SmoFramework.Library.BigEndian
import SmoFramework.Library.CheckedCursor

/-! The reader of STUN binding responses (`Client::parse_response`). Every access is checked, and the loop
over the attributes runs under a fuel bound: an answer means that the source terminates and has looked
only at the bytes it was given. The time of discovery in an address is not set by the reader. -/
namespace SmoFramework.Network.Stun
open Library Library.BigEndian Library.Cursor List

def kStunMagicCookie : UInt32 := 0x2112A442
def kStunBindingResponse : UInt16 := 0x0101
def kStunBindingErrorResponse : UInt16 := 0x0111
def kAttrXorMappedAddress : UInt16 := 0x0020
def kAttrMappedAddress : UInt16 := 0x0001

abbrev TransactionId := List.Vector UInt8 12

structure MappedAddress where
  ip : String := ""
  port : UInt16 := 0
  isIpv6 : Bool := false

structure InetNtop where
  v4 : UInt32 → Option String
  v6 : Bytes → Option String

/-- The only error is that the fuel is used up. -/
abbrev Parse (α : Type) := Checked Unit α

def word16 (data : Bytes) (off : ℕ) : Parse UInt16 := do
  let hi ← element data off 0
  let lo ← element data (off+1) 0
  pure (read16 hi lo)

def word32 (data : Bytes) (off : ℕ) : Parse UInt32 := do
  let b3 ← element data off 0
  let b2 ← element data (off+1) 0
  let b1 ← element data (off+2) 0
  let b0 ← element data (off+3) 0
  pure (read32 b3 b2 b1 b0)

def MappedAddress.setIp (m : MappedAddress) : Option String → MappedAddress
  | none => m
  | some ip => { m with ip }

def xorAddress (tid : TransactionId) (bytes : Bytes) : Bytes :=
  List.zipWith (· ^^^ ·) bytes (write32 kStunMagicCookie ++ tid.toList)

/-- Only the address of one kind is masked. -/
def unmask {α : Type} (attrType : UInt16) (masked plain : α) : α :=
  if attrType = kAttrXorMappedAddress then masked else plain

section
variable (ntop : InetNtop) (tid : TransactionId)

variable (attrType : UInt16) (value : Bytes) (mapped : MappedAddress)

/-- A value of one of the two kinds of address. The second test for the eight bytes of an IPv4 address is
left out. -/
def readAddress : Parse MappedAddress :=
  if value.length ≥ 8 then do
    let family ← element value 1 0
    let xport ← word16 value 2
    let port := unmask attrType (xport ^^^ (kStunMagicCookie >>> 16).toUInt16) xport
    if family = 0x01 then do
      let xaddr ← word32 value 4
      let addr := unmask attrType (xaddr ^^^ kStunMagicCookie) xaddr
      pure ({ mapped with port, isIpv6 := false }.setIp (ntop.v4 addr))
    else if family = 0x02 then
      if value.length ≥ 20 then do
        let xaddr ← slice value 4 16
        let addr := unmask attrType (xorAddress tid xaddr) xaddr
        pure ({ mapped with port, isIpv6 := true }.setIp (ntop.v6 addr))
      else pure { mapped with port, isIpv6 := true }
    else pure { mapped with port }
  else pure mapped

def readAttribute : Parse MappedAddress :=
  if attrType = kAttrXorMappedAddress ∨ attrType = kAttrMappedAddress then
    readAddress ntop tid attrType value mapped
  else pure mapped

/-- The loop over the attributes, from the position of the next one. -/
def attributes (data : Bytes) (attrsEnd : ℕ) : ℕ → MappedAddress → Parse MappedAddress
  | 0,_ => throw (.failed ())
  | fuel+1,mapped => do
    let offset ← get
    if offset+4 ≤ attrsEnd ∧ offset+4 ≤ data.length then
      let attrType ← word16 data offset
      let attrLen ← word16 data (offset+2)
      let offset := offset+4
      if offset+attrLen.toNat > data.length ∨ offset+attrLen.toNat > attrsEnd then pure mapped
      else
        let value ← slice data offset attrLen.toNat
        let mapped ← readAttribute ntop tid attrType value mapped
        -- `(offset + 3) & ~3`
        set ((offset+attrLen.toNat+3)/4*4)
        attributes data attrsEnd fuel mapped
    else pure mapped

def parseResponse (data : Bytes) (fuel : ℕ) : Parse (Option MappedAddress) :=
  if data.length < 20 then pure none
  else do
    let msgType ← word16 data 0
    if msgType ≠ kStunBindingResponse ∧ msgType ≠ kStunBindingErrorResponse then pure none
    else
      let magic ← word32 data 4
      if magic ≠ kStunMagicCookie then pure none
      else
        let recvTid ← slice data 8 12
        if recvTid ≠ tid.toList then pure none
        else
          let msgLen ← word16 data 2
          set 20
          let mapped ← attributes ntop tid data (20+msgLen.toNat) fuel {}
          pure (if mapped.ip ≠ "" ∧ mapped.port ≠ 0 then some mapped else none)

end

/-! Accesses inside the input. -/

lemma word16_eq (h : off+1 < data.length) :
    word16 data off = pure (read16 (data.getD off 0) (data.getD (off+1) 0)) := by
  rw [word16,element,if_pos (by omega),element,if_pos h,pure_bind,pure_bind]

lemma word32_eq (h : off+3 < data.length) :
    word32 data off = pure (read32 (data.getD off 0) (data.getD (off+1) 0) (data.getD (off+2) 0)
      (data.getD (off+3) 0)) := by
  rw [word32,element,if_pos (by omega),element,if_pos (by omega),element,if_pos (by omega),element,
    if_pos h,pure_bind,pure_bind,pure_bind,pure_bind]

lemma slice_eq (h : off+len ≤ data.length) :
    (slice data off len : Parse Bytes) = pure ((data.drop off).take len) := if_pos h

variable {ntop : InetNtop} {tid : TransactionId}

variable (ntop tid) in
lemma exists_readAddress_eq (attrType : UInt16) (value : Bytes) (mapped : MappedAddress) :
    ∃ m, readAddress ntop tid attrType value mapped = pure m := by
  by_cases hlen : value.length ≥ 8
  · rw [readAddress,if_pos hlen,element,if_pos (by omega),pure_bind,word16_eq (by omega),pure_bind]
    split_ifs with hv4 hv6 hlong
    · rw [word32_eq (by omega)]
      exact ⟨_,rfl⟩
    · rw [slice_eq hlong]
      exact ⟨_,rfl⟩
    · exact ⟨_,rfl⟩
    · exact ⟨_,rfl⟩
  · exact ⟨mapped,if_neg hlen⟩

variable (ntop tid) in
lemma exists_readAttribute_eq (attrType : UInt16) (value : Bytes) (mapped : MappedAddress) :
    ∃ m, readAttribute ntop tid attrType value mapped = pure m := by
  unfold readAttribute
  split_ifs
  · exact exists_readAddress_eq ntop tid attrType value mapped
  · exact ⟨mapped,rfl⟩

variable {data : Bytes} {attrsEnd fuel offset : ℕ}

lemma run_attributes_end (mapped : MappedAddress) (h : ¬(offset+4 ≤ attrsEnd ∧ offset+4 ≤ data.length)) :
    (attributes ntop tid data attrsEnd (fuel+1) mapped).run offset = .ok (mapped,offset) := by
  change (if _ then _ else _ : Parse MappedAddress) offset = _
  rw [if_neg h]
  rfl

lemma run_attributes (mapped mapped' : MappedAddress)
    (h : offset+4 ≤ attrsEnd ∧ offset+4 ≤ data.length)
    (htype : read16 (data.getD offset 0) (data.getD (offset+1) 0) = attrType)
    (hlen : read16 (data.getD (offset+2) 0) (data.getD (offset+3) 0) = len)
    (hread : readAttribute ntop tid attrType ((data.drop (offset+4)).take len.toNat) mapped = pure mapped') :
    (attributes ntop tid data attrsEnd (fuel+1) mapped).run offset =
      if offset+4+len.toNat > data.length ∨ offset+4+len.toNat > attrsEnd then .ok (mapped,offset)
      else (attributes ntop tid data attrsEnd fuel mapped').run ((offset+4+len.toNat+3)/4*4) := by
  change (if _ then _ else _ : Parse MappedAddress) offset = _
  rw [if_pos h,word16_eq (by omega),pure_bind,word16_eq (by omega),pure_bind,htype,hlen]
  split_ifs with hfits
  · rfl
  · rw [slice_eq (by omega),pure_bind,hread]
    rfl

variable (ntop tid attrsEnd) in
lemma exists_run_attributes (mapped : MappedAddress) (h : data.length < fuel+offset) (hpos : 0 < fuel) :
    ∃ m q, (attributes ntop tid data attrsEnd fuel mapped).run offset = .ok (m,q) := by
  induction fuel generalizing offset mapped with
  | zero => omega
  | succ fuel ih =>
    by_cases hturn : offset+4 ≤ attrsEnd ∧ offset+4 ≤ data.length
    · obtain ⟨mapped',hread⟩ := exists_readAttribute_eq ntop tid _ _ mapped
      rw [run_attributes mapped mapped' hturn rfl rfl hread]
      split_ifs with hfits
      · exact ⟨_,_,rfl⟩
      · exact ih mapped' (by omega) (by omega)
    · exact ⟨_,_,run_attributes_end mapped hturn⟩

lemma run'_parseResponse (hlong : ¬data.length < 20)
    (htype : read16 (data.getD 0 0) (data.getD 1 0) = kStunBindingResponse ∨
      read16 (data.getD 0 0) (data.getD 1 0) = kStunBindingErrorResponse)
    (hmagic : read32 (data.getD 4 0) (data.getD 5 0) (data.getD 6 0) (data.getD 7 0) = kStunMagicCookie)
    (htid : (data.drop 8).take 12 = tid.toList) (hlen : read16 (data.getD 2 0) (data.getD 3 0) = len)
    (hrun : (attributes ntop tid data (20+len.toNat) fuel {}).run 20 = .ok (m,q)) :
    (parseResponse ntop tid data fuel).run' 0 =
      .ok (if m.ip ≠ "" ∧ m.port ≠ 0 then some m else none) := by
  rw [parseResponse,if_neg hlong,word16_eq (by omega),pure_bind,if_neg (by tauto),
    word32_eq (by omega),pure_bind,if_neg (not_not.mpr hmagic),slice_eq (by omega),pure_bind,
    if_neg (not_not.mpr htid),word16_eq (by omega),pure_bind,hlen]
  change Prod.fst <$> ((attributes ntop tid data (20+len.toNat) fuel {}).run 20 >>= _) = _
  rw [hrun]
  rfl

lemma exists_parseResponse (ntop : InetNtop) (tid : TransactionId) (data : Bytes)
    (hfuel : data.length < fuel) : ∃ r, (parseResponse ntop tid data fuel).run' 0 = .ok r := by
  unfold parseResponse
  split_ifs with hshort
  · exact ⟨none,rfl⟩
  rw [word16_eq (by omega),pure_bind]
  split_ifs
  · exact ⟨none,rfl⟩
  rw [word32_eq (by omega),pure_bind]
  split_ifs
  · exact ⟨none,rfl⟩
  rw [slice_eq (by omega),pure_bind]
  split_ifs
  · exact ⟨none,rfl⟩
  rw [word16_eq (by omega),pure_bind]
  obtain ⟨m,q,hrun⟩ := exists_run_attributes ntop tid
    (20+(read16 (data.getD 2 0) (data.getD (2+1) 0)).toNat) {} (by omega : data.length < fuel+20)
    (by omega)
  refine ⟨if m.ip ≠ "" ∧ m.port ≠ 0 then some m else none,?_⟩
  change Prod.fst <$> ((attributes ntop tid data _ fuel {}).run 20 >>= _) = _
  rw [hrun]
  rfl

/-! The responses of a server. -/

structure Attribute where
  type : UInt16
  value : Bytes
  padding : Bytes
  padded : padding.length = (4-value.length % 4) % 4

def Attribute.bytes (a : Attribute) : Bytes :=
  write16 a.type ++ (write16 (UInt16.ofNat a.value.length) ++ (a.value ++ a.padding))

def response (tid : TransactionId) (attrs : List Attribute) : Bytes :=
  let body := attrs.flatMap Attribute.bytes
  write16 kStunBindingResponse ++ (write16 (UInt16.ofNat body.length) ++
    (write32 kStunMagicCookie ++ (tid.toList ++ body)))

inductive Address
  | ipv4 (a : UInt32)
  | ipv6 (a : List.Vector UInt8 16)

namespace Address

def value (tid : TransactionId) (port : UInt16) : Address → Bytes
  | .ipv4 a => [0,0x01] ++ (write16 (port ^^^ 0x2112) ++ write32 (a ^^^ kStunMagicCookie))
  | .ipv6 a => [0,0x02] ++ (write16 (port ^^^ 0x2112) ++ xorAddress tid a.toList)

def text (ntop : InetNtop) : Address → Option String
  | .ipv4 a => ntop.v4 a
  | .ipv6 a => ntop.v6 a.toList

def isIpv6 : Address → Bool
  | .ipv4 _ => false
  | .ipv6 _ => true

end Address

lemma xorAddress_xorAddress (a : List.Vector UInt8 16) :
    xorAddress tid (xorAddress tid a.toList) = a.toList := by
  have hxor (as ks : Bytes) (h : as.length = ks.length) :
      zipWith (· ^^^ ·) (zipWith (· ^^^ ·) as ks) ks = as := by
    induction as generalizing ks with
    | nil => rfl
    | cons a as ih =>
      obtain ⟨k,ks,rfl⟩ := exists_cons_of_length_eq_add_one h.symm
      simp only [zipWith_cons_cons,UInt8.xor_assoc,UInt8.xor_self,UInt8.xor_zero,ih ks (by simpa using h)]
  exact hxor _ _ (by simp)

lemma port_value (a : Address) (port : UInt16) :
    read16 ((a.value tid port).getD 2 0) ((a.value tid port).getD (2+1) 0) ^^^
      (kStunMagicCookie >>> 16).toUInt16 = port := by
  have hport : read16 ((port ^^^ 0x2112) >>> 8).toUInt8 ((port ^^^ 0x2112) &&& 0xFF).toUInt8 ^^^
      (kStunMagicCookie >>> 16).toUInt16 = port := by
    rw [read16_write16,UInt16.xor_assoc]
    exact UInt16.xor_zero
  cases a with
  | ipv4 a => exact hport
  | ipv6 a => exact hport

lemma readAddress_value (a : Address) (port : UInt16) (mapped : MappedAddress) :
    readAddress ntop tid kAttrXorMappedAddress (a.value tid port) mapped =
      pure ({ mapped with port, isIpv6 := a.isIpv6 }.setIp (a.text ntop)) := by
  have hunmask {α : Type} (masked plain : α) : unmask kAttrXorMappedAddress masked plain = masked :=
    if_pos rfl
  cases a with
  | ipv4 a =>
    have hlen : ((Address.ipv4 a).value tid port).length = 8 := by simp [Address.value,write16]
    have hfamily : ((Address.ipv4 a).value tid port).getD 1 0 = 0x01 := rfl
    have haddr : read32 (((Address.ipv4 a).value tid port).getD 4 0)
        (((Address.ipv4 a).value tid port).getD (4+1) 0) (((Address.ipv4 a).value tid port).getD (4+2) 0)
        (((Address.ipv4 a).value tid port).getD (4+3) 0) = a ^^^ kStunMagicCookie :=
      write32_injective (write32_read32 _ _ _ _)
    rw [readAddress,if_pos (by omega),element,if_pos (by omega),pure_bind,word16_eq (by omega),pure_bind,
      if_pos hfamily,word32_eq (by omega),pure_bind,hunmask,hunmask,port_value,haddr,UInt32.xor_assoc,
      UInt32.xor_self,UInt32.xor_zero]
    rfl
  | ipv6 a =>
    have hlen : ((Address.ipv6 a).value tid port).length = 20 := by
      simp [Address.value,write16,xorAddress]
    have hfamily : ((Address.ipv6 a).value tid port).getD 1 0 = 0x02 := rfl
    have haddr : (((Address.ipv6 a).value tid port).drop 4).take 16 = xorAddress tid a.toList :=
      take_of_length_le (by simp [hlen])
    rw [readAddress,if_pos (by omega),element,if_pos (by omega),pure_bind,word16_eq (by omega),pure_bind,
      hfamily,if_neg (by decide),if_pos rfl,if_pos (by omega),slice_eq (by omega),pure_bind,hunmask,
      hunmask,port_value,haddr,xorAddress_xorAddress]
    rfl

lemma Attribute.length_bytes (a : Attribute) :
    a.bytes.length = 4+a.value.length+(4-a.value.length % 4) % 4 := by
  simp only [bytes,write16,length_append,length_cons,length_nil,a.padded]
  omega

lemma run_attributes_bytes {a : Attribute}
    (hholds : Holds data offset a.bytes) (hshort : a.value.length < 2^16) (halign : offset % 4 = 0)
    (hread : readAttribute ntop tid a.type a.value mapped = pure mapped') :
    (attributes ntop tid data data.length (fuel+1) mapped).run offset =
      (attributes ntop tid data data.length fuel mapped').run (offset+a.bytes.length) := by
  have hle := hholds.le
  have hbytes := a.length_bytes
  have htype : read16 (data.getD offset 0) (data.getD (offset+1) 0) = a.type := by
    have hfirst : data.getD offset 0 = a.bytes.getD 0 0 := hholds.getD (i := 0) (by omega) 0
    rw [hfirst,hholds.getD (by omega)]
    exact read16_write16 a.type
  have hlen : read16 (data.getD (offset+2) 0) (data.getD (offset+3) 0) =
      UInt16.ofNat a.value.length := by
    rw [hholds.getD (by omega),hholds.getD (by omega)]
    exact read16_write16 (UInt16.ofNat a.value.length)
  have hnat : (UInt16.ofNat a.value.length).toNat = a.value.length := UInt16.toNat_ofNat_of_lt' hshort
  have hvalue : (data.drop (offset+4)).take a.value.length = a.value := hholds.right.right.left.take
  rw [run_attributes mapped mapped' (by omega) htype hlen (by rw [hnat,hvalue,hread]),hnat,
    if_neg (by omega),hbytes,
    show (offset+4+a.value.length+3)/4*4 = offset+(4+a.value.length+(4-a.value.length % 4) % 4) by omega]

variable {attrs : List Attribute}

lemma run_attributes_skip
    (hother : ∀ a ∈ attrs, a.type ≠ kAttrXorMappedAddress ∧ a.type ≠ kAttrMappedAddress)
    (hshort : ∀ a ∈ attrs, a.value.length < 2^16) (hholds : Holds data offset (attrs.flatMap Attribute.bytes))
    (halign : offset % 4 = 0) :
    (attributes ntop tid data data.length (fuel+attrs.length) mapped).run offset =
      (attributes ntop tid data data.length fuel mapped).run
        (offset+(attrs.flatMap Attribute.bytes).length) := by
  induction attrs generalizing offset with
  | nil => rfl
  | cons a attrs ih =>
    obtain ⟨ha,hother⟩ := forall_mem_cons.mp hother
    obtain ⟨hashort,hshort⟩ := forall_mem_cons.mp hshort
    rw [flatMap_cons] at hholds ⊢
    have hread : readAttribute ntop tid a.type a.value mapped = pure mapped := if_neg (by tauto)
    have hbytes := a.length_bytes
    rw [length_cons,← Nat.add_assoc,run_attributes_bytes hholds.left hashort halign hread,
      ih hother hshort hholds.right (by omega),length_append,Nat.add_assoc]

lemma length_flatMap_bytes (attrs : List Attribute) :
    attrs.length ≤ (attrs.flatMap Attribute.bytes).length ∧
      (attrs.flatMap Attribute.bytes).length % 4 = 0 := by
  induction attrs with
  | nil => exact ⟨Nat.zero_le _,rfl⟩
  | cons a attrs ih =>
    have hbytes := a.length_bytes
    rw [flatMap_cons,length_append,length_cons]
    omega

lemma value_length_le (h : a ∈ attrs) :
    a.value.length ≤ (attrs.flatMap Attribute.bytes).length := by
  have hle := (sublist_flatten_of_mem (mem_map_of_mem (f := Attribute.bytes) h)).length_le
  rw [← flatMap_def,a.length_bytes] at hle
  omega

lemma length_response (tid : TransactionId) (attrs : List Attribute) :
    (response tid attrs).length = 20+(attrs.flatMap Attribute.bytes).length := by
  simp only [response,write16,length_append,length_cons,length_nil,length_write32,tid.toList_length]
  omega

lemma holds_response (tid : TransactionId) (attrs : List Attribute) :
    Holds (response tid attrs) 20 (attrs.flatMap Attribute.bytes) := by
  let head := write16 kStunBindingResponse ++ (write16 (UInt16.ofNat (attrs.flatMap Attribute.bytes).length) ++
    (write32 kStunMagicCookie ++ tid.toList))
  refine ⟨head,[],?_,?_⟩
  · simp only [response,head,append_assoc,append_nil]
  · simp [head,write16]

lemma run'_parseResponse_response (hle : (attrs.flatMap Attribute.bytes).length ≤ 65535)
    (hrun : (attributes ntop tid (response tid attrs) (response tid attrs).length fuel {}).run 20 = .ok (m,q)) :
    (parseResponse ntop tid (response tid attrs) fuel).run' 0 =
      .ok (if m.ip ≠ "" ∧ m.port ≠ 0 then some m else none) := by
  have hnat : (UInt16.ofNat (attrs.flatMap Attribute.bytes).length).toNat = _ :=
    UInt16.toNat_ofNat_of_lt' (Nat.lt_succ_of_le hle)
  have hlen := length_response tid attrs
  rw [← hnat] at hlen
  refine run'_parseResponse (by omega) (.inl (read16_write16 kStunBindingResponse))
    (write32_injective (write32_read32 _ _ _ _)) (take_left' tid.toList_length)
    (read16_write16 (UInt16.ofNat (attrs.flatMap Attribute.bytes).length)) (q := q) ?_
  rw [← hlen]
  exact hrun

/-- The address of a response comes back, and on no bytes at all does the reader run on or look outside
of them. -/
theorem parseResponse_sound (ntop : InetNtop)
    (hntop : ∀ a : Address, ∃ text, a.text ntop = some text ∧ text ≠ "") :
    (∀ (tid : TransactionId) (before after : List Attribute) (x : Attribute) (a : Address)
      (port : UInt16) (fuel : ℕ), x.type = kAttrXorMappedAddress → x.value = a.value tid port → port ≠ 0 →
      (∀ other ∈ before ++ after,
        other.type ≠ kAttrXorMappedAddress ∧ other.type ≠ kAttrMappedAddress) →
      ((before ++ x::after).flatMap Attribute.bytes).length ≤ 65535 →
      (response tid (before ++ x::after)).length < fuel →
      ∃ text, a.text ntop = some text ∧
        (parseResponse ntop tid (response tid (before ++ x::after)) fuel).run' 0 =
          .ok (some { ip := text, port, isIpv6 := a.isIpv6 })) ∧
    ∀ (tid : TransactionId) (data : Bytes) (fuel : ℕ), data.length < fuel →
      ∃ r, (parseResponse ntop tid data fuel).run' 0 = .ok r := by
  refine ⟨?_,fun tid data fuel hfuel => exists_parseResponse ntop tid data hfuel⟩
  intro tid before after x a port fuel hxor hvalue hport hother htotal hfuel
  obtain ⟨text,htext,hne⟩ := hntop a
  refine ⟨text,htext,?_⟩
  have hlength := length_response tid (before ++ x::after)
  have hshort : ∀ other ∈ before ++ x::after, other.value.length < 2^16 := fun other h =>
    (value_length_le h).trans_lt (Nat.lt_succ_of_le htotal)
  have hfew := (length_flatMap_bytes (before ++ x::after)).1
  obtain ⟨k,rfl⟩ : ∃ k, fuel = k+1+after.length+1+before.length := by
    refine ⟨fuel-(2+after.length+before.length),?_⟩
    simp only [length_append,length_cons] at hfew
    omega
  have hholds := holds_response tid (before ++ x::after)
  rw [flatMap_append,flatMap_cons] at hholds
  have hread : readAttribute ntop tid x.type x.value {} =
      pure { ip := text, port, isIpv6 := a.isIpv6 } := by
    rw [readAttribute,hxor,if_pos (.inl rfl),hvalue,readAddress_value,htext]
    rfl
  have hbefore := (length_flatMap_bytes before).2
  have hx := x.length_bytes
  obtain ⟨q,hrun⟩ : ∃ q, (attributes ntop tid (response tid (before ++ x::after))
      (response tid (before ++ x::after)).length (k+1+after.length+1+before.length) {}).run 20 =
        .ok ({ ip := text, port, isIpv6 := a.isIpv6 },q) := by
    rw [run_attributes_skip (fun other h => hother other (mem_append_left _ h))
        (fun other h => hshort other (mem_append_left _ h)) hholds.left rfl,
      run_attributes_bytes hholds.right.left (hshort x (by simp)) (by omega) hread,
      run_attributes_skip (fun other h => hother other (mem_append_right _ h))
        (fun other h => hshort other (by simp [h])) hholds.right.right (by omega)]
    simp only [hlength,flatMap_append,flatMap_cons,length_append]
    exact ⟨_,run_attributes_end _ (by omega)⟩
  rw [run'_parseResponse_response htotal hrun,if_pos ⟨hne,hport⟩]

def xorMapped (tid : TransactionId) (a : UInt32) (port : UInt16) : Attribute where
  type := kAttrXorMappedAddress
  value := (Address.ipv4 a).value tid port
  padding := []
  padded := by simp [Address.value,write16]

def dotted (a : UInt32) : String :=
  (a >>> 24).toNat.repr ++ "." ++ (a >>> 16 &&& 255).toNat.repr ++ "." ++
    (a >>> 8 &&& 255).toNat.repr ++ "." ++ (a &&& 255).toNat.repr

def dottedNtop : InetNtop := ⟨fun a => some (dotted a),fun _ => some "::1"⟩

theorem parseResponse_local_host :
    (parseResponse dottedNtop (List.Vector.replicate 12 7)
      (response (List.Vector.replicate 12 7) [xorMapped (List.Vector.replicate 12 7) 0x7F000001 4000])
      64).run' 0 = .ok (some { ip := "127.0.0.1", port := 4000, isIpv6 := false }) := by
  have hntop (a : Address) : ∃ text, a.text dottedNtop = some text ∧ text ≠ "" := by
    cases a with
    | ipv4 a =>
      refine ⟨dotted a,rfl,fun h => ?_⟩
      simpa [dotted] using congrArg String.length h
    | ipv6 a => exact ⟨_,rfl,by decide⟩
  obtain ⟨text,htext,hrun⟩ := (parseResponse_sound _ hntop).1 (List.Vector.replicate 12 7) [] []
    (xorMapped (List.Vector.replicate 12 7) 0x7F000001 4000) (.ipv4 0x7F000001) 4000 64 rfl rfl (by decide)
    (by simp) (by decide) (by decide)
  cases htext
  exact hrun

end SmoFramework.Network.Stun
