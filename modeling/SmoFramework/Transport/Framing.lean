import SmoFramework.Errors
import SmoFramework.Library.LittleEndian

/-! The frames of `framing.cpp`: a packed header of eleven bytes, in the order of a little-endian
machine, in front of a payload. -/
namespace SmoFramework.Transport.Framing
open Library Library.LittleEndian List

structure FrameHeader where
  magic : UInt32 := 0x534D4F01
  payloadLen : UInt32 := 0
  flags : UInt8 := 0
  channelId : UInt16 := 0
deriving DecidableEq

/-- `sizeof(FrameHeader)`. -/
def headerSize : ℕ := 11

def kFrameFlagChannel : UInt8 := 0x04

namespace FrameHeader

def bytes (hdr : FrameHeader) : Bytes :=
  put32 hdr.magic ++ (put32 hdr.payloadLen ++ (hdr.flags::put16 hdr.channelId))

def ofBytes (buf : Bytes) : FrameHeader where
  magic := get32 (buf.take 4)
  payloadLen := get32 ((buf.drop 4).take 4)
  flags := buf.getD 8 0
  channelId := get16 (buf.drop 9)

lemma length_bytes (hdr : FrameHeader) : hdr.bytes.length = headerSize := by
  simp [bytes,put16,BigEndian.write16,headerSize]

lemma ofBytes_bytes_append (hdr : FrameHeader) (rest : Bytes) :
    ofBytes (hdr.bytes ++ rest) = hdr := by
  have htail : (hdr.bytes ++ rest).drop 4 =
      put32 hdr.payloadLen ++ (hdr.flags::put16 hdr.channelId ++ rest) := by
    simp only [bytes,append_assoc]
    exact drop_left' (length_put32 _)
  have hlast : (hdr.bytes ++ rest).drop 8 = hdr.flags::put16 hdr.channelId ++ rest := by
    rw [show 8 = 4+4 from rfl,← drop_drop,htail]
    exact drop_left' (length_put32 _)
  have hmagic : get32 ((hdr.bytes ++ rest).take 4) = hdr.magic := by
    simp only [bytes,append_assoc]
    rw [take_left' (length_put32 _),get32_put32]
  have hlen : get32 (((hdr.bytes ++ rest).drop 4).take 4) = hdr.payloadLen := by
    rw [htail,take_left' (length_put32 _),get32_put32]
  have hflags : (hdr.bytes ++ rest).getD 8 0 = hdr.flags := by
    rw [getD_eq_getElem?_getD,← head?_drop,hlast]
    rfl
  have hchannel : get16 ((hdr.bytes ++ rest).drop 9) = hdr.channelId := by
    rw [show 9 = 8+1 from rfl,← drop_drop,hlast]
    exact BigEndian.read16_write16 hdr.channelId
  rw [ofBytes,hmagic,hlen,hflags,hchannel]

end FrameHeader

abbrev Out := FrameHeader × Bytes

def frameHeader (payload : Bytes) (flags : UInt8) (channelId : UInt16) : FrameHeader where
  payloadLen := UInt32.ofNat payload.length
  flags := if channelId ≠ 0 then flags ||| kFrameFlagChannel else flags
  channelId := channelId

def frameWrite (payload : Bytes) (flags : UInt8) (channelId : UInt16) : Bytes :=
  (frameHeader payload flags channelId).bytes ++ payload

/-- A call that returns 0 leaves what it would fill in alone. -/
def frameRead (buf : Bytes) (out : Out) : ℕ × Out :=
  if buf.length < headerSize then (0,out)
  else
    let hdr := FrameHeader.ofBytes buf
    if hdr.magic ≠ 0x534D4F01 then (0,out)
    else
      let total := headerSize+hdr.payloadLen.toNat
      if buf.length < total then (0,out)
      else (total,(hdr,(buf.drop headerSize).take hdr.payloadLen.toNat))

/-- Calls behind each other until one returns 0: what each has filled in, and the bytes of the last
one. -/
def readFrames : ℕ → Bytes → Out → List Out × Option Bytes
  | 0,_,_ => ([],none)
  | fuel+1,buf,out =>
    let (n,out) := frameRead buf out
    if n = 0 then ([],some buf)
    else
      let (more,rest) := readFrames fuel (buf.drop n) out
      (out::more,rest)

/-- A frame whose length fits into its field. -/
structure Frame where
  payload : Bytes
  flags : UInt8
  channelId : UInt16
  short : payload.length < 2^32

namespace Frame
variable (f : Frame)

def header : FrameHeader := frameHeader f.payload f.flags f.channelId

def wire : Bytes := frameWrite f.payload f.flags f.channelId

lemma toNat_payloadLen : f.header.payloadLen.toNat = f.payload.length :=
  UInt32.toNat_ofNat_of_lt' f.short

lemma length_wire : f.wire.length = headerSize+f.payload.length := by
  rw [wire,frameWrite,length_append,FrameHeader.length_bytes]

lemma frameRead_wire (rest : Bytes) (out : Out) :
    frameRead (f.wire ++ rest) out = (f.wire.length,(f.header,f.payload)) := by
  have hheader : FrameHeader.ofBytes (f.wire ++ rest) = f.header := by
    rw [wire,frameWrite,append_assoc]
    exact FrameHeader.ofBytes_bytes_append _ _
  have hpayload : ((f.wire ++ rest).drop headerSize).take f.payload.length = f.payload := by
    rw [wire,frameWrite,append_assoc,drop_left' (FrameHeader.length_bytes _)]
    exact take_left
  have hlen : (f.wire ++ rest).length = headerSize+f.payload.length+rest.length := by
    rw [length_append,length_wire]
  have hmagic : ¬f.header.magic ≠ 0x534D4F01 := not_not.mpr rfl
  unfold frameRead
  simp only [hheader,toNat_payloadLen,hpayload]
  rw [if_neg (by omega),if_neg hmagic,if_neg (by omega),length_wire]

lemma frameRead_part {part : Bytes} (hpart : part <+: f.wire) (hcut : part ≠ f.wire) (out : Out) :
    frameRead part out = (0,out) := by
  have hlt : part.length < f.wire.length :=
    lt_of_le_of_ne hpart.length_le fun heq => hcut (hpart.eq_of_length heq)
  rw [length_wire] at hlt
  unfold frameRead
  dsimp only
  split_ifs with hshort hmagic htotal
  · rfl
  · rfl
  · rfl
  · -- the header is complete, so it says how long the whole frame is
    obtain ⟨body,hbody⟩ : f.header.bytes <+: part :=
      prefix_of_prefix_length_le ⟨f.payload,rfl⟩ hpart
        (by rw [FrameHeader.length_bytes]; omega)
    rw [← hbody,FrameHeader.ofBytes_bytes_append,hbody,toNat_payloadLen] at htotal
    omega

end Frame

/-- The frames of a stream that is cut inside its next frame come back in order, and the call behind
them returns 0. -/
theorem readFrames_written (frames : List Frame) (next : Frame) (part : Bytes) {fuel : ℕ} (out : Out)
    (hpart : part <+: next.wire) (hcut : part ≠ next.wire) (hfuel : frames.length < fuel) :
    readFrames fuel (frames.flatMap Frame.wire ++ part) out =
        (frames.map fun f => (f.header,f.payload),some part) ∧
      ∀ out, (frameRead part out).1 = 0 := by
  refine ⟨?_,fun out => by rw [next.frameRead_part hpart hcut]⟩
  induction frames generalizing fuel out with
  | nil =>
    obtain ⟨fuel,rfl⟩ : ∃ k, fuel = k+1 := ⟨fuel-1,by omega⟩
    rw [flatMap_nil,nil_append,readFrames,next.frameRead_part hpart hcut]
    rfl
  | cons f frames ih =>
    obtain ⟨fuel,rfl⟩ : ∃ k, fuel = k+1 := ⟨fuel-1,by omega⟩
    have hpos : f.wire.length ≠ 0 := by
      rw [f.length_wire,headerSize]
      omega
    rw [flatMap_cons,append_assoc,readFrames,f.frameRead_wire]
    simp only [if_neg hpos,drop_left]
    rw [ih _ (Nat.lt_of_succ_lt_succ hfuel)]
    rfl

theorem readFrames_written_one :
    readFrames 2 (frameWrite [7] 0 3 ++ [0x01]) ({},[]) = ([(⟨0x534D4F01,1,4,3⟩,[7])],some [0x01]) := by
  have hread := readFrames_written [⟨[7],0,3,by decide⟩] ⟨[7],0,3,by decide⟩ [0x01] ({},[]) (by decide)
    (by decide) (Nat.lt_succ_self 1)
  exact hread.1

end SmoFramework.Transport.Framing
