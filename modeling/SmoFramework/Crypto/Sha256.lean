import SmoFramework.Errors
import SmoFramework.Library.BigEndian
import SmoFramework.Library.BlockStream

/-! The streaming SHA-256 of `Sha256Provider`. Bytes go into a buffer of 64 bytes, which is compressed
each time it is full; what the buffer holds behind the bytes that wait is left over from before. -/
namespace SmoFramework.Crypto.Sha256
open Library Library.BigEndian BlockStream List

def K : List UInt32 := [
  0x428a2f98,0x71374491,0xb5c0fbcf,0xe9b5dba5,0x3956c25b,0x59f111f1,0x923f82a4,0xab1c5ed5,
  0xd807aa98,0x12835b01,0x243185be,0x550c7dc3,0x72be5d74,0x80deb1fe,0x9bdc06a7,0xc19bf174,
  0xe49b69c1,0xefbe4786,0x0fc19dc6,0x240ca1cc,0x2de92c6f,0x4a7484aa,0x5cb0a9dc,0x76f988da,
  0x983e5152,0xa831c66d,0xb00327c8,0xbf597fc7,0xc6e00bf3,0xd5a79147,0x06ca6351,0x14292967,
  0x27b70a85,0x2e1b2138,0x4d2c6dfc,0x53380d13,0x650a7354,0x766a0abb,0x81c2c92e,0x92722c85,
  0xa2bfe8a1,0xa81a664b,0xc24b8b70,0xc76c51a3,0xd192e819,0xd6990624,0xf40e3585,0x106aa070,
  0x19a4c116,0x1e376c08,0x2748774c,0x34b0bcb5,0x391c0cb3,0x4ed8aa4a,0x5b9cca4f,0x682e6ff3,
  0x748f82ee,0x78a5636f,0x84c87814,0x8cc70208,0x90befffa,0xa4506ceb,0xbef9a3f7,0xc67178f2]

def rotr (x n : UInt32) : UInt32 := (x >>> n) ||| (x <<< (32-n))

/-- The eight words of the state, and the variables `a` to `h` of the rounds. -/
structure Words where
  (a b c d e f g h : UInt32)
  deriving DecidableEq

/-- `w`: sixteen words of the buffer, and the others from those before them. -/
def schedule (block : Bytes) : List UInt32 :=
  (range' 16 48).foldl (fun w i =>
    let w15 := w.getD (i-15) 0
    let w2 := w.getD (i-2) 0
    let s0 := rotr w15 7 ^^^ rotr w15 18 ^^^ (w15 >>> 3)
    let s1 := rotr w2 17 ^^^ rotr w2 19 ^^^ (w2 >>> 10)
    w ++ [w.getD (i-16) 0+s0+w.getD (i-7) 0+s1])
    ((range 16).map fun i => read32 (block.getD (i*4) 0) (block.getD (i*4+1) 0)
      (block.getD (i*4+2) 0) (block.getD (i*4+3) 0))

def round (w : List UInt32) (v : Words) (i : ℕ) : Words :=
  let S1 := rotr v.e 6 ^^^ rotr v.e 11 ^^^ rotr v.e 25
  let ch := (v.e &&& v.f) ^^^ (~~~v.e &&& v.g)
  let temp1 := v.h+S1+ch+K.getD i 0+w.getD i 0
  let S0 := rotr v.a 2 ^^^ rotr v.a 13 ^^^ rotr v.a 22
  let maj := (v.a &&& v.b) ^^^ (v.a &&& v.c) ^^^ (v.b &&& v.c)
  let temp2 := S0+maj
  ⟨temp1+temp2,v.a,v.b,v.c,v.d+temp1,v.e,v.f,v.g⟩

/-- The state after a block. -/
def compressBlock (s : Words) (block : Bytes) : Words :=
  let v := (range 64).foldl (round (schedule block)) s
  ⟨s.a+v.a,s.b+v.b,s.c+v.c,s.d+v.d,s.e+v.e,s.f+v.f,s.g+v.g,s.h+v.h⟩

/-- `std::array<uint8_t, 64>`. -/
abbrev Buffer := { bytes : Bytes // bytes.length = 64 }

structure Context where
  state : Words
  buffer : Buffer
  totalBits : UInt64
  bufLen : ℕ

def iv : Words :=
  ⟨0x6a09e667,0xbb67ae85,0x3c6ef372,0xa54ff53a,0x510e527f,0x9b05688c,0x1f83d9ab,0x5be0cd19⟩

/-- The buffer is not set, so it holds anything. -/
def init (buffer : Buffer) : Context := ⟨iv,buffer,0,0⟩

def compress (ctx : Context) : Context := { ctx with state := compressBlock ctx.state ctx.buffer }

/-- `compress(ctx); buf_len = 0`. -/
def flush (ctx : Context) : Context := { compress ctx with bufLen := 0 }

/-- `buffer[buf_len++] = x`. -/
def push (ctx : Context) (x : UInt8) : Context :=
  { ctx with
    buffer := ⟨ctx.buffer.1.set ctx.bufLen x,by rw [length_set,ctx.buffer.2]⟩
    bufLen := ctx.bufLen+1 }

def updateByte (ctx : Context) (x : UInt8) : Context :=
  let ctx := push ctx x
  if ctx.bufLen = 64 then { flush ctx with totalBits := ctx.totalBits+512 } else ctx

def update (ctx : Context) (data : Bytes) : Context := data.foldl updateByte ctx

/-- `while (buf_len < n) buffer[buf_len++] = 0`. -/
def fill (n : ℕ) (ctx : Context) : Context := (replicate (n-ctx.bufLen) 0).foldl push ctx

/-- The eight bytes of the length, at the places 56 to 63. -/
def putLength (ctx : Context) : Context :=
  { ctx with buffer := ⟨ctx.buffer.1.take 56 ++ write64 ctx.totalBits,by simp [ctx.buffer.2]⟩ }

def output (s : Words) : Bytes := [s.a,s.b,s.c,s.d,s.e,s.f,s.g,s.h].flatMap write32

def finalize (ctx : Context) : Bytes :=
  let ctx := push { ctx with totalBits := ctx.totalBits+UInt64.ofNat ctx.bufLen*8 } 0x80
  let ctx := if ctx.bufLen > 56 then flush (fill 64 ctx) else ctx
  output (compress (putLength (fill 56 ctx))).state

def hash (buffer : Buffer) (data : Bytes) : Bytes := finalize (update (init buffer) data)

/-! The hash function, on whole messages. -/

/-- A one bit, zeros up to 56 bytes above a multiple of 64, and the number of bits in 64 bits. -/
def pad (m : Bytes) : Bytes :=
  m ++ (0x80::(replicate ((119-m.length % 64) % 64) 0 ++ write64 (UInt64.ofNat (8*m.length))))

def digest (m : Bytes) : Bytes :=
  output (absorb compressBlock 64 ((pad m).length/64) iv (pad m))

/-- The state, and the bytes that wait for the next block. -/
def Context.fed (ctx : Context) : Words × Bytes := (ctx.state,ctx.buffer.1.take ctx.bufLen)

/-- The context after the bytes of `m`. -/
structure Tracks (ctx : Context) (m : Bytes) : Prop where
  fed : ctx.fed = m.foldl (feed compressBlock 64) (iv,[])
  bufLen : ctx.bufLen = m.length % 64
  bits : ctx.totalBits = UInt64.ofNat (512*(m.length/64))

variable {ctx : Context} {m xs : Bytes}

lemma bufLen_push (ctx : Context) (x : UInt8) : (push ctx x).bufLen = ctx.bufLen+1 := rfl

lemma totalBits_push (ctx : Context) (x : UInt8) : (push ctx x).totalBits = ctx.totalBits := rfl

lemma bufLen_flush (ctx : Context) : (flush ctx).bufLen = 0 := rfl

lemma totalBits_mk (state : Words) (buffer : Buffer) (totalBits : UInt64) (bufLen : ℕ) :
    (Context.mk state buffer totalBits bufLen).totalBits = totalBits := rfl

-- not by unfolding: that would compare the two states
lemma totalBits_flush (ctx : Context) : (flush ctx).totalBits = ctx.totalBits :=
  (totalBits_mk _ _ (compress ctx).totalBits _).trans (totalBits_mk _ _ ctx.totalBits _)

lemma fed_flush (ctx : Context) : (flush ctx).fed = ((compress ctx).state,[]) := by
  simp [Context.fed,flush]

lemma length_waiting (h : ctx.bufLen < 64) : (ctx.buffer.1.take ctx.bufLen).length = ctx.bufLen := by
  rw [length_take,ctx.buffer.2,Nat.min_eq_left h.le]

lemma fed_push (ctx : Context) (x : UInt8) (h : ctx.bufLen < 64) :
    (push ctx x).fed = (ctx.state,ctx.buffer.1.take ctx.bufLen ++ [x]) := by
  simp only [Context.fed,push]
  rw [take_add_one,take_set_of_le le_rfl,getElem?_set_self (by rw [ctx.buffer.2]; exact h)]
  rfl

lemma foldl_push (h : ctx.bufLen+xs.length ≤ 64) :
    (xs.foldl push ctx).fed = (ctx.state,ctx.buffer.1.take ctx.bufLen ++ xs) ∧
      (xs.foldl push ctx).bufLen = ctx.bufLen+xs.length ∧
      (xs.foldl push ctx).totalBits = ctx.totalBits := by
  induction xs generalizing ctx with
  | nil => simp [Context.fed]
  | cons x xs ih =>
    rw [length_cons] at h
    have hone : (push ctx x).buffer.1.take (push ctx x).bufLen = _ :=
      congrArg Prod.snd (fed_push ctx x (by omega))
    obtain ⟨hfed,hlen,hbits⟩ := @ih (push ctx x) (by dsimp only [push]; omega)
    refine ⟨?_,?_,hbits⟩
    · rw [foldl_cons,hfed,hone,append_assoc]
      rfl
    · rw [foldl_cons,hlen,length_cons]
      dsimp only [push]
      omega

lemma compress_eq_feed {full : Context} (hlt : ctx.bufLen < 64) (hlen : ctx.bufLen+xs.length = 64)
    (hstate : full.state = ctx.state) (hbuf : full.buffer.1 = ctx.buffer.1.take ctx.bufLen ++ xs) :
    ((compress full).state,[]) = xs.foldl (feed compressBlock 64) ctx.fed := by
  have hwait := length_waiting hlt
  rw [Context.fed,foldl_feed_full (by omega) (by omega),compress,hstate,hbuf]

lemma buffer_foldl_push (hlen : ctx.bufLen+xs.length = 64) :
    (xs.foldl push ctx).state = ctx.state ∧
      (xs.foldl push ctx).buffer.1 = ctx.buffer.1.take ctx.bufLen ++ xs := by
  obtain ⟨hfed,hbuf,-⟩ := foldl_push (Nat.le_of_eq hlen)
  rw [Context.fed,hbuf,hlen,take_of_length_le (Nat.le_of_eq (xs.foldl push ctx).buffer.2)] at hfed
  exact Prod.mk.inj hfed

lemma Tracks.updateByte (h : Tracks ctx m) (x : UInt8) : Tracks (updateByte ctx x) (m ++ [x]) := by
  have hlt : ctx.bufLen < 64 := h.bufLen ▸ Nat.mod_lt _ (by decide)
  have hm := h.bufLen
  have hlast : (m ++ [x]).length = m.length+1 := length_append
  have hfold : (m ++ [x]).foldl (feed compressBlock 64) (iv,[]) =
      [x].foldl (feed compressBlock 64) ctx.fed := by rw [foldl_append,h.fed]
  unfold Sha256.updateByte
  dsimp only
  split_ifs with hfull
  · have hfull : ctx.bufLen+[x].length = 64 := hfull
    obtain ⟨hstate,hbuf⟩ := buffer_foldl_push hfull
    refine ⟨?_,?_,?_⟩
    · rw [hfold,← compress_eq_feed hlt hfull hstate hbuf]
      simp [Context.fed,flush,compress]
    · rw [length_singleton] at hfull
      dsimp only [flush]
      omega
    · dsimp only [push]
      rw [h.bits,hlast,show (512 : UInt64) = UInt64.ofNat 512 from rfl,← UInt64.ofNat_add]
      congr 1
      rw [length_singleton] at hfull
      omega
  · have hfull : ctx.bufLen+1 ≠ 64 := hfull
    refine ⟨?_,?_,?_⟩
    · rw [hfold,fed_push ctx x hlt,foldl_cons,foldl_nil,feed,Context.fed,
        if_neg (by rw [length_waiting hlt]; exact hfull)]
    · dsimp only [push]
      omega
    · dsimp only [push]
      rw [h.bits]
      congr 2
      omega

lemma Tracks.update (h : Tracks ctx m) (data : Bytes) : Tracks (update ctx data) (m ++ data) := by
  induction data generalizing ctx m with
  | nil => rwa [append_nil]
  | cons x data ih =>
    have hrest := ih (h.updateByte x)
    rw [append_assoc,singleton_append] at hrest
    exact hrest

lemma last_block (h : ctx.bufLen ≤ 56) : ((compress (putLength (fill 56 ctx))).state,[]) =
    (replicate (56-ctx.bufLen) 0 ++ write64 ctx.totalBits).foldl (feed compressBlock 64) ctx.fed := by
  have hroom : ctx.bufLen+(replicate (56-ctx.bufLen) (0 : UInt8)).length = 56 := by
    rw [length_replicate]
    omega
  obtain ⟨hfed,hlen,hbits⟩ := foldl_push (by rw [hroom]; decide)
  rw [Context.fed,hlen,hroom] at hfed
  obtain ⟨hstate,hbuf⟩ := Prod.mk.inj hfed
  refine compress_eq_feed (by omega) ?_ hstate ?_
  · rw [length_append,length_write64,← Nat.add_assoc,hroom]
  · rw [← append_assoc,← hbuf,← hbits]
    rfl

lemma finish_short (h : ctx.bufLen < 56) : ((compress (putLength (fill 56 (push ctx 0x80)))).state,[]) =
    (0x80::(replicate (55-ctx.bufLen) 0 ++ write64 ctx.totalBits)).foldl (feed compressBlock 64)
      ctx.fed := by
  have hone : (push ctx 0x80).fed = feed compressBlock 64 ctx.fed 0x80 := by
    have hlt : ctx.bufLen < 64 := by omega
    rw [fed_push ctx _ hlt,feed,Context.fed,if_neg (by rw [length_waiting hlt]; omega)]
  have hlast := @last_block (push ctx 0x80) h
  rw [bufLen_push,totalBits_push,hone,Nat.add_comm,← Nat.sub_sub] at hlast
  rw [foldl_cons]
  exact hlast

lemma finish_long (h : 56 ≤ ctx.bufLen) (hlt : ctx.bufLen < 64) :
    ((compress (putLength (fill 56 (flush (fill 64 (push ctx 0x80)))))).state,[]) =
      (0x80::(replicate (119-ctx.bufLen) 0 ++ write64 ctx.totalBits)).foldl (feed compressBlock 64)
        ctx.fed := by
  have hfull : ctx.bufLen+(0x80::replicate (63-ctx.bufLen) (0 : UInt8)).length = 64 := by
    rw [length_cons,length_replicate]
    omega
  obtain ⟨hstate,hbuf⟩ := buffer_foldl_push hfull
  have htotal := (foldl_push (Nat.le_of_eq hfull)).2.2
  have hfill : fill 64 (push ctx 0x80) = (0x80::replicate (63-ctx.bufLen) 0).foldl push ctx := by
    rw [fill,bufLen_push,foldl_cons,Nat.add_comm,← Nat.sub_sub]
  rw [hfill]
  generalize (0x80::replicate (63-ctx.bufLen) 0).foldl push ctx = full at hstate hbuf htotal ⊢
  have hfed := compress_eq_feed hlt hfull hstate hbuf
  rw [← fed_flush] at hfed
  have hlast := @last_block (flush full) (Nat.zero_le _)
  rw [hfed,bufLen_flush,totalBits_flush,htotal,← foldl_append] at hlast
  rw [hlast,cons_append,show 119-ctx.bufLen = 63-ctx.bufLen+(56-0) by omega,replicate_add,append_assoc]

/-- The padding is fed like the message. -/
theorem Tracks.finalize (h : Tracks ctx m) : finalize ctx = digest m := by
  have hlt : ctx.bufLen < 64 := h.bufLen ▸ Nat.mod_lt _ (by decide)
  have hm := h.bufLen
  have hbits : ctx.totalBits+UInt64.ofNat ctx.bufLen*8 = UInt64.ofNat (8*m.length) := by
    rw [h.bits,hm,show (8 : UInt64) = UInt64.ofNat 8 from rfl,← UInt64.ofNat_mul,← UInt64.ofNat_add]
    congr 1
    omega
  rw [digest,absorb_eq_foldl_feed (by decide),pad,foldl_append,← h.fed]
  unfold Sha256.finalize
  rw [hbits]
  generalize hfirst : ({ ctx with totalBits := UInt64.ofNat (8*m.length) } : Context) = first
  have hfed : ctx.fed = first.fed := by rw [← hfirst]; rfl
  have hlen : first.bufLen = ctx.bufLen := by rw [← hfirst]
  have hlength : first.totalBits = UInt64.ofNat (8*m.length) := by rw [← hfirst]
  rw [hfed,← hlength]
  dsimp only
  rw [bufLen_push]
  split_ifs with hover
  · rw [show (119-m.length % 64) % 64 = 119-first.bufLen by omega,
      ← finish_long (by omega) (by omega)]
  · rw [show (119-m.length % 64) % 64 = 55-first.bufLen by omega,← finish_short (by omega)]

theorem finalize_updates (buffer : Buffer) (parts : List Bytes) :
    finalize (parts.foldl update (init buffer)) = digest parts.flatten := by
  suffices ∀ ctx m, Tracks ctx m → Tracks (parts.foldl update ctx) (m ++ parts.flatten) from
    (this _ [] ⟨by simp [Context.fed,init],rfl,rfl⟩).finalize
  induction parts with
  | nil => intro ctx m h; simpa using h
  | cons data parts ih =>
    intro ctx m h
    rw [foldl_cons,flatten_cons,← append_assoc]
    exact ih _ _ (h.update data)

example : digest (literal "abc") = [
    0xba,0x78,0x16,0xbf,0x8f,0x01,0xcf,0xea,0x41,0x41,0x40,0xde,0x5d,0xae,0x22,0x23,
    0xb0,0x03,0x61,0xa3,0x96,0x17,0x7a,0x9c,0xb4,0x10,0xff,0x61,0xf2,0x00,0x15,0xad] := by
  decide +kernel

end SmoFramework.Crypto.Sha256
