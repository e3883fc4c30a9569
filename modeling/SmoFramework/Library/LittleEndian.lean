import SmoFramework.Library.WordReader

/-! Words with their lowest byte first: the big-endian words read backwards. -/
namespace SmoFramework.Library.LittleEndian
open BigEndian Reader List
variable {ε : Type}

def put64 (v : UInt64) : List UInt8 := (write64 v).reverse

def put32 (v : UInt32) : List UInt8 := (write32 v).reverse

def put16 (v : UInt16) : List UInt8 := (write16 v).reverse

def get64 (bs : List UInt8) : UInt64 := read64 bs.reverse

def get32 (bs : List UInt8) : UInt32 := bs.reverse.foldl shiftIn32 0

def get16 (bs : List UInt8) : UInt16 := read16 (bs.getD 1 0) (bs.getD 0 0)

@[simp] lemma length_put64 (v : UInt64) : (put64 v).length = 8 := by
  rw [put64,length_reverse,length_write64]

@[simp] lemma length_put32 (v : UInt32) : (put32 v).length = 4 := by
  rw [put32,length_reverse,length_write32]

lemma get64_put64 (v : UInt64) : get64 (put64 v) = v := by
  rw [get64,put64,reverse_reverse,read64_write64]

lemma get32_put32 (v : UInt32) : get32 (put32 v) = v := by
  rw [get32,put32,reverse_reverse,foldl_shiftIn32_write32]

lemma put32_inj : put32 v = put32 w ↔ v = w :=
  (Function.LeftInverse.injective get32_put32).eq_iff

lemma put64_get64 (h : bs.length = 8) : put64 (get64 bs) = bs := by
  rw [put64,get64,write64_read64 (by rwa [length_reverse]),reverse_reverse]

lemma put32_get32 (h : bs.length = 4) : put32 (get32 bs) = bs := by
  rw [put32,get32,write32_foldl_shiftIn32 (by rwa [length_reverse]),reverse_reverse]

/-! Readers that fail where the input ends inside a word. -/

def word64 (e : ε) : Reader UInt8 ε UInt64 := do
  let bytes ← Reader.vector 8 e
  pure (get64 bytes.toList)

def word32 (e : ε) : Reader UInt8 ε UInt32 := do
  let bytes ← Reader.vector 4 e
  pure (get32 bytes.toList)

lemma run_word64_eq_ok :
    (word64 e).run data = .ok (v,rest) ↔ data = put64 v ++ rest := by
  simp only [word64,run_bind_eq_ok,run_vector_eq_ok,run_pure_eq_ok]
  constructor
  · rintro ⟨bytes,mid,rfl,rfl,rfl⟩
    rw [put64_get64 bytes.toList_length]
  · rintro rfl
    exact ⟨⟨put64 v,length_put64 v⟩,rest,rfl,get64_put64 v,rfl⟩

lemma run_word32_eq_ok :
    (word32 e).run data = .ok (v,rest) ↔ data = put32 v ++ rest := by
  simp only [word32,run_bind_eq_ok,run_vector_eq_ok,run_pure_eq_ok]
  constructor
  · rintro ⟨bytes,mid,rfl,rfl,rfl⟩
    rw [put32_get32 bytes.toList_length]
  · rintro rfl
    exact ⟨⟨put32 v,length_put32 v⟩,rest,rfl,get32_put32 v,rfl⟩

/-- A part with its length in front of it. -/
def part (length data : ε) : Reader UInt8 ε (List UInt8) := Reader.sized (word32 length) data

lemma run_part_eq_ok {length data : ε} {bytes input rest : List UInt8} :
    (part length data).run input = .ok (bytes,rest) ↔
      bytes.length < 2^32 ∧ input = put32 (UInt32.ofNat bytes.length) ++ (bytes ++ rest) :=
  run_sized_eq_ok fun _ _ _ => run_word32_eq_ok

lemma reads_word32 (e : ε) (v : UInt32) : Reader.Reads (word32 e) (put32 v) v :=
  fun _ => run_word32_eq_ok.mpr rfl

end SmoFramework.Library.LittleEndian
