import SmoFramework.Library.BigEndian
import SmoFramework.Library.Reader

/-! Readers of parts with a four-byte length in front of them, and of big-endian words that take what is
left when the input ends inside a word. -/
namespace SmoFramework.Library.Reader
open BigEndian List
variable {β ε α : Type}

def sized (length : Reader UInt8 ε UInt32) (e : ε) : Reader UInt8 ε (List UInt8) := do
  let len ← length
  let part ← vector len.toNat e
  pure part.toList

variable {length : Reader UInt8 ε UInt32}

lemma run_sized_eq_ok {write : UInt32 → List UInt8}
    (h : ∀ v data rest, length.run data = .ok (v,rest) ↔ data = write v ++ rest)
    : (sized length e).run data = .ok (part,rest) ↔
      part.length < 2^32 ∧ data = write (UInt32.ofNat part.length) ++ (part ++ rest) := by
  simp only [sized,run_bind_eq_ok,h,run_vector_eq_ok,run_pure_eq_ok]
  constructor
  · rintro ⟨len,_,rfl,v,_,rfl,rfl,rfl⟩
    have hlen : v.toList.length = len.toNat := v.toList_length
    exact ⟨hlen.trans_lt len.toNat_lt,by rw [hlen,UInt32.ofNat_toNat]⟩
  · rintro ⟨hlen,rfl⟩
    have hv : (UInt32.ofNat part.length).toNat = part.length := UInt32.toNat_ofNat_of_lt' hlen
    exact ⟨_,_,rfl,⟨part,hv.symm⟩,rest,rfl,rfl,rfl⟩

lemma Stable.sized (h : Stable length) (e : ε) :
    Stable (sized length e) := h.bind fun _ => (Stable.vector _ e).bind fun _ => .pure _

def need (n : ℕ) (e : ε) : Reader β ε Unit :=
  fun data => if data.length < n then .error e else .ok ((),data)

lemma Reads.need (e : ε) (hn : n ≤ word.length)
    (h : Reads r word a) : Reads (need n e >>= fun _ => r) word a := by
  intro rest
  have hleft : ¬(word ++ rest).length < n := by
    rw [length_append]
    omega
  rw [StateT.run_bind]
  change ((if _ then Except.error e else Except.ok ((),word ++ rest)) >>= _) = _
  rw [if_neg hleft]
  exact h rest

def word64 : Reader UInt8 ε UInt64 := fun data => .ok (read64 (data.take 8),data.drop 8)

def word32 : Reader UInt8 ε UInt32 :=
  fun data => .ok ((data.take 4).foldl shiftIn32 0,data.drop 4)

lemma Reads.word64 (v : UInt64) : Reads (word64 : Reader UInt8 ε UInt64) (write64 v) v := by
  intro rest
  have hlen := length_write64 v
  change Except.ok (read64 ((write64 v ++ rest).take 8),(write64 v ++ rest).drop 8) = _
  rw [take_left' hlen,drop_left' hlen,read64_write64]

lemma Reads.word32 (v : UInt32) : Reads (word32 : Reader UInt8 ε UInt32) (write32 v) v := by
  intro rest
  have hlen := length_write32 v
  change Except.ok (((write32 v ++ rest).take 4).foldl shiftIn32 0,(write32 v ++ rest).drop 4) = _
  rw [take_left' hlen,drop_left' hlen,foldl_shiftIn32_write32]

/-- A length in front of the bytes, cut to four bytes. -/
def frame (part : List UInt8) : List UInt8 := toBE 4 part.length ++ part

lemma length_frame (part : List UInt8) : (frame part).length = 4+part.length := by
  rw [frame,length_append,length_toBE]

variable {ι : Type*}

lemma length_le_frames (write : ι → List UInt8) {xs : List ι} {x : ι} (h : x ∈ xs) :
    (write x).length ≤ (xs.flatMap fun x => frame (write x)).length := by
  have hmem : frame (write x) ∈ xs.map fun x => frame (write x) := mem_map_of_mem h
  have hle := (sublist_flatten_of_mem hmem).length_le
  rw [← flatMap_def,length_frame] at hle
  omega

lemma count_le_frames (write : ι → List UInt8) (xs : List ι) :
    xs.length ≤ (xs.flatMap fun x => frame (write x)).length := by
  induction xs with
  | nil => exact Nat.zero_le _
  | cons x xs ih =>
    rw [flatMap_cons,length_append,length_frame,length_cons]
    omega

/-- The length of a part and the value of the part. -/
def framed (e : ε) (parse : List UInt8 → Except ε α) : Reader UInt8 ε α := do
  let len ← word32
  let part ← vector len.toNat e
  lift (parse part.toList)

/-- A number that fits four bytes is read back from them. -/
lemma Reads.count (ε : Type) (h : n < 2^32) :
    ∃ v : UInt32, v.toNat = n ∧ Reads (Reader.word32 : Reader UInt8 ε UInt32) (toBE 4 n) v := by
  have hv : (UInt32.ofNat n).toNat = n := UInt32.toNat_ofNat_of_lt' h
  refine ⟨UInt32.ofNat n,hv,?_⟩
  have hread : Reads (Reader.word32 : Reader UInt8 ε UInt32) _ _ := Reads.word32 (UInt32.ofNat n)
  rwa [write32_eq,hv] at hread

variable {part : List UInt8}

lemma Reads.framed (e : ε) {parse : List UInt8 → Except ε α}
    (hlen : part.length < 2^32) (h : parse part = .ok a) :
    Reads (framed e parse) (frame part) a := by
  obtain ⟨v,hv,hread⟩ := Reads.count ε hlen
  exact hread.bind ((Reads.part e hv.symm).bind_nil (Reads.lift h))

lemma Reads.sized (e : ε) (hlen : part.length < 2^32) :
    Reads (Reader.sized Reader.word32 e) (write32 (UInt32.ofNat part.length) ++ part) part := by
  have hv : (UInt32.ofNat part.length).toNat = part.length := UInt32.toNat_ofNat_of_lt' hlen
  exact (Reads.word32 _).bind (Reads.part e hv.symm).bind_pure

/-- The values of at most `n` readings; the first that fails ends them. -/
def untilError (r : Reader β ε α) : ℕ → List β → List α
  | 0, _ => []
  | n+1, data => match r.run data with
    | .error _ => []
    | .ok (a,rest) => a::untilError r n rest

lemma Reads.untilError {write : ι → List β} {value : ι → α}
    {xs : List ι} (h : ∀ x ∈ xs, Reads r (write x) (value x)) (rest : List β) :
    untilError r xs.length (xs.flatMap write ++ rest) = xs.map value := by
  induction xs with
  | nil => rfl
  | cons x xs ih =>
    obtain ⟨hx,hxs⟩ := forall_mem_cons.mp h
    rw [flatMap_cons,append_assoc,length_cons,Reader.untilError,hx]
    exact congrArg (value x::·) (ih hxs)

end SmoFramework.Library.Reader
