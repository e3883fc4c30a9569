import SmoFramework.Crypto.ShamirRecovery

/-! Perfect secrecy below the threshold. The generator hands out a fixed tape of coefficient
bytes; adding a mask tape is a permutation of all tapes that turns the splits of one secret
into the splits of another without changing the observed shares. -/
namespace SmoFramework.Crypto
open SmoFramework.Library SecretPolynomial List GF256

def tapeRng : RngRef Bytes :=
  ⟨fun tape n => ((tape ++ List.replicate n 0).take n,tape.drop n),by simp⟩

def GivesValues (secret : Bytes) (N M : UInt8) (observed : Finset UInt8) (y : UInt8 → Bytes)
    (tape : Bytes) : Prop :=
  ∃ fuel shares tape', shamirSplit fuel tapeRng tape secret N M = some (.ok shares,tape') ∧
    ∀ x ∈ observed, (⟨x,y x⟩ : ShamirShare) ∈ shares

lemma drawCtx_tape (M : UInt8) (tape : Bytes) (k : ℕ) :
    drawCtx tapeRng M tape k = tape.drop (k*(M.toNat-1)) := by
  induction k with
  | zero => simp [drawCtx]
  | succ k ih =>
    rw [drawCtx,randomCoeffs,ih]
    split_ifs with hM
    · simp [tapeRng,Nat.succ_mul]
    · have : M.toNat ≤ 1 := Nat.not_lt.mp (fun h => hM (UInt8.lt_iff_toNat_lt.mpr h))
      simp [show M.toNat-1 = 0 by omega]

lemma drawCoeffs_tape (M : UInt8) (tape secret : Bytes)
    (hlen : (k+1)*(M.toNat-1) ≤ tape.length) : drawCoeffs tapeRng M tape secret k =
      secret.getD k 0::(tape.drop (k*(M.toNat-1))).take (M.toNat-1) := by
  rw [drawCoeffs,drawCtx_tape,randomCoeffs]
  split_ifs with hM
  · simp only [tapeRng]
    rw [take_append_of_le_length]
    rw [length_drop]
    have : (k+1)*(M.toNat-1) = k*(M.toNat-1)+(M.toNat-1) := Nat.succ_mul _ _
    omega
  · have : M.toNat ≤ 1 := Nat.not_lt.mp (fun h => hM (UInt8.lt_iff_toNat_lt.mpr h))
    simp [show M.toNat-1 = 0 by omega]

lemma mem_sharesOf_iff {σ : Type*} (rng : RngRef σ) (ctx : σ) (secret : Bytes) (N M : UInt8)
    (s : ShamirShare) : s ∈ sharesOf rng ctx secret N M ↔ s.index ≠ 0 ∧ s.index ≤ N ∧
      s.y = (List.range 32).map (fun b => evaluate (drawCoeffs rng M ctx secret b) s.index) := by
  refine ⟨mem_sharesOf,?_⟩
  rintro ⟨h0,hN,hy⟩
  have hpos : s.index.toNat ≠ 0 := fun h => h0 (UInt8.toNat_inj.mp h)
  have hle := UInt8.le_iff_toNat_le.mp hN
  have hidx : UInt8.ofNat (s.index.toNat-1+1) = s.index := by
    rw [Nat.sub_add_cancel (by omega)]
    simp
  apply mem_map.mpr
  refine ⟨s.index.toNat-1,mem_range.mpr (by omega),?_⟩
  cases s
  simp only [ShamirShare.mk.injEq]
  exact ⟨hidx,by rw [hidx]; exact hy.symm⟩

lemma givesValues_iff (hs : secret.length = 32) (N M : UInt8)
    (observed : Finset UInt8) (y : UInt8 → Bytes) (tape : Bytes) :
    GivesValues secret N M observed y tape ↔ (M ≠ 0 ∧ M ≤ N ∧ N ≠ 255) ∧
      ∀ x ∈ observed, x ≠ 0 ∧ x ≤ N ∧
        y x = (List.range 32).map (fun b => evaluate (drawCoeffs tapeRng M tape secret b) x) := by
  constructor
  · rintro ⟨fuel,shares,tape',h,hx⟩
    obtain ⟨_,hM,hMN,hN,rfl⟩ := shamirSplit_ok h
    exact ⟨⟨hM,hMN,hN⟩,fun x hxo => (mem_sharesOf_iff _ _ _ _ _ _).mp (hx x hxo)⟩
  · rintro ⟨⟨hM,hMN,hN⟩,hx⟩
    exact ⟨_,_,_,shamirSplit_returns tapeRng tape hs hM hMN hN (Nat.lt_succ_self _),
      fun x hxo => (mem_sharesOf_iff _ _ _ _ _ _).mpr (hx x hxo)⟩

/-! The mask tape. -/

lemma length_flatMap_blocks (f : ℕ → Bytes) (k : ℕ) (hf : ∀ b, (f b).length = k) (n : ℕ) :
    ((List.range n).flatMap f).length = n*k := by simp [hf]

lemma block_flatMap (f : ℕ → Bytes) (k : ℕ) (hf : ∀ b, (f b).length = k) (n b : ℕ) (hb : b < n) :
    (((List.range n).flatMap f).drop (b*k)).take k = f b := by
  induction n with
  | zero => omega
  | succ n ih =>
    have hlen := length_flatMap_blocks f k hf n
    rw [range_succ,flatMap_append,flatMap_singleton]
    rcases Nat.lt_succ_iff_lt_or_eq.mp hb with hlt | rfl
    · have hle : b*k+k ≤ n*k := by rw [← Nat.succ_mul]; exact Nat.mul_le_mul_right k hlt
      rw [drop_append_of_le_length (by omega),take_append_of_le_length (by rw [length_drop]; omega)]
      exact ih hlt
    · rw [drop_append,drop_of_length_le (by omega),hlen,Nat.sub_self]
      simp [take_of_length_le (hf b).le]

lemma evaluate_add_mask (c c' : UInt8) (cs ds : Bytes) (hlen : cs.length = ds.length) (x : UInt8)
    (hmask : evalCoeffs (fieldCoeffs ((c ^^^ c')::ds)) (⟨x⟩ : GF256) = 0) :
    evaluate (c'::List.zipWith (· ^^^ ·) cs ds) x = evaluate (c::cs) x := by
  apply GF256.mk_injective
  have hsum : fieldCoeffs (c'::zipWith (· ^^^ ·) cs ds) =
      zipWith (· + ·) (fieldCoeffs (c::cs)) (fieldCoeffs ((c ^^^ c')::ds)) := by
    simp only [fieldCoeffs,map_cons,zipWith_cons_cons,map_zipWith,zipWith_map]
    congr 1
    apply GF256.ext
    change c' = c ^^^ (c ^^^ c')
    rw [← UInt8.xor_assoc,UInt8.xor_self,UInt8.zero_xor]
  rw [mk_evaluate,mk_evaluate,hsum,evalCoeffs_zipWith_add _ _ (by simp [fieldCoeffs,hlen]),hmask,
    add_zero]

lemma exists_mask_tape (secret secret' : Bytes) (M : UInt8) (observed : Finset UInt8)
    (hobs : observed.card < M.toNat) :
    ∃ mask : Bytes, mask.length = 32*(M.toNat-1) ∧ ∀ b < 32, ∀ x ∈ observed, x ≠ 0 →
      evalCoeffs (fieldCoeffs ((secret.getD b 0 ^^^ secret'.getD b 0)::
        (mask.drop (b*(M.toNat-1))).take (M.toNat-1))) (⟨x⟩ : GF256) = 0 := by
  let points := (observed.erase 0).image mk
  have h0 : (0 : GF256) ∉ points := by
    intro h
    obtain ⟨x,hx,he⟩ := Finset.mem_image.mp h
    exact (Finset.mem_erase.mp hx).1 (congrArg byte he)
  have hcard : points.card < M.toNat :=
    (Finset.card_image_le.trans (Finset.card_le_card (Finset.erase_subset _ _))).trans_lt hobs
  choose ds hlen hzero using fun b : ℕ =>
    exists_mask_coeffs points h0 M.toNat hcard (⟨secret.getD b 0 ^^^ secret'.getD b 0⟩ : GF256)
  have hblock : ∀ b, ((ds b).map byte).length = M.toNat-1 := by
    intro b
    have := hlen b
    rw [length_map]
    omega
  refine ⟨(range 32).flatMap (fun b => (ds b).map byte),length_flatMap_blocks _ _ hblock 32,?_⟩
  intro b hb x hx hx0
  rw [block_flatMap _ _ hblock 32 b hb]
  have hfield : fieldCoeffs ((secret.getD b 0 ^^^ secret'.getD b 0)::(ds b).map byte) =
      (⟨secret.getD b 0 ^^^ secret'.getD b 0⟩ : GF256)::ds b := by
    simp [fieldCoeffs,Function.comp_def]
  rw [hfield]
  exact hzero b _ (Finset.mem_image_of_mem _ (Finset.mem_erase.mpr ⟨hx0,hx⟩))

lemma givesValues_mask (hs : secret.length = 32)
    (hs' : secret'.length = 32) (N M : UInt8) (observed : Finset UInt8) (y : UInt8 → Bytes)
    {tape mask : Bytes} (htape : tape.length = 32*(M.toNat-1)) (hlen : mask.length = 32*(M.toNat-1))
    (hmask : ∀ b < 32, ∀ x ∈ observed, x ≠ 0 →
      evalCoeffs (fieldCoeffs ((secret.getD b 0 ^^^ secret'.getD b 0)::
        (mask.drop (b*(M.toNat-1))).take (M.toNat-1))) (⟨x⟩ : GF256) = 0) :
    GivesValues secret N M observed y tape ↔
      GivesValues secret' N M observed y (List.zipWith (· ^^^ ·) tape mask) := by
  rw [givesValues_iff hs,givesValues_iff hs']
  have hzip : (zipWith (· ^^^ ·) tape mask).length = 32*(M.toNat-1) := by
    simp [htape,hlen]
  apply and_congr_right'
  apply forall₂_congr
  intro x hx
  apply and_congr_right
  intro hx0
  apply and_congr_right'
  have hsame : ∀ b ∈ range 32, evaluate (drawCoeffs tapeRng M tape secret b) x =
      evaluate (drawCoeffs tapeRng M (zipWith (· ^^^ ·) tape mask) secret' b) x := by
    intro b hb
    have hb' := mem_range.mp hb
    have hle : (b+1)*(M.toNat-1) ≤ 32*(M.toNat-1) := Nat.mul_le_mul_right _ hb'
    rw [drawCoeffs_tape _ _ _ (hle.trans htape.ge),drawCoeffs_tape _ _ _ (hle.trans hzip.ge),
      drop_zipWith,take_zipWith]
    exact (evaluate_add_mask _ _ _ _ (by simp [htape,hlen]) x (hmask b hb' x hx hx0)).symm
  rw [map_congr_left hsame]

/-- Adding a fixed mask is an involution on the tapes of one length. -/
def maskPerm (n : ℕ) (mask : Bytes) (hmask : mask.length = n) : Equiv.Perm (List.Vector UInt8 n) :=
  Function.Involutive.toPerm
    (fun tape => ⟨List.zipWith (· ^^^ ·) tape.1 mask,by simp [tape.2,hmask]⟩) (by
      intro tape
      apply Subtype.ext
      apply List.ext_getElem
      · simp [tape.2,hmask]
      · intro i h1 h2
        simp only [List.getElem_zipWith,UInt8.xor_assoc,UInt8.xor_self,UInt8.xor_zero])

/-- Below the threshold the observed y-values occur equally often for any two secrets, counted
over all strings of random coefficient bytes. -/
theorem shamirSplit_perfect_secrecy (secret secret' : Bytes) (N M : UInt8)
    (hs : secret.length = 32) (hs' : secret'.length = 32) (hM : 1 ≤ M)
    (observed : Finset UInt8) (hobs : observed.card ≤ M.toNat-1) (y : UInt8 → Bytes) :
    Nat.card { tape : List.Vector UInt8 (32*(M.toNat-1)) //
        GivesValues secret N M observed y tape.toList } =
      Nat.card { tape : List.Vector UInt8 (32*(M.toNat-1)) //
        GivesValues secret' N M observed y tape.toList } := by
  have hM' : 1 ≤ M.toNat := UInt8.le_iff_toNat_le.mp hM
  obtain ⟨mask,hlen,hmask⟩ := exists_mask_tape secret secret' M observed (by omega)
  apply Nat.card_congr
  apply (maskPerm _ mask hlen).subtypeEquiv
  intro tape
  exact givesValues_mask hs hs' N M observed y tape.2 hlen hmask

theorem shamirSplit_perfect_secrecy_two_of_three : Nat.card { tape : List.Vector UInt8 (32*(2-1)) //
        GivesValues (List.replicate 32 0) 3 2 {1} (fun _ => List.replicate 32 5) tape.toList } =
      Nat.card { tape : List.Vector UInt8 (32*(2-1)) //
        GivesValues (List.replicate 32 7) 3 2 {1} (fun _ => List.replicate 32 5) tape.toList } :=
  shamirSplit_perfect_secrecy (replicate 32 0) (replicate 32 7) 3 2 rfl rfl (by decide)
    {1} (by decide) (fun _ => replicate 32 5)

end SmoFramework.Crypto
