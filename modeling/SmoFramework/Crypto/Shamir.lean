import SmoFramework.Crypto.Gf256
import SmoFramework.Library.FuelLoop

/-! Splitting and recovering a 32-byte secret (`core/crypto/shamir`). The two share loops run on
an 8-bit counter compared with the 8-bit share count, so they are modelled as loops that may
not end: `none` means that no answer was reached within the fuel. -/
namespace SmoFramework.Crypto
open SmoFramework.Library List FuelLoop

structure ShamirShare where
  index : UInt8
  y : Bytes
  deriving DecidableEq, Repr

instance : Inhabited ShamirShare := ⟨⟨0,[]⟩⟩

namespace ShamirShare

def serialize (share : ShamirShare) : Result Bytes :=
  if share.y.length ≠ 32 then
    .error (smoErrCrypto 160 .error .noRetry .manualIntervention
      "ShamirShare: y-coordinate must be 32 bytes")
  else .ok (share.index::share.y)

def deserialize (data : Bytes) : Result ShamirShare :=
  if data.length ≠ 33 then
    .error (smoErrCrypto 161 .error .noRetry .manualIntervention "ShamirShare: expected 33 bytes")
  else
    let share : ShamirShare := ⟨data.getD 0 0,data.drop 1⟩
    if share.index = 0 then
      .error (smoErrCrypto 162 .error .noRetry .manualIntervention
        "ShamirShare: index cannot be 0")
    else .ok share

lemma deserialize_serialize (h : share.serialize = .ok data)
    (hindex : share.index ≠ 0) : deserialize data = .ok share := by
  unfold serialize at h
  split_ifs at h with hy
  cases h
  simp [deserialize,not_ne_iff.mp hy,hindex]

end ShamirShare

/-- A random generator: a context and a function that fills a buffer of any requested size. -/
structure RngRef (σ : Type*) where
  fill : σ → ℕ → Bytes × σ
  fill_length : ∀ ctx n, (fill ctx n).1.length = n

/-- The loop `y = sum coeffs[i] * x^i`; the pair holds `y` and the running power of `x`. -/
def evaluate (coeffs : Bytes) (x : UInt8) : UInt8 :=
  (coeffs.foldl (fun (s : UInt8 × UInt8) c => (gfAdd s.1 (gfMul c s.2),gfMul s.2 x)) (0,1)).1

def createShares (fuel : ℕ) (N : UInt8) : Option (List ShamirShare) :=
  (while_ (fun s : UInt8 × List ShamirShare => decide (s.1 ≤ N))
    (fun s => (s.1+1,s.2 ++ [⟨s.1,replicate 32 0⟩])) fuel (1,[])).map Prod.snd

def evaluateShares (fuel : ℕ) (N : UInt8) (coeffs : Bytes) (bytePos : ℕ)
    (shares : List ShamirShare) : Option (List ShamirShare) :=
  (while_ (fun s : UInt8 × List ShamirShare => decide (s.1 ≤ N))
    (fun s => (s.1+1,s.2.modify (s.1.toNat-1)
      (fun share => { share with y := share.y.set bytePos (evaluate coeffs s.1) })))
    fuel (1,shares)).map Prod.snd

variable {σ : Type*}

def randomCoeffs (rng : RngRef σ) (M : UInt8) (ctx : σ) : Bytes × σ :=
  if M > 1 then rng.fill ctx (M.toNat-1) else ([],ctx)

def splitByte (fuel : ℕ) (rng : RngRef σ) (secret : Bytes) (N M : UInt8)
    (s : List ShamirShare × σ) (bytePos : ℕ) : Option (List ShamirShare × σ) :=
  let drawn := randomCoeffs rng M s.2
  let coeffs := secret.getD bytePos 0::drawn.1
  (evaluateShares fuel N coeffs bytePos s.1).map (fun shares => (shares,drawn.2))

def shamirSplit (fuel : ℕ) (rng : RngRef σ) (ctx : σ) (secret : Bytes) (N M : UInt8) :
    Option (Result (List ShamirShare) × σ) :=
  if secret.length ≠ 32 then
    some (.error (smoErrCrypto 163 .error .noRetry .manualIntervention
      "shamir_split: secret must be 32 bytes"),ctx)
  else if M = 0 ∨ M > N then
    some (.error (smoErrCrypto 164 .error .noRetry .manualIntervention
      "shamir_split: invalid threshold (1 <= M <= N)"),ctx)
  else if N.toNat > 255 then
    some (.error (smoErrCrypto 165 .error .noRetry .manualIntervention
      "shamir_split: N cannot exceed 255"),ctx)
  else
    (createShares fuel N).bind fun shares =>
      ((range 32).foldlM (splitByte fuel rng secret N M) (shares,ctx)).map
        (fun s => (.ok s.1,s.2))

/-- The product over `j ≠ i` of `x_j / (x_j - x_i)`, with subtraction being `gf_add`. -/
def lagrangeCoeff (shares : List ShamirShare) (M i : ℕ) : UInt8 :=
  (range M).foldl (fun acc j =>
    if i = j then acc
    else
      let diff := gfAdd (shares.getD j default).index (shares.getD i default).index
      gfMul acc (gfDiv (shares.getD j default).index diff)) 1

def recoverByte (shares : List ShamirShare) (M bytePos : ℕ) : UInt8 :=
  (range M).foldl (fun acc i =>
    gfAdd acc (gfMul ((shares.getD i default).y.getD bytePos 0) (lagrangeCoeff shares M i))) 0

def checkShares : List ShamirShare → Option Error
  | [] => none
  | s::shares =>
    if s.y.length ≠ 32 then
      some (smoErrCrypto 169 .error .noRetry .manualIntervention
        "shamir_recover: share y-coordinate must be 32 bytes")
    else if s.index = 0 then
      some (smoErrCrypto 170 .error .noRetry .manualIntervention
        "shamir_recover: share index cannot be 0")
    else checkShares shares

def shamirRecover (shares : List ShamirShare) (M : UInt8) : Result Bytes :=
  if shares.length < M.toNat then
    .error (smoErrCrypto 166 .error .noRetry .manualIntervention
      "shamir_recover: insufficient shares (need at least M)")
  else if M = 0 then
    .error (smoErrCrypto 167 .error .noRetry .manualIntervention
      "shamir_recover: threshold M must be >= 1")
  else if shares.length > 255 then
    .error (smoErrCrypto 168 .error .noRetry .manualIntervention
      "shamir_recover: too many shares")
  else
    match checkShares shares with
    | some e => .error e
    | none =>
      if ¬(shares.map ShamirShare.index).Nodup then
        .error (smoErrCrypto 171 .error .noRetry .manualIntervention
          "shamir_recover: duplicate share indices")
      else .ok ((range 32).map (recoverByte shares M.toNat))

/-! What the loops of `shamir_split` compute. -/

def shareTable (n : ℕ) (g : ℕ → ℕ → UInt8) : List ShamirShare :=
  (range n).map (fun i => ⟨UInt8.ofNat (i+1),(range 32).map (g i)⟩)

@[simp] lemma shareTable_length (n : ℕ) (g : ℕ → ℕ → UInt8) : (shareTable n g).length = n := by
  simp [shareTable]

lemma shareTable_congr {g h : ℕ → ℕ → UInt8}
    (hgh : ∀ i < n, ∀ b < 32, g i b = h i b) : shareTable n g = shareTable n h := by
  apply map_congr_left
  intro i hi
  congr 1
  exact map_congr_left (fun b hb => hgh i (mem_range.mp hi) b (mem_range.mp hb))

variable {N : UInt8}

lemma counter_le (hN : N ≠ 255) (hk : k ≤ N.toNat) :
    UInt8.ofNat (k+1) ≤ N ↔ k < N.toNat := by
  have hlt : N.toNat < 255 := by
    have := N.toNat_lt
    have hne : N.toNat ≠ 255 := fun h => hN (UInt8.toNat_inj.mp h)
    omega
  rw [UInt8.le_iff_toNat_le,UInt8.toNat_ofNat_of_lt' (by simp [UInt8.size]; omega)]
  omega

lemma counter_succ (k : ℕ) : UInt8.ofNat (k+1)+1 = UInt8.ofNat (k+1+1) := by
  rw [UInt8.ofNat_add (k+1) 1]
  rfl

variable {fuel : ℕ}

lemma shareLoop_trajectory {τ : Type*} (hN : N ≠ 255) (step : UInt8 → τ → τ) (g : ℕ → τ)
    (hg : ∀ k < N.toNat, step (UInt8.ofNat (k+1)) (g k) = g (k+1)) (hfuel : N.toNat < fuel) :
    while_ (fun s : UInt8 × τ => decide (s.1 ≤ N)) (fun s => (s.1+1,step s.1 s.2)) fuel
      (1,g 0) = some (UInt8.ofNat (N.toNat+1),g N.toNat) := by
  refine while_trajectory (fun k => (UInt8.ofNat (k+1),g k)) N.toNat ?_ ?_ ?_ hfuel
  · intro k hk
    exact decide_eq_true ((counter_le hN hk.le).mpr hk)
  · intro k hk
    simp only [counter_succ,hg k hk]
  · exact decide_eq_false (fun hle => (lt_irrefl _) ((counter_le hN le_rfl).mp hle))

lemma shareLoop_diverges {τ : Type*} (step : UInt8 → τ → τ) (s : UInt8 × τ) (fuel : ℕ) :
    while_ (fun s : UInt8 × τ => decide (s.1 ≤ 255)) (fun s => (s.1+1,step s.1 s.2)) fuel s =
      none := by
  apply while_diverges (fun _ => True) (fun _ _ => trivial) _ trivial
  intro t _
  have hle : t.1 ≤ 255 := UInt8.le_iff_toNat_le.mpr (Nat.le_of_lt_succ t.1.toNat_lt)
  exact decide_eq_true hle

lemma createShares_eq (hN : N ≠ 255) (hfuel : N.toNat < fuel) :
    createShares fuel N = some (shareTable N.toNat (fun _ _ => 0)) := by
  have hg : ∀ k < N.toNat, shareTable k (fun _ _ => 0) ++ [⟨UInt8.ofNat (k+1),replicate 32 0⟩] =
      shareTable (k+1) (fun _ _ => 0) := by
    intro k _
    unfold shareTable
    rw [range_succ (n := k),map_append]
    rfl
  have h := shareLoop_trajectory hN (fun x shares => shares ++ [⟨x,replicate 32 0⟩])
    (fun k => shareTable k (fun _ _ => 0)) hg hfuel
  unfold createShares
  rw [show shareTable 0 (fun _ _ => 0) = [] from rfl] at h
  rw [h]
  rfl

lemma shareTable_modify (n k : ℕ) (g : ℕ → ℕ → UInt8) (bytePos : ℕ) (v : UInt8) :
    (shareTable n g).modify k (fun share => { share with y := share.y.set bytePos v }) =
      shareTable n (fun i b => if b = bytePos ∧ i = k then v else g i b) := by
  apply ext_getElem
  · simp
  intro i h1 h2
  rw [getElem_modify]
  simp only [shareTable,getElem_map,getElem_range]
  split_ifs with hik
  · subst i
    simp only [ShamirShare.mk.injEq,true_and]
    apply ext_getElem
    · simp
    intro b hb1 hb2
    by_cases hb : bytePos = b
    · simp [hb]
    · simp [hb,Ne.symm hb]
  · simp only [ShamirShare.mk.injEq,true_and]
    apply map_congr_left
    intro b _
    rw [if_neg (fun h => hik h.2.symm)]

lemma evaluateShares_eq (hN : N ≠ 255) (hfuel : N.toNat < fuel) (coeffs : Bytes) (bytePos : ℕ)
    (g : ℕ → ℕ → UInt8) : evaluateShares fuel N coeffs bytePos (shareTable N.toNat g) =
      some (shareTable N.toNat
        (fun i b => if b = bytePos then evaluate coeffs (UInt8.ofNat (i+1)) else g i b)) := by
  -- After `k` iterations the column is filled in for the first `k` shares.
  let table (k : ℕ) := shareTable N.toNat
    (fun i b => if b = bytePos ∧ i < k then evaluate coeffs (UInt8.ofNat (i+1)) else g i b)
  have hstep : ∀ k < N.toNat, (table k).modify ((UInt8.ofNat (k+1)).toNat-1)
      (fun share => { share with y := share.y.set bytePos (evaluate coeffs (UInt8.ofNat (k+1))) }) =
      table (k+1) := by
    intro k hk
    have hlt := N.toNat_lt
    rw [UInt8.toNat_ofNat_of_lt' (by simp [UInt8.size]; omega),shareTable_modify]
    apply shareTable_congr
    intro i _ b _
    by_cases hb : b = bytePos
    · rcases Nat.lt_trichotomy i k with hi | rfl | hi
      · simp [hi,hi.ne,hi.trans (Nat.lt_succ_self k)]
      · simp
      · have h1 : ¬ i < k := by omega
        have h2 : ¬ i < k+1 := by omega
        simp [h1,h2,hi.ne']
    · simp [hb]
  have h := shareLoop_trajectory hN (fun x shares => shares.modify (x.toNat-1)
    (fun share => { share with y := share.y.set bytePos (evaluate coeffs x) })) table hstep hfuel
  have hzero : table 0 = shareTable N.toNat g := shareTable_congr (by simp)
  have hlast : table N.toNat = shareTable N.toNat
      (fun i b => if b = bytePos then evaluate coeffs (UInt8.ofNat (i+1)) else g i b) := by
    apply shareTable_congr
    intro i hi b _
    simp [hi]
  rw [hzero] at h
  unfold evaluateShares
  rw [h,← hlast]
  rfl

def drawCtx (rng : RngRef σ) (M : UInt8) (ctx : σ) : ℕ → σ
  | 0 => ctx
  | k+1 => (randomCoeffs rng M (drawCtx rng M ctx k)).2

def drawCoeffs (rng : RngRef σ) (M : UInt8) (ctx : σ) (secret : Bytes) (k : ℕ) : Bytes :=
  secret.getD k 0::(randomCoeffs rng M (drawCtx rng M ctx k)).1

variable {M : UInt8}

lemma randomCoeffs_length (rng : RngRef σ) (hM : M ≠ 0) (ctx : σ) :
    (randomCoeffs rng M ctx).1.length+1 = M.toNat := by
  unfold randomCoeffs
  have h0 : M.toNat ≠ 0 := fun h => hM (UInt8.toNat_inj.mp h)
  split_ifs with h
  · rw [rng.fill_length]
    omega
  · have : ¬ 1 < M.toNat := fun hlt => h (UInt8.lt_iff_toNat_lt.mpr hlt)
    simp only [length_nil]
    omega

lemma drawCoeffs_length (rng : RngRef σ) (hM : M ≠ 0) (ctx : σ) (secret : Bytes) (k : ℕ) :
    (drawCoeffs rng M ctx secret k).length = M.toNat := by
  rw [drawCoeffs,length_cons,randomCoeffs_length rng hM]

/-- The shares that `shamir_split` stands for: share `i` holds the values at `i` of the 32
polynomials. -/
def sharesOf (rng : RngRef σ) (ctx : σ) (secret : Bytes) (N M : UInt8) : List ShamirShare :=
  shareTable N.toNat (fun i b => evaluate (drawCoeffs rng M ctx secret b) (UInt8.ofNat (i+1)))

variable {secret : Bytes}

theorem shamirSplit_returns (rng : RngRef σ) (ctx : σ) (hs : secret.length = 32) (hM : M ≠ 0)
    (hMN : M ≤ N) (hN : N ≠ 255) (hfuel : N.toNat < fuel) : shamirSplit fuel rng ctx secret N M =
      some (.ok (sharesOf rng ctx secret N M),drawCtx rng M ctx 32) := by
  have h255 : ¬ N.toNat > 255 := by have := N.toNat_lt; omega
  have hbad : ¬ (M = 0 ∨ M > N) := fun h => h.elim hM (fun h => (UInt8.not_lt.mpr hMN) h)
  unfold shamirSplit
  rw [if_neg (not_ne_iff.mpr hs),if_neg hbad,if_neg h255,createShares_eq hN hfuel,Option.bind_some]
  -- After `k` bytes the first `k` columns of the table are final.
  have h := foldlM_range_trajectory (f := splitByte fuel rng secret N M)
    (fun k => (shareTable N.toNat (fun i b =>
      if b < k then evaluate (drawCoeffs rng M ctx secret b) (UInt8.ofNat (i+1)) else 0),
      drawCtx rng M ctx k)) 32 ?_
  · simp only [Nat.not_lt_zero,if_false] at h
    rw [show drawCtx rng M ctx 0 = ctx from rfl] at h
    rw [h,Option.map_some]
    have htable : shareTable N.toNat (fun i b =>
        if b < 32 then evaluate (drawCoeffs rng M ctx secret b) (UInt8.ofNat (i+1)) else 0) =
        sharesOf rng ctx secret N M := shareTable_congr (fun i _ b hb => if_pos hb)
    rw [htable]
  · intro k _
    unfold splitByte
    dsimp only
    rw [evaluateShares_eq hN hfuel,Option.map_some]
    congr 2
    apply shareTable_congr
    intro i _ b _
    rcases Nat.lt_trichotomy b k with hb | rfl | hb
    · simp [hb,hb.ne,hb.trans (Nat.lt_succ_self k)]
    · simp [drawCoeffs]
    · have h1 : ¬ b < k := by omega
      have h2 : ¬ b < k+1 := by omega
      simp [h1,h2,hb.ne']

lemma shamirSplit_diverges (rng : RngRef σ) (ctx : σ) (hs : secret.length = 32) (hM : M ≠ 0)
    (fuel : ℕ) : shamirSplit fuel rng ctx secret 255 M = none := by
  have hbad : ¬ (M = 0 ∨ M > 255) := by
    rintro (h | h)
    · exact hM h
    · have hlt : 255 < M.toNat := UInt8.lt_iff_toNat_lt.mp h
      have := M.toNat_lt
      omega
  have hcreate : createShares fuel 255 = none := by
    unfold createShares
    rw [shareLoop_diverges (fun x shares => shares ++ [(⟨x,replicate 32 0⟩ : ShamirShare)])]
    rfl
  unfold shamirSplit
  rw [if_neg (not_ne_iff.mpr hs),if_neg hbad,hcreate]
  rfl

lemma evaluateShares_mono (hle : fuel ≤ fuel')
    (h : evaluateShares fuel N coeffs bytePos shares = some shares') :
    evaluateShares fuel' N coeffs bytePos shares = some shares' := by
  obtain ⟨s,hs,rfl⟩ := Option.map_eq_some_iff.mp h
  exact Option.map_eq_some_iff.mpr ⟨s,while_mono hs hle,rfl⟩

lemma shamirSplit_mono (hle : fuel ≤ fuel') (h : shamirSplit fuel rng ctx secret N M = some r) :
    shamirSplit fuel' rng ctx secret N M = some r := by
  unfold shamirSplit at h ⊢
  split_ifs at h ⊢
  · exact h
  · exact h
  · exact h
  obtain ⟨shares,hc,h⟩ := Option.bind_eq_some_iff.mp h
  obtain ⟨s,hf,rfl⟩ := Option.map_eq_some_iff.mp h
  obtain ⟨t,ht,rfl⟩ := Option.map_eq_some_iff.mp hc
  apply Option.bind_eq_some_iff.mpr
  refine ⟨_,Option.map_eq_some_iff.mpr ⟨t,while_mono ht hle,rfl⟩,?_⟩
  apply Option.map_eq_some_iff.mpr
  refine ⟨s,foldlM_mono ?_ _ hf,rfl⟩
  intro u b v hv
  obtain ⟨w,hw,rfl⟩ := Option.map_eq_some_iff.mp hv
  exact Option.map_eq_some_iff.mpr ⟨w,evaluateShares_mono hle hw,rfl⟩

/-- Everything a successful split says: its arguments passed the checks, `N` is below 255 and
the shares are the expected ones. -/
theorem shamirSplit_ok (h : shamirSplit fuel rng ctx secret N M = some (.ok shares,ctx')) :
    secret.length = 32 ∧ M ≠ 0 ∧ M ≤ N ∧ N ≠ 255 ∧ shares = sharesOf rng ctx secret N M := by
  have hs : secret.length = 32 := by
    by_contra hs
    simp [shamirSplit,hs] at h
  have hbad : ¬ (M = 0 ∨ M > N) := by
    intro hbad
    unfold shamirSplit at h
    rw [if_neg (not_ne_iff.mpr hs),if_pos hbad] at h
    simp at h
  obtain ⟨hM,hMN⟩ := not_or.mp hbad
  have hN : N ≠ 255 := by
    rintro rfl
    rw [shamirSplit_diverges rng ctx hs hM] at h
    cases h
  refine ⟨hs,hM,UInt8.not_lt.mp hMN,hN,?_⟩
  have hret := shamirSplit_returns rng ctx hs hM (UInt8.not_lt.mp hMN) hN
    (Nat.lt_succ_of_le (le_max_right fuel N.toNat))
  rw [shamirSplit_mono (le_trans (le_max_left _ _) (Nat.le_succ _)) h] at hret
  simp only [Option.some.injEq,Prod.mk.injEq,Except.ok.injEq] at hret
  exact hret.1

/-- Exactly when `shamir_split` delivers what its checks promise: for every `1 ≤ M ≤ N ≤ 255`
it returns `N` well-formed shares in order if and only if `N` is not 255. -/
theorem shamirSplit_total_iff (rng : RngRef σ) (ctx : σ) (secret : Bytes) (N M : UInt8)
    (hs : secret.length = 32) (hM : 1 ≤ M) (hMN : M ≤ N) :
    (∃ fuel shares ctx', shamirSplit fuel rng ctx secret N M = some (.ok shares,ctx') ∧
      shares.map ShamirShare.index = (List.range N.toNat).map (fun i => UInt8.ofNat (i+1)) ∧
      ∀ share ∈ shares, share.y.length = 32) ↔ N ≠ 255 := by
  have hM0 : M ≠ 0 := by
    rintro rfl
    exact absurd hM (by decide)
  constructor
  · rintro ⟨fuel,shares,ctx',h,_⟩
    exact (shamirSplit_ok h).2.2.2.1
  · intro hN
    refine ⟨_,_,_,shamirSplit_returns rng ctx hs hM0 hMN hN (Nat.lt_succ_self _),?_,?_⟩
    · simp [sharesOf,shareTable]
    · intro share hshare
      obtain ⟨i,_,rfl⟩ := mem_map.mp hshare
      simp

def constRng (v : UInt8) : RngRef Unit := ⟨fun ctx n => (replicate n v,ctx),by simp⟩

theorem shamirSplit_total_two_of_three :
    (∃ fuel shares ctx', shamirSplit fuel (constRng 1) () (List.replicate 32 7) 3 2 =
      some (.ok shares,ctx') ∧
      shares.map ShamirShare.index = (List.range 3).map (fun i => UInt8.ofNat (i+1)) ∧
      ∀ share ∈ shares, share.y.length = 32) ↔ (3 : UInt8) ≠ 255 :=
  shamirSplit_total_iff (constRng 1) () (replicate 32 7) 3 2 rfl (by decide) (by decide)

/-- At `M = 1`, `N = 255`, a secret of zeros passes every check and no answer is ever reached. -/
theorem shamirSplit_255_no_shares :
    ¬ ∃ fuel shares ctx', shamirSplit fuel (constRng 1) () (List.replicate 32 0) 255 1 =
      some (.ok shares,ctx') ∧
      shares.map ShamirShare.index = (List.range 255).map (fun i => UInt8.ofNat (i+1)) ∧
      ∀ share ∈ shares, share.y.length = 32 := by
  rintro ⟨fuel,shares,ctx',h,_⟩
  rw [shamirSplit_diverges (constRng 1) () rfl (by decide)] at h
  cases h

end SmoFramework.Crypto
