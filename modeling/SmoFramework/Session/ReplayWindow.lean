import Mathlib.Data.List.MinMax
import SmoFramework.Library.WordBits

/-! The 64-bit sliding replay window of one session direction (`core/session/session_security`): the
highest accepted sequence and one flag for each of the 63 below it. Over any run these two words
decide membership in the set of all accepted sequences, restricted to the window. -/
namespace SmoFramework.Session
open SmoFramework.Library List WordBits

structure ReplayWindow where
  highest : UInt64 := 0
  bitmap : UInt64 := 0
  deriving DecidableEq, Repr

namespace ReplayWindow

def kWindowBits : UInt64 := 64

def reset : ReplayWindow := {}

def restore (highest bitmap : UInt64) : ReplayWindow := ⟨highest,bitmap⟩

def isAcceptable (w : ReplayWindow) (sequence : UInt64) : Bool :=
  -- Sequence 0 is reserved.
  if sequence = 0 then false
  else if sequence > w.highest then true
  else
    let diff := w.highest-sequence
    if diff = 0 ∨ diff ≥ kWindowBits then false
    else (w.bitmap &&& (1 <<< diff)) == 0

/-- The returned Boolean together with the window left behind. -/
def commit (w : ReplayWindow) (sequence : UInt64) : Bool × ReplayWindow :=
  if !w.isAcceptable sequence then (false,w)
  else if sequence > w.highest then
    let shift := sequence-w.highest
    let bitmap : UInt64 := if shift ≥ kWindowBits then 0 else (w.bitmap <<< shift) ||| (1 <<< shift)
    (true,⟨sequence,bitmap⟩)
  else
    let diff := w.highest-sequence
    (true,{ w with bitmap := w.bitmap ||| (1 <<< diff) })

/-! The abstract side: the sequences accepted so far, most recent first. -/

def highestOf : List UInt64 → ℕ
  | [] => 0
  | s::ss => max s.toNat (highestOf ss)

/-- A sequence is fresh when it is nonzero, was never accepted and is less than 64 below the highest
accepted one, without wrap-around. -/
def Fresh (accepted : List UInt64) (s : UInt64) : Prop :=
  s ≠ 0 ∧ s ∉ accepted ∧ highestOf accepted < s.toNat+64

instance (accepted : List UInt64) (s : UInt64) : Decidable (Fresh accepted s) :=
  inferInstanceAs (Decidable (_ ∧ _ ∧ _))

lemma le_highestOf (h : s ∈ accepted) :
    s.toNat ≤ highestOf accepted := by
  induction accepted with
  | nil => cases h
  | cons a as ih =>
    rcases mem_cons.mp h with rfl | h
    · exact le_max_left _ _
    · exact (ih h).trans (le_max_right _ _)

/-- Bit `j` stands for the sequence `highest-j`; bits that would stand for sequence 0 or below are
free. -/
structure Tracks (w : ReplayWindow) (accepted : List UInt64) : Prop where
  highest_eq : w.highest.toNat = highestOf accepted
  highest_mem : w.highest = 0 ∨ w.highest ∈ accepted
  flags : ∀ s : UInt64, s ≠ 0 → ∀ j, 1 ≤ j → j < 64 → s.toNat+j = w.highest.toNat →
    (WordBits.flag w.bitmap j = true ↔ s ∈ accepted)

section
variable {w : ReplayWindow} {accepted : List UInt64}

lemma Tracks.not_mem_of_gt (h : Tracks w accepted) (hgt : w.highest.toNat < s.toNat) : s ∉ accepted := by
  intro hm
  have hle := le_highestOf hm
  have hmax := h.highest_eq
  omega

lemma Tracks.mem_of_eq_highest (h : Tracks w accepted) (hs : s ≠ 0)
    (he : s = w.highest) : s ∈ accepted := by
  rcases h.highest_mem with h0 | hm
  · exact absurd (he.trans h0) hs
  · exact he ▸ hm

end

lemma sub_ge_kWindowBits_iff (h : a ≤ b) :
    b-a ≥ kWindowBits ↔ 64 ≤ b.toNat-a.toNat := by
  rw [ge_iff_le,UInt64.le_iff_toNat_le,UInt64.toNat_sub_of_le _ _ h]
  rfl

lemma reset_tracks : Tracks reset [] where
  highest_eq := rfl
  highest_mem := Or.inl rfl
  flags s hs j hj hj' he := by
    have hz : s.toNat+j = 0 := he
    omega

/-- In a tracked window the precheck computes freshness. -/
theorem Tracks.isAcceptable_iff
    (h : Tracks w accepted) (s : UInt64) : w.isAcceptable s = true ↔ Fresh accepted s := by
  unfold isAcceptable Fresh
  have hmax := h.highest_eq
  by_cases hs : s = 0
  · simp [hs]
  rw [if_neg hs]
  by_cases hgt : s > w.highest
  · rw [if_pos hgt]
    have hlt : w.highest.toNat < s.toNat := UInt64.lt_iff_toNat_lt.mp hgt
    simp only [ne_eq,hs,not_false_eq_true,h.not_mem_of_gt hlt,true_and,true_iff]
    omega
  rw [if_neg hgt]
  have hle : s ≤ w.highest := UInt64.not_lt.mp hgt
  have hle' : s.toNat ≤ w.highest.toNat := UInt64.le_iff_toNat_le.mp hle
  have hd : (w.highest-s).toNat = w.highest.toNat-s.toNat := UInt64.toNat_sub_of_le _ _ hle
  have hz : w.highest-s = 0 ↔ s.toNat = w.highest.toNat := by
    rw [← UInt64.toNat_inj,hd,UInt64.toNat_zero]
    omega
  simp only [hz,sub_ge_kWindowBits_iff hle]
  by_cases he : s.toNat = w.highest.toNat
  · have hm : s ∈ accepted := h.mem_of_eq_highest hs (UInt64.toNat_inj.mp he)
    simp [he,hm]
  by_cases hold : 64 ≤ w.highest.toNat-s.toNat
  · simp only [hold,or_true,if_true,Bool.false_eq_true,false_iff]
    omega
  · have hk : (w.highest-s).toNat < 64 := by omega
    have hf := h.flags s hs (w.highest-s).toNat (by omega) hk (by omega)
    rw [if_neg (by omega),beq_iff_eq,and_mask_eq_zero _ _ hk,← Bool.not_eq_true,hf]
    simp only [ne_eq,hs,not_false_eq_true,true_and]
    constructor
    · intro hm
      exact ⟨hm,by omega⟩
    · exact And.left

lemma commit_fst (w : ReplayWindow) (s : UInt64) : (w.commit s).1 = w.isAcceptable s := by
  unfold commit
  cases ha : w.isAcceptable s
  · rfl
  · simp only [Bool.not_true,Bool.false_eq_true,if_false]
    split_ifs <;> rfl

variable {w : ReplayWindow}

lemma commit_rejected (h : w.isAcceptable s = false) :
    w.commit s = (false,w) := by simp [commit,h]

lemma Tracks.flag_advance (h : Tracks w accepted)
    (hgt : w.highest.toNat < s.toNat) (hk : (s-w.highest).toNat < 64) (ht : t ≠ 0)
    (hj : 1 ≤ j) (hj' : j < 64) (he : t.toNat+j = s.toNat) :
    WordBits.flag ((w.bitmap <<< (s-w.highest)) ||| (1 <<< (s-w.highest))) j = true ↔
      t ∈ accepted := by
  have hd : (s-w.highest).toNat = s.toNat-w.highest.toNat :=
    UInt64.toNat_sub_of_le _ _ (UInt64.le_iff_toNat_le.mpr hgt.le)
  rw [flag_or,flag_shiftLeft _ _ hk hj',flag_mask _ hk hj',hd]
  rcases Nat.lt_trichotomy j (s.toNat-w.highest.toNat) with hlow | heq | hhigh
  · -- `t` lies strictly between the old and the new highest sequence.
    have hn : t ∉ accepted := h.not_mem_of_gt (by omega)
    simp [not_le.mpr hlow,hlow.ne,hn]
  · -- `t` is the old highest sequence, seen because `t` is nonzero.
    have hm : t ∈ accepted := h.mem_of_eq_highest ht (UInt64.toNat_inj.mp (by omega))
    simp [heq,hm]
  · have hf := h.flags t ht (j-(s.toNat-w.highest.toNat)) (by omega) (by omega) (by omega)
    simp only [hhigh.le,hhigh.ne',decide_true,decide_false,Bool.true_and,Bool.or_false]
    exact hf

lemma Tracks.advance (h : Tracks w accepted)
    (hgt : w.highest.toNat < s.toNat) : Tracks ⟨s,if s-w.highest ≥ kWindowBits then 0
      else (w.bitmap <<< (s-w.highest)) ||| (1 <<< (s-w.highest))⟩ (s::accepted) := by
  have hmax := h.highest_eq
  have hle : w.highest ≤ s := UInt64.le_iff_toNat_le.mpr hgt.le
  have hd := UInt64.toNat_sub_of_le _ _ hle
  have hw := sub_ge_kWindowBits_iff hle
  refine ⟨?_,Or.inr (mem_cons_self ..),?_⟩
  · simp only [highestOf]; omega
  intro t ht j hj hj' he
  simp only at he ⊢
  have hts : t ≠ s := fun hts => by rw [hts] at he; omega
  rw [mem_cons,or_iff_right hts]
  by_cases hflush : s-w.highest ≥ kWindowBits
  · -- Everything seen before lies below the new window.
    have hfar := hw.mp hflush
    have hn : t ∉ accepted := h.not_mem_of_gt (by omega)
    simp [hflush,hn]
  · rw [if_neg hflush]
    have hnear := hw.not.mp hflush
    exact h.flag_advance hgt (by omega) ht hj hj' he

lemma Tracks.mark (h : Tracks w accepted)
    (hle : s ≤ w.highest) (hk : (w.highest-s).toNat < 64) :
    Tracks { w with bitmap := w.bitmap ||| (1 <<< (w.highest-s)) } (s::accepted) := by
  have hmax := h.highest_eq
  have hle' : s.toNat ≤ w.highest.toNat := UInt64.le_iff_toNat_le.mp hle
  have hd : (w.highest-s).toNat = w.highest.toNat-s.toNat := UInt64.toNat_sub_of_le _ _ hle
  refine ⟨?_,h.highest_mem.imp_right (mem_cons_of_mem _),?_⟩
  · simp only [highestOf]; omega
  intro t ht j hj hj' he
  simp only at he ⊢
  rw [flag_or,flag_mask _ hk hj',hd,Bool.or_eq_true,h.flags t ht j hj hj' he,
    decide_eq_true_eq,mem_cons,or_comm]
  have hts : j = w.highest.toNat-s.toNat ↔ t = s := by
    rw [← UInt64.toNat_inj]
    omega
  rw [hts]

/-- One accepted commit keeps the representation invariant for the extended history. -/
theorem Tracks.commit (h : Tracks w accepted)
    (ha : w.isAcceptable s = true) : Tracks (w.commit s).2 (s::accepted) := by
  obtain ⟨-,-,hwin⟩ := (h.isAcceptable_iff s).mp ha
  have hmax := h.highest_eq
  unfold ReplayWindow.commit
  simp only [ha,Bool.not_true,Bool.false_eq_true,if_false]
  by_cases hgt : s > w.highest
  · rw [if_pos hgt]
    exact h.advance (UInt64.lt_iff_toNat_lt.mp hgt)
  · rw [if_neg hgt]
    have hle : s ≤ w.highest := UInt64.not_lt.mp hgt
    have hd := UInt64.toNat_sub_of_le _ _ hle
    exact h.mark hle (by omega)

lemma highestOf_le (h : ∀ s ∈ accepted, s.toNat ≤ n) :
    highestOf accepted ≤ n := by
  induction accepted with
  | nil => exact Nat.zero_le _
  | cons a as ih =>
    exact max_le (h a mem_cons_self) (ih (fun s hs => h s (mem_cons_of_mem _ hs)))

def marked (w : ReplayWindow) : List UInt64 :=
  w.highest::((List.range 64).filter fun j =>
    1 ≤ j ∧ j < w.highest.toNat ∧ WordBits.flag w.bitmap j = true).map fun j =>
      UInt64.ofNat (w.highest.toNat-j)

lemma tracks_marked (w : ReplayWindow) : Tracks w w.marked where
  highest_eq := by
    refine le_antisymm (le_highestOf mem_cons_self) (highestOf_le ?_)
    intro s hs
    rcases mem_cons.mp hs with rfl | hs
    · exact le_rfl
    · obtain ⟨j,-,rfl⟩ := mem_map.mp hs
      rw [UInt64.toNat_ofNat']
      have hlt := w.highest.toNat_lt
      omega
  highest_mem := Or.inr mem_cons_self
  flags s hs j hj hj' he := by
    have hlt := w.highest.toNat_lt
    have hs0 : s.toNat ≠ 0 := fun h0 => hs (UInt64.toNat_inj.mp h0)
    constructor
    · intro hflag
      refine mem_cons_of_mem _ (mem_map.mpr ⟨j,mem_filter.mpr ⟨?_,?_⟩,?_⟩)
      · exact mem_range.mpr hj'
      · simp only [decide_eq_true_eq]
        exact ⟨hj,by omega,hflag⟩
      · apply UInt64.toNat_inj.mp
        rw [UInt64.toNat_ofNat']
        omega
    · intro hm
      rcases mem_cons.mp hm with rfl | hm
      · omega
      · obtain ⟨i,hi,hsi⟩ := mem_map.mp hm
        obtain ⟨-,hi⟩ := mem_filter.mp hi
        simp only [decide_eq_true_eq] at hi
        have hnat := congrArg UInt64.toNat hsi
        rw [UInt64.toNat_ofNat'] at hnat
        obtain rfl : i = j := by omega
        exact hi.2.2

lemma commit_keeps_rejected (h : w.isAcceptable t = false)
    (s : UInt64) : (w.commit s).2.isAcceptable t = false := by
  by_cases hs : w.isAcceptable s = true
  · have hnew := (w.tracks_marked.commit hs).isAcceptable_iff t
    have hold := w.tracks_marked.isAcceptable_iff t
    rw [h] at hold
    rw [← Bool.not_eq_true,hnew]
    rintro ⟨h0,hmem,hwin⟩
    rw [mem_cons,not_or] at hmem
    exact absurd (hold.mpr ⟨h0,hmem.2,(le_max_right _ _).trans_lt hwin⟩) (by simp)
  · rw [commit_rejected (Bool.not_eq_true _ ▸ hs)]
    exact h

lemma commit_rejects (h : w.isAcceptable s = true) :
    (w.commit s).2.isAcceptable s = false := by
  rw [← Bool.not_eq_true,(w.tracks_marked.commit h).isAcceptable_iff s]
  exact fun hfresh => hfresh.2.1 mem_cons_self

def commitLogged (r : ReplayWindow × List UInt64) (s : UInt64) : ReplayWindow × List UInt64 :=
  let c := r.1.commit s
  (c.2,if c.1 then s::r.2 else r.2)

def runCommits (calls : List UInt64) : ReplayWindow × List UInt64 :=
  calls.foldl commitLogged (reset,[])

lemma commitLogged_tracks (h : Tracks r.1 r.2) (s : UInt64) :
    Tracks (commitLogged r s).1 (commitLogged r s).2 := by
  unfold commitLogged
  dsimp only
  cases ha : r.1.isAcceptable s
  · rw [commit_rejected ha]
    exact h
  · rw [commit_fst,ha]
    exact h.commit ha

lemma runCommits_tracks (calls : List UInt64) :
    Tracks (runCommits calls).1 (runCommits calls).2 := by
  unfold runCommits
  induction calls using reverseRecOn with
  | nil => exact reset_tracks
  | append_singleton calls s ih =>
    rw [foldl_append]
    exact commitLogged_tracks ih s

/-- After any run from the reset state, `commit` accepts exactly the fresh sequences, a
rejected call leaves both words alone, and the precheck agrees with `commit`. -/
theorem commit_exact (calls : List UInt64) (s : UInt64) :
    (((runCommits calls).1.commit s).1 = true ↔
        s ≠ 0 ∧ s ∉ (runCommits calls).2 ∧ highestOf (runCommits calls).2 < s.toNat+64) ∧
      (runCommits calls).1.highest.toNat = highestOf (runCommits calls).2 ∧
      (((runCommits calls).1.commit s).1 = false →
        ((runCommits calls).1.commit s).2.highest = (runCommits calls).1.highest ∧
          ((runCommits calls).1.commit s).2.bitmap = (runCommits calls).1.bitmap) ∧
      (runCommits calls).1.isAcceptable s = ((runCommits calls).1.commit s).1 := by
  have h := runCommits_tracks calls
  refine ⟨?_,h.highest_eq,?_,(commit_fst _ s).symm⟩
  · rw [commit_fst]
    exact h.isAcceptable_iff s
  · intro hr
    rw [commit_fst] at hr
    rw [commit_rejected hr]
    exact ⟨rfl,rfl⟩

end ReplayWindow
end SmoFramework.Session
