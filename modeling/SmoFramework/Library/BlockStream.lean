import Mathlib.Data.List.Basic

/-! A stream that is taken in by blocks of a fixed size, symbol by symbol or block by block. -/
namespace SmoFramework.Library.BlockStream
open List

variable {α σ : Type} (step : σ → List α → σ) (n : ℕ)

/-- The first `k` blocks, one after the other. -/
def absorb : ℕ → σ → List α → σ
  | 0,s,_ => s
  | k+1,s,xs => absorb k (step s (xs.take n)) (xs.drop n)

/-- A symbol waits behind the others until the block is full. -/
def feed (p : σ × List α) (x : α) : σ × List α :=
  if p.2.length+1 = n then (step p.1 (p.2 ++ [x]),[]) else (p.1,p.2 ++ [x])

variable {step n} {s : σ} {buf xs : List α}

lemma foldl_feed (h : buf.length < n) : xs.foldl (feed step n) (s,buf) =
    (absorb step n ((buf ++ xs).length/n) s (buf ++ xs),
      (buf ++ xs).drop (n*((buf ++ xs).length/n))) := by
  induction xs generalizing s buf with
  | nil => rw [append_nil,Nat.div_eq_of_lt h]; rfl
  | cons x xs ih =>
    rw [foldl_cons,feed]
    dsimp only
    split_ifs with hfull
    · have hblock : buf ++ x::xs = (buf ++ [x]) ++ xs := by simp
      have hlen : (buf ++ [x]).length = n := by simpa using hfull
      have hcount : (buf ++ x::xs).length/n = xs.length/n+1 := by
        rw [hblock,length_append,hlen,Nat.add_div_left _ (by omega)]
      rw [ih (by rw [length_nil]; omega),nil_append,hcount,absorb,Nat.mul_add_one,Nat.add_comm,
        ← drop_drop,hblock,take_left' hlen,drop_left' hlen]
    · rw [ih (by rw [length_append,length_singleton]; omega)]
      simp

lemma foldl_feed_full (hbuf : buf.length < n) (h : buf.length+xs.length = n) :
    xs.foldl (feed step n) (s,buf) = (step s (buf ++ xs),[]) := by
  have hlen : (buf ++ xs).length = n := by rw [length_append,h]
  rw [foldl_feed hbuf,hlen,Nat.div_self (by omega),absorb,absorb,Nat.mul_one,
    take_of_length_le (Nat.le_of_eq hlen),
    drop_of_length_le (Nat.le_of_eq hlen)]

lemma absorb_eq_foldl_feed (h : 0 < n) :
    absorb step n (xs.length/n) s xs = (xs.foldl (feed step n) (s,[])).1 := by
  rw [foldl_feed h,nil_append]

end SmoFramework.Library.BlockStream
