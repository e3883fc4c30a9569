import Mathlib.Data.Nat.Digits.Defs
import Mathlib.Data.List.TakeWhile

/-! Positional numerals as ASCII text, in a base of at most sixteen. -/
namespace SmoFramework.Library.Numeral
open List

def digitChar (d : ℕ) : UInt8 := if d < 10 then UInt8.ofNat (48+d) else UInt8.ofNat (87+d)

def digitVal (c : UInt8) : Option ℕ :=
  if 48 ≤ c ∧ c ≤ 57 then some (c.toNat-48)
  else if 97 ≤ c ∧ c ≤ 102 then some (c.toNat-87)
  else if 65 ≤ c ∧ c ≤ 70 then some (c.toNat-55)
  else none

def isDigit (b : ℕ) (c : UInt8) : Bool := (digitVal c).any (fun d => decide (d < b))

/-- Most significant digit first, without leading zeros. -/
def render (b n : ℕ) : List UInt8 :=
  if n = 0 then [48] else (Nat.digits b n).reverse.map digitChar

def value (b : ℕ) (cs : List UInt8) : ℕ :=
  cs.foldl (fun acc c => acc*b+(digitVal c).getD 0) 0

/-- The number at the front of a text. -/
def scan (b : ℕ) (text : List UInt8) : ℕ := value b (text.takeWhile (isDigit b))

lemma forall_byte {P : UInt8 → Prop} (h : ∀ n < 256, P (UInt8.ofNat n)) (c : UInt8) : P c := by
  simpa using h c.toNat c.toNat_lt

lemma digitVal_digitChar : ∀ d < 16, digitVal (digitChar d) = some d := by decide

variable {b : ℕ}

lemma isDigit_digitChar {d : ℕ} (hb : b ≤ 16) (hd : d < b) : isDigit b (digitChar d) = true := by
  simp [isDigit,digitVal_digitChar d (hd.trans_le hb),hd]

lemma value_append_singleton (b : ℕ) (cs : List UInt8) (c : UInt8) :
    value b (cs ++ [c]) = value b cs*b+(digitVal c).getD 0 := by simp [value]

lemma value_map_digitChar (hb : b ≤ 16) (ds : List ℕ) (hds : ∀ d ∈ ds, d < b) :
    value b (ds.reverse.map digitChar) = Nat.ofDigits b ds := by
  induction ds with
  | nil => rfl
  | cons d ds ih =>
    have hd := hds d mem_cons_self
    rw [reverse_cons,map_append,map_singleton,value_append_singleton,
      ih (fun x hx => hds x (mem_cons_of_mem _ hx)),digitVal_digitChar d (hd.trans_le hb),
      Nat.ofDigits_cons]
    simp only [Option.getD_some]
    ring

variable {c : UInt8}

lemma isDigit_of_mem_render {n : ℕ} (hb : 1 < b) (hb' : b ≤ 16)
    (h : c ∈ render b n) : isDigit b c = true := by
  unfold render at h
  split_ifs at h with hn
  · obtain rfl := mem_singleton.mp h
    exact isDigit_digitChar (d := 0) hb' (by omega)
  · obtain ⟨d,hd,rfl⟩ := mem_map.mp h
    exact isDigit_digitChar hb' (Nat.digits_lt_base hb (mem_reverse.mp hd))

lemma value_render (hb : 1 < b) (hb' : b ≤ 16) (n : ℕ) : value b (render b n) = n := by
  unfold render
  split_ifs with hn
  · simp [value,digitVal,hn]
  · rw [value_map_digitChar hb' _ (fun d hd => Nat.digits_lt_base hb hd),Nat.ofDigits_digits]

lemma render_ne_nil (n : ℕ) : render b n ≠ [] := by
  unfold render
  split_ifs with hn
  · simp
  · simpa using Nat.digits_ne_nil_iff_ne_zero (b := b).mpr hn

lemma scan_render (hb : 1 < b) (hb' : b ≤ 16) (n : ℕ) (hc : isDigit b c = false)
    (rest : List UInt8) : scan b (render b n ++ c::rest) = n := by
  have htake : (render b n ++ c::rest).takeWhile (isDigit b) = render b n := by
    rw [takeWhile_append_of_pos (fun x hx => isDigit_of_mem_render hb hb' hx)]
    simp [hc]
  rw [scan,htake,value_render hb hb']

end SmoFramework.Library.Numeral
