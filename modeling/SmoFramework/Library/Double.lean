import Mathlib.Algebra.Order.Ring.Rat
import Mathlib.Order.WithBot

/-! Binary floating-point values as far as comparisons see them: not a number, or a point of the
extended number line. Both zeros are the same point. -/
namespace SmoFramework.Library

inductive Double
  | nan
  | number (x : WithBot (WithTop ℚ))
  deriving DecidableEq

namespace Double

/-- A machine integer of at most 53 bits is converted without rounding. -/
def ofInt (n : ℤ) : Double := number ((n : ℚ) : WithTop ℚ)

/-- IEEE `<`: false as soon as one side is not a number. -/
def lt : Double → Double → Bool
  | number x,number y => x < y
  | _,_ => false

/-- IEEE `<=`. -/
def le : Double → Double → Bool
  | number x,number y => x ≤ y
  | _,_ => false

lemma ofInt_le_iff {n : ℤ} {x : Double} : (ofInt n).le x ↔ x ≠ nan ∧ ¬x.lt (ofInt n) := by
  cases x <;> simp [le,lt,ofInt]

lemma le_ofInt_iff {n : ℤ} {x : Double} : x.le (ofInt n) ↔ x ≠ nan ∧ ¬(ofInt n).lt x := by
  cases x <;> simp [le,lt,ofInt]

end Double

end SmoFramework.Library
