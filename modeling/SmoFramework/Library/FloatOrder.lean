import Mathlib.Data.Prod.Lex

/-! The order of binary64 numbers. Sign, exponent and mantissa of a number place it in a linear order that
`<` and `==` follow; both zeros have the same place. -/
namespace SmoFramework.Library.FloatOrder
open Float.Model Ordering

/-- The place of a number; that of a value that is not a number is of no use. -/
def place : UnpackedFloat → ℤ × ℤ × ℤ
  | .infinity .negative => (-2,0,0)
  | .finite .negative m e _ => (-1,-e,-m)
  | .zero _ => (0,0,0)
  | .finite .positive m e _ => (1,e,m)
  | .infinity .positive => (2,0,0)
  | .notANumber => (0,0,0)

def comparePlaces (p q : ℤ × ℤ × ℤ) : Ordering :=
  (compare p.1 q.1).then ((compare p.2.1 q.2.1).then (compare p.2.2 q.2.2))

lemma compare_neg (a b : ℤ) : compare (-a) (-b) = (compare a b).swap := by
  rcases lt_trichotomy a b with h | h | h
  · rw [compare_lt_iff_lt.mpr h,compare_gt_iff_gt.mpr (Int.neg_lt_neg h)]
    rfl
  · rw [compare_eq_iff_eq.mpr h,compare_eq_iff_eq.mpr (congrArg Neg.neg h)]
    rfl
  · rw [compare_gt_iff_gt.mpr h,compare_lt_iff_lt.mpr (Int.neg_lt_neg h)]
    rfl

lemma compare_natCast (m n : ℕ) : compare (m : ℤ) n = compare m n := by
  rcases lt_trichotomy m n with h | h | h
  · rw [compare_lt_iff_lt.mpr h,compare_lt_iff_lt.mpr (Int.ofNat_lt.mpr h)]
  · rw [compare_eq_iff_eq.mpr h,compare_eq_iff_eq.mpr (congrArg Nat.cast h)]
  · rw [compare_gt_iff_gt.mpr h,compare_gt_iff_gt.mpr (Int.ofNat_lt.mpr h)]

lemma compare_eq {x y : UnpackedFloat} (hx : x.isNaN = false) (hy : y.isNaN = false) :
    x.compare y = some (comparePlaces (place x) (place y)) := by
  cases x with
  | notANumber => cases hx
  | infinity s =>
    cases y with
    | notANumber => cases hy
    | infinity t => cases s <;> cases t <;> rfl
    | zero t => cases s <;> rfl
    | finite t m e h => cases s <;> cases t <;> rfl
  | zero s =>
    cases y with
    | notANumber => cases hy
    | infinity t => cases t <;> rfl
    | zero t => rfl
    | finite t m e h => cases t <;> rfl
  | finite s m e h =>
    cases y with
    | notANumber => cases hy
    | infinity t => cases s <;> cases t <;> rfl
    | zero t => cases s <;> rfl
    | finite t m' e' h' =>
      cases s with
      | negative =>
        cases t with
        | negative =>
          change some ((compare e e').then (compare m m')).swap =
            some ((compare (-e) (-e')).then (compare (-(m : ℤ)) (-(m' : ℤ))))
          rw [compare_neg,compare_neg,compare_natCast,swap_then]
        | positive => rfl
      | positive =>
        cases t with
        | negative => rfl
        | positive =>
          change some ((compare e e').then (compare m m')) =
            some ((compare e e').then (compare (m : ℤ) m'))
          rw [compare_natCast]

def rank (x : Float) : ℤ ×ₗ ℤ ×ₗ ℤ :=
  toLex ((place x.toModel.unpack).1,toLex (place x.toModel.unpack).2)

section
variable {x y : Float}

lemma lt_iff (hx : x.isNaN = false) (hy : y.isNaN = false) : x < y ↔ rank x < rank y := by
  have hcompare : x < y ↔ x.toModel.unpack.compare y.toModel.unpack = some .lt := by
    change decide (x.toModel < y.toModel) = true ↔ _
    rw [decide_eq_true_eq]
    exact beq_iff_eq
  rw [hcompare,compare_eq hx hy,Option.some.injEq,comparePlaces,then_eq_lt,
    then_eq_lt,compare_lt_iff_lt,compare_lt_iff_lt,compare_lt_iff_lt,compare_eq_iff_eq,
    compare_eq_iff_eq,rank,rank,Prod.Lex.toLex_lt_toLex,Prod.Lex.toLex_lt_toLex]

lemma beq_iff (hx : x.isNaN = false) (hy : y.isNaN = false) : (x == y) = true ↔ rank x = rank y := by
  have hcompare : (x == y) = true ↔ x.toModel.unpack.compare y.toModel.unpack = some .eq := by
    change (x.toModel.unpack.compare y.toModel.unpack == some .eq) = true ↔ _
    exact beq_iff_eq
  rw [hcompare,compare_eq hx hy,Option.some.injEq,comparePlaces,then_eq_eq,
    then_eq_eq,compare_eq_iff_eq,compare_eq_iff_eq,compare_eq_iff_eq]
  simp [rank,Prod.ext_iff]

end

end SmoFramework.Library.FloatOrder
