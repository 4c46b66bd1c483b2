/-
Rounded averages of fixed-point numbers.

A weight is a part of `one`, the average of two numbers is taken with a weight and the
rest of it, and what it has below the point is rounded to the nearest.  The rounding
never takes an average out of the range of the two, because the ends of the range are
numbers of the format themselves.
-/
import Mathlib.Data.Nat.Basic

namespace FixedPoint

variable {one e a b lo hi : Nat}

/-- The average of two numbers, with weight `e` and the rest of `one`. -/
def mix (one e a b : Nat) : Nat := (a * e + b * (one - e) + one / 2) / one

/-- What is rounded is no more than an upper bound of the two, unrounded. -/
theorem weighted_le (he : e ≤ one) (ha : a ≤ hi) (hb : b ≤ hi) :
    a * e + b * (one - e) ≤ hi * one := by
  calc a * e + b * (one - e) ≤ hi * e + hi * (one - e) :=
        Nat.add_le_add (Nat.mul_le_mul_right e ha) (Nat.mul_le_mul_right (one - e) hb)
    _ = hi * (e + (one - e)) := (Nat.mul_add hi e (one - e)).symm
    _ = hi * one := by rw [Nat.add_sub_cancel' he]

theorem le_weighted (he : e ≤ one) (ha : lo ≤ a) (hb : lo ≤ b) :
    lo * one ≤ a * e + b * (one - e) := by
  calc lo * one = lo * (e + (one - e)) := by rw [Nat.add_sub_cancel' he]
    _ = lo * e + lo * (one - e) := Nat.mul_add lo e (one - e)
    _ ≤ a * e + b * (one - e) :=
        Nat.add_le_add (Nat.mul_le_mul_right e ha) (Nat.mul_le_mul_right (one - e) hb)

/-- **An average is no more than either bound of the two from above.** -/
theorem mix_le (hone : 0 < one) (he : e ≤ one) (ha : a ≤ hi) (hb : b ≤ hi) :
    mix one e a b ≤ hi := by
  have hsum := weighted_le he ha hb
  have hhalf : one / 2 < one := Nat.div_lt_self hone Nat.one_lt_two
  have hnext : (hi + 1) * one = hi * one + one := Nat.succ_mul hi one
  refine Nat.le_of_lt_succ ((Nat.div_lt_iff_lt_mul hone).mpr ?_)
  show a * e + b * (one - e) + one / 2 < (hi + 1) * one
  omega

/-- **And no less from below.** -/
theorem le_mix (hone : 0 < one) (he : e ≤ one) (ha : lo ≤ a) (hb : lo ≤ b) :
    lo ≤ mix one e a b := by
  have hsum := le_weighted he ha hb
  refine (Nat.le_div_iff_mul_le hone).mpr ?_
  omega

/-- A rounded product is an average with zero. -/
theorem mul_eq_mix (one e a : Nat) : (a * e + one / 2) / one = mix one e a 0 := by
  rw [mix, Nat.zero_mul, Nat.add_zero]

end FixedPoint
