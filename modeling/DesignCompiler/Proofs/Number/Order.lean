import Mathlib.Data.Prod.Lex
import Mathlib.Order.Compare
import Mathlib.Algebra.Order.Ring.Int
import DesignCompiler.Proofs.Number.Arithmetic
/-!
# The order of floats

Floats are compared by side of zero, then by exponent, then by mantissa, and one that is not a
number compares with nothing. `place` puts the three into one triple, and a comparison of numbers is
the comparison of their places (`le_iff_place`). Triples of integers are in a linear order, so among
numbers what is not less is at least as great (`Float.not_lt`), comparisons can be chained
(`Float.le_trans`), and `Float.larger` is the greater one (`Float.le_larger_iff`).
-/

namespace DesignCompiler

open Float.Model (UnpackedFloat)

/-! ### Places -/

/-- **The place of a number on the line:** the side of zero, with the infinities farther out, then
the exponent and the mantissa, which count down on the left of zero. -/
def place : UnpackedFloat → ℤ ×ₗ ℤ ×ₗ ℤ
  | .infinity .negative => toLex (-2, toLex (0, 0))
  | .finite .negative m q _ => toLex (-1, toLex (-q, -m))
  | .notANumber | .zero _ => toLex (0, toLex (0, 0))
  | .finite .positive m q _ => toLex (1, toLex (q, m))
  | .infinity .positive => toLex (2, toLex (0, 0))

/-- Sizes are compared by the exponents first. -/
theorem isLE_then_iff (q r : Int) (m n : Nat) :
    ((compare q r).then (compare m n)).isLE = true ↔ q < r ∨ q = r ∧ m ≤ n := by
  simp [Ordering.isLE_then_iff_or, compare_lt_iff_lt, Nat.isLE_compare]

variable {x y z : UnpackedFloat}

/-- **Numbers are compared by their places.** -/
theorem le_iff_place (hx : x ≠ .notANumber) (hy : y ≠ .notANumber) :
    x.le y = true ↔ place x ≤ place y := by
  rcases x with s | _ | s | ⟨s, m, q, hm⟩ <;> rcases y with t | _ | t | ⟨t, n, r, hn⟩ <;>
    try cases s
  all_goals try cases t
  -- On different sides of zero, or with an infinity, the side decides.
  all_goals
    simp [UnpackedFloat.le, UnpackedFloat.compare, place, Prod.Lex.toLex_le_toLex,
      isLE_then_iff] at hx hy ⊢
  case infinity.infinity.negative.negative => decide
  case infinity.infinity.negative.positive => decide
  case infinity.infinity.positive.negative => decide
  case infinity.infinity.positive.positive => decide
  case finite.finite.negative.negative =>
    rw [← Ordering.isLE_swap, Ordering.swap_then, Int.compare_swap, Nat.compare_swap,
      isLE_then_iff]
    omega

/-- Numbers in order are numbers. -/
theorem ne_notANumber_of_le (h : x.le y = true) : x ≠ .notANumber ∧ y ≠ .notANumber := by
  constructor
  · rintro rfl
    exact Bool.noConfusion h
  · rintro rfl
    cases x <;> exact Bool.noConfusion h

/-- Of two numbers, one is less than the other if the other is not at most as great. -/
theorem lt_iff_not_le (hx : x ≠ .notANumber) (hy : y ≠ .notANumber) :
    x.lt y = true ↔ ¬y.le x = true := by
  have hcompared : x.compare y ≠ none := by
    intro hnone
    -- Two numbers always compare: their places are in order one way or the other.
    rcases le_total (place x) (place y) with h | h
    · have hle := (le_iff_place hx hy).mpr h
      rw [UnpackedFloat.le, hnone] at hle
      exact Bool.noConfusion hle
    · have hle := (le_iff_place hy hx).mpr h
      rw [UnpackedFloat.le, ← compare_swap x y, hnone] at hle
      exact Bool.noConfusion hle
  rw [UnpackedFloat.lt, UnpackedFloat.le, ← compare_swap x y]
  generalize x.compare y = order at hcompared ⊢
  rcases order with _ | _ | _ | _
  · exact absurd rfl hcompared
  · decide
  · decide
  · decide

/-- The order of unpacked numbers is that of their places, hence transitive. -/
theorem le_trans_unpacked (hxy : x.le y = true) (hyz : y.le z = true) : x.le z = true := by
  obtain ⟨hx, hy⟩ := ne_notANumber_of_le hxy
  have hz := (ne_notANumber_of_le hyz).2
  rw [le_iff_place hx hy] at hxy
  rw [le_iff_place hy hz] at hyz
  exact (le_iff_place hx hz).mpr (hxy.trans hyz)

/-! ### Floats -/

namespace Float

variable {a b c : Float}

/-- Numbers are ordered as they unpack. -/
theorem le_iff (a b : Float) : a ≤ b ↔ a.toModel.unpack.le b.toModel.unpack = true := by
  change Float.le a b = true ↔ _
  rw [Float.le, decide_eq_true_iff]
  rfl

/-- The strict order, likewise. -/
theorem lt_iff (a b : Float) : a < b ↔ a.toModel.unpack.lt b.toModel.unpack = true := by
  change Float.lt a b = true ↔ _
  rw [Float.lt, decide_eq_true_iff]
  rfl

/-- What is no NaN unpacks to none. -/
theorem ne_notANumber (h : a.isNaN = false) : a.toModel.unpack ≠ .notANumber := by
  intro hnan
  have hfalse : a.toModel.unpack.isNaN = false := h
  rw [hnan] at hfalse
  exact Bool.noConfusion hfalse

theorem le_trans (hab : a ≤ b) (hbc : b ≤ c) : a ≤ c := by
  rw [le_iff] at hab hbc ⊢
  exact le_trans_unpacked hab hbc

/-- **Among numbers, what is not less is at least as great.** -/
theorem not_lt (ha : a.isNaN = false) (hb : b.isNaN = false) : ¬a < b ↔ b ≤ a := by
  rw [lt_iff, le_iff, lt_iff_not_le (ne_notANumber ha) (ne_notANumber hb), not_not]

theorem le_refl (ha : a.isNaN = false) : a ≤ a := by
  rw [le_iff, le_iff_place (ne_notANumber ha) (ne_notANumber ha)]

theorem le_of_lt (ha : a.isNaN = false) (hb : b.isNaN = false) (h : a < b) : a ≤ b := by
  rw [lt_iff, lt_iff_not_le (ne_notANumber ha) (ne_notANumber hb),
    le_iff_place (ne_notANumber hb) (ne_notANumber ha), not_le] at h
  rw [le_iff, le_iff_place (ne_notANumber ha) (ne_notANumber hb)]
  exact h.le

/-- **What the greater of two numbers reaches** is what one of them reaches. -/
theorem le_larger_iff (ha : a.isNaN = false) (hb : b.isNaN = false) :
    c ≤ larger a b ↔ c ≤ a ∨ c ≤ b := by
  rw [larger, ha]
  by_cases hlt : a < b
  · rw [if_pos (by simp [hlt])]
    exact ⟨Or.inr, fun h => h.elim (fun h => le_trans h (le_of_lt ha hb hlt)) id⟩
  · rw [if_neg (by simp [hlt])]
    exact ⟨Or.inl, fun h => h.elim id fun h => le_trans h ((not_lt ha hb).mp hlt)⟩

end Float

end DesignCompiler
