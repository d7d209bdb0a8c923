import Mathlib.Algebra.Order.Floor.Ring
import Mathlib.Tactic.Linarith

/-!
# Spans and their integral hulls

A span is what lies between two bounds.  Pixels are spans between neighbouring integers, so what a
device draws of a span with fractional bounds is its `hull`, the smallest span with integral bounds
that contains it (`hull_within_iff`).

`middle n m` is the span of length `m` in the middle of `n` pixels.  Its bounds are integral only if
`n` and `m` have the same parity.  Otherwise they are halves, and the hull is longer by one
(`hull_middle`).
-/

set_option autoImplicit false

namespace Spans

universe u

/-- What lies between two bounds. -/
structure Span (R : Type u) where
  lo : R
  hi : R

namespace Span

variable {R : Type u}

/-- The span lies within the other. -/
def Within [LE R] (s t : Span R) : Prop := t.lo ≤ s.lo ∧ s.hi ≤ t.hi

/-- What two spans have in common. -/
def inter [Min R] [Max R] (s t : Span R) : Span R := ⟨max s.lo t.lo, min s.hi t.hi⟩

theorem inter_of_within [LinearOrder R] {s t : Span R} (h : s.Within t) : s.inter t = s := by
  rw [inter, max_eq_left h.1, min_eq_left h.2]

section Hull

variable [Field R] [LinearOrder R] [FloorRing R]

/-- The smallest span with integral bounds that contains the span. -/
def hull (s : Span R) : Span ℤ := ⟨⌊s.lo⌋, ⌈s.hi⌉⟩

/-- **The hull is the smallest**: an integral span contains it exactly if it contains the span. -/
theorem hull_within_iff {s : Span R} {t : Span ℤ} :
    s.hull.Within t ↔ s.Within ⟨(t.lo : R), (t.hi : R)⟩ := by
  rw [Within, Within, hull, Int.le_floor, Int.ceil_le]

variable (R) in
/-- The span of length `m` in the middle of the span from `0` to `n`. -/
def middle (n m : ℕ) : Span R := ⟨((n : R) - m) / 2, ((n : R) - m) / 2 + m⟩

variable [IsStrictOrderedRing R]

theorem floor_half (d : ℕ) : ⌊(d : R) / 2⌋ = (d / 2 : ℕ) := by
  rw [Int.floor_eq_iff]
  rcases Nat.even_or_odd' d with ⟨k, rfl | rfl⟩
  · rw [Nat.mul_div_cancel_left k two_pos]
    push_cast
    constructor <;> linarith
  · rw [show (2 * k + 1) / 2 = k by omega]
    push_cast
    constructor <;> linarith

theorem ceil_half (d : ℕ) : ⌈(d : R) / 2⌉ = ((d + 1) / 2 : ℕ) := by
  rw [Int.ceil_eq_iff]
  rcases Nat.even_or_odd' d with ⟨k, rfl | rfl⟩
  · rw [show (2 * k + 1) / 2 = k by omega]
    push_cast
    constructor <;> linarith
  · rw [show (2 * k + 1 + 1) / 2 = k + 1 by omega]
    push_cast
    constructor <;> linarith

/-- **The hull of the middle** leaves the same margin on both sides. -/
theorem hull_middle {n m : ℕ} (h : m ≤ n) :
    (middle R n m).hull = ⟨((n - m) / 2 : ℕ), (n - (n - m) / 2 : ℕ)⟩ := by
  rw [middle, hull, ← Nat.cast_sub h, Int.ceil_add_natCast, floor_half, ceil_half, ← Nat.cast_add]
  have hhi : (n - m + 1) / 2 + m = n - (n - m) / 2 := by omega
  rw [hhi]

end Hull

end Span

end Spans
