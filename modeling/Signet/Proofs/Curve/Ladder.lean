import Mathlib.Algebra.Group.Nat.Even
import Mathlib.Tactic.Ring
import Mathlib.Tactic.SplitIfs
import Signet.Curve.Edwards
import Signet.Curve.Weierstrass

/-! Multiples that are computed bit by bit. What holds of zero with the number zero, and of sums with sums
of numbers, holds of each multiple with its factor. The addition need not be associative for that. -/
namespace Signet

section Ladder

variable {α : Type} {zero : α} {add : α → α → α}

/-- A multiple of an element by a number of at most `bits` binary digits. -/
def ladder (zero : α) (add : α → α → α) : (bits factor : Nat) → α → α
  | 0, _, _ => zero
  | bits + 1, factor, a =>
      let rest := ladder zero add bits (factor / 2) (add a a)
      if factor % 2 = 1 then add a rest else rest

/-- The induction goes through for an element that belongs to any number, since the element is doubled. -/
theorem ladder_induction_unit {P : α → Nat → Prop} (hZero : P zero 0)
    (hAdd : ∀ {a b m n}, P a m → P b n → P (add a b) (m + n))
    {a : α} {unit bits factor : Nat} (h : P a unit) (hFactor : factor < 2 ^ bits) :
    P (ladder zero add bits factor a) (factor * unit) := by
  induction bits generalizing a unit factor with
  | zero =>
      obtain rfl : factor = 0 := by simpa using hFactor
      rw [Nat.zero_mul]
      exact hZero
  | succ bits ih =>
      have hHalf : factor / 2 < 2 ^ bits := by
        rw [pow_succ] at hFactor
        omega
      have hRest := ih (hAdd h h) hHalf
      rw [ladder]
      rcases Nat.even_or_odd' factor with ⟨half, rfl | rfl⟩
      · rw [if_neg (by omega)]
        rw [Nat.mul_div_cancel_left half two_pos] at hRest ⊢
        rwa [show 2 * half * unit = half * (unit + unit) by ring]
      · rw [if_pos (by omega)]
        have hSum := hAdd h hRest
        rw [show (2 * half + 1) / 2 = half by omega] at hSum ⊢
        rwa [show (2 * half + 1) * unit = unit + half * (unit + unit) by ring]

theorem ladder_induction {P : α → Nat → Prop} (hZero : P zero 0)
    (hAdd : ∀ {a b m n}, P a m → P b n → P (add a b) (m + n))
    {a : α} {bits factor : Nat} (h : P a 1) (hFactor : factor < 2 ^ bits) :
    P (ladder zero add bits factor a) factor := by
  have hMultiple := ladder_induction_unit hZero hAdd h hFactor
  rwa [Nat.mul_one] at hMultiple

end Ladder

namespace Point

variable {c : Curve}

theorem mulBits_eq_ladder (bits factor : Nat) (q : Point c) :
    mulBits bits factor q = ladder infinity add bits factor q := by
  induction bits generalizing factor q with
  | zero => rfl
  | succ bits ih => rw [mulBits, ladder, ih]

theorem mul_induction {P : Point c → Nat → Prop} (hZero : P infinity 0)
    (hAdd : ∀ {q r m n}, P q m → P r n → P (q.add r) (m + n))
    {q : Point c} (h : P q 1) (factor : Nat) : P (q.mul factor) factor := by
  rw [mul, mulBits_eq_ladder]
  exact ladder_induction hZero hAdd h Nat.lt_log2_self

end Point

namespace Edwards.Point

theorem mulBits_eq_ladder (bits factor : Nat) (q : Point) :
    mulBits bits factor q = ladder neutral add bits factor q := by
  induction bits generalizing factor q with
  | zero => rfl
  | succ bits ih => rw [mulBits, ladder, ih]

theorem mul_induction {P : Point → Nat → Prop} (hZero : P neutral 0)
    (hAdd : ∀ {q r m n}, P q m → P r n → P (q.add r) (m + n))
    {q : Point} (h : P q 1) (factor : Nat) : P (q.mul factor) factor := by
  rw [mul, mulBits_eq_ladder]
  exact ladder_induction hZero hAdd h Nat.lt_log2_self

end Edwards.Point

end Signet
