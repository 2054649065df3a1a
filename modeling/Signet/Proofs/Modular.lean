import Mathlib.Algebra.Field.ZMod
import Mathlib.Tactic.LinearCombination
import Mathlib.Tactic.Ring
import Signet.Modular

/-! Powers and inverses modulo a number, as operations of the ring `ZMod`. -/
namespace Signet.Modular

theorem powBits_eq (modulus bits base exponent : Nat) (h : exponent < 2 ^ bits) :
    powBits modulus bits base exponent = base ^ exponent % modulus := by
  induction bits generalizing base exponent with
  | zero =>
      obtain rfl : exponent = 0 := by simpa using h
      simp [powBits]
  | succ bits ih =>
      have hHalf : exponent / 2 < 2 ^ bits := by
        rw [pow_succ] at h
        omega
      have hRest : powBits modulus bits (base * base % modulus) (exponent / 2) =
          (base * base) ^ (exponent / 2) % modulus := by
        rw [ih _ _ hHalf, ← Nat.pow_mod]
      rw [powBits, hRest]
      rcases Nat.even_or_odd' exponent with ⟨half, rfl | rfl⟩
      · have hDiv : 2 * half / 2 = half := by omega
        simp only [Nat.mul_mod_right, zero_ne_one, if_false, hDiv, ← pow_two, ← pow_mul]
      · have hDiv : (2 * half + 1) / 2 = half := by omega
        have hOdd : (2 * half + 1) % 2 = 1 := by omega
        rw [if_pos hOdd, hDiv, ← pow_two, ← pow_mul, pow_succ' base, Nat.mul_mod_mod]

theorem pow_eq (base exponent modulus : Nat) :
    pow base exponent modulus = base ^ exponent % modulus :=
  powBits_eq modulus _ base exponent Nat.lt_log2_self

theorem cast_pow (base exponent modulus : Nat) :
    (pow base exponent modulus : ZMod modulus) = (base : ZMod modulus) ^ exponent := by
  rw [pow_eq, ZMod.natCast_mod, Nat.cast_pow]

/-- A difference modulo a positive number, computed without negative numbers. -/
theorem cast_add_sub_mod {modulus : Nat} (pos : 0 < modulus) (t x : Nat) :
    (((t + (modulus - x % modulus)) % modulus : Nat) : ZMod modulus) = (t : ZMod modulus) - x := by
  have hLe : x % modulus ≤ modulus := (Nat.mod_lt x pos).le
  rw [ZMod.natCast_mod, Nat.cast_add, Nat.cast_sub hLe, ZMod.natCast_self, ZMod.natCast_mod]
  ring

/-- Euclid's algorithm ends with the greatest common divisor, and every number that it passes
through keeps its factor. The fuel suffices as long as it exceeds the second number. -/
theorem euclid_eq {modulus : Nat} (pos : 0 < modulus) (value : ZMod modulus)
    {fuel r t s u : Nat} (hFuel : s < fuel) (hr : (r : ZMod modulus) = (t : ZMod modulus) * value)
    (hs : (s : ZMod modulus) = (u : ZMod modulus) * value) :
    (euclid modulus fuel r t s u).1 = Nat.gcd r s ∧
      ((Nat.gcd r s : Nat) : ZMod modulus) =
        ((euclid modulus fuel r t s u).2 : ZMod modulus) * value := by
  induction fuel generalizing r t s u with
  | zero => omega
  | succ fuel ih =>
      rw [euclid]
      split_ifs with hZero
      · simp [hZero, hr]
      · have hDivision : (r : ZMod modulus) =
            (s : ZMod modulus) * ((r / s : Nat) : ZMod modulus) + ((r % s : Nat) : ZMod modulus) := by
          rw [← Nat.cast_mul, ← Nat.cast_add, Nat.div_add_mod]
        have hRest : ((r % s : Nat) : ZMod modulus) =
            (((t + (modulus - r / s * u % modulus)) % modulus : Nat) : ZMod modulus) * value := by
          rw [cast_add_sub_mod pos, Nat.cast_mul]
          linear_combination hr - hDivision - ((r / s : Nat) : ZMod modulus) * hs
        have hLess : r % s < fuel := by
          have := Nat.mod_lt r (Nat.pos_of_ne_zero hZero)
          omega
        have hStep := ih hLess hs hRest
        rwa [Nat.gcd_comm s, ← Nat.gcd_rec, Nat.gcd_comm] at hStep

/-- The first pair of Euclid's algorithm is the modulus, zero times the value, and the value. -/
theorem euclid_modulus_eq {modulus : Nat} (pos : 0 < modulus) (value : Nat) :
    (euclid modulus (modulus + 1) modulus 0 (value % modulus) 1).1 = Nat.gcd value modulus ∧
      ((Nat.gcd value modulus : Nat) : ZMod modulus) =
        ((euclid modulus (modulus + 1) modulus 0 (value % modulus) 1).2 : ZMod modulus) * value := by
  have hFuel : value % modulus < modulus + 1 := (Nat.mod_lt value pos).trans (Nat.lt_succ_self _)
  have h := euclid_eq pos (value : ZMod modulus) (r := modulus) (t := 0) (u := 1) hFuel
    (by simp) (by simp)
  rwa [Nat.gcd_comm, ← Nat.gcd_rec, Nat.gcd_comm] at h

theorem inverse?_isSome_iff {modulus : Nat} (pos : 0 < modulus) (value : Nat) :
    (inverse? value modulus).isSome ↔ Nat.Coprime value modulus := by
  have h := (euclid_modulus_eq pos value).1
  simp only [inverse?, h, Nat.Coprime]
  split_ifs with hOne <;> simp [hOne]

theorem cast_mul_of_inverse? {modulus value factor : Nat} (pos : 0 < modulus)
    (h : inverse? value modulus = some factor) :
    (factor : ZMod modulus) * (value : ZMod modulus) = 1 := by
  have hCoprime : Nat.gcd value modulus = 1 := (inverse?_isSome_iff pos value).mp (by simp [h])
  obtain ⟨hDivisor, hFactor⟩ := euclid_modulus_eq pos value
  rw [hCoprime] at hDivisor hFactor
  simp only [inverse?, hDivisor, if_true, Option.some.injEq] at h
  rw [← h, ← hFactor, Nat.cast_one]

/-- Modulo a prime, every number that is not divisible by it has an inverse. -/
theorem exists_inverse? {modulus value : Nat} [hPrime : Fact modulus.Prime]
    (h : (value : ZMod modulus) ≠ 0) :
    ∃ factor, inverse? value modulus = some factor ∧
      (factor : ZMod modulus) = (value : ZMod modulus)⁻¹ := by
  have hCoprime : Nat.Coprime value modulus :=
    Nat.Coprime.symm ((Nat.Prime.coprime_iff_not_dvd hPrime.out).mpr
      fun hDvd => h ((ZMod.natCast_eq_zero_iff value modulus).mpr hDvd))
  obtain ⟨factor, hFactor⟩ :=
    Option.isSome_iff_exists.mp ((inverse?_isSome_iff hPrime.out.pos value).mpr hCoprime)
  exact ⟨factor, hFactor, eq_inv_of_mul_eq_one_left (cast_mul_of_inverse? hPrime.out.pos hFactor)⟩

end Signet.Modular

namespace Signet.Residue

variable {m : Nat}

/-- A residue as an element of the ring of integers modulo `m`. -/
def toZMod (x : Residue m) : ZMod m := (x.val : ZMod m)

theorem toZMod_injective : Function.Injective (toZMod : Residue m → ZMod m) := by
  intro x y h
  have hMod := (ZMod.natCast_eq_natCast_iff' x.val y.val m).mp h
  rw [Nat.mod_eq_of_lt x.isLt, Nat.mod_eq_of_lt y.isLt] at hMod
  exact Fin.ext hMod

@[simp] theorem toZMod_inj {x y : Residue m} : toZMod x = toZMod y ↔ x = y :=
  toZMod_injective.eq_iff

theorem val_toZMod (x : Residue m) : (toZMod x).val = x.val :=
  ZMod.val_cast_of_lt x.isLt

@[simp] theorem toZMod_mul (x y : Residue m) : toZMod (x * y) = toZMod x * toZMod y := by
  simp [toZMod, Fin.val_mul]

@[simp] theorem toZMod_add (x y : Residue m) : toZMod (x + y) = toZMod x + toZMod y := by
  simp [toZMod, Fin.val_add]

@[simp] theorem toZMod_sub (x y : Residue m) : toZMod (x - y) = toZMod x - toZMod y := by
  have h := Modular.cast_add_sub_mod x.pos x.val y.val
  rw [Nat.mod_eq_of_lt y.isLt] at h
  simpa only [toZMod, Fin.sub_def, Nat.add_comm] using h

theorem toZMod_ofNat (pos : 0 < m) (value : Nat) : toZMod (ofNat m pos value) = (value : ZMod m) := by
  simp [toZMod, ofNat]

@[simp] theorem toZMod_neg (x : Residue m) : toZMod x.neg = -toZMod x := by
  rw [neg, toZMod_ofNat, Nat.cast_sub x.isLt.le, ZMod.natCast_self, zero_sub, toZMod]

theorem val_neg (x : Residue m) : x.neg.val = if x.val = 0 then 0 else m - x.val := by
  have hLess := x.isLt
  change (m - x.val) % m = _
  split_ifs with hZero
  · rw [hZero, Nat.sub_zero, Nat.mod_self]
  · exact Nat.mod_eq_of_lt (by omega)

@[simp] theorem neg_neg (x : Residue m) : x.neg.neg = x := by
  rw [← toZMod_inj, toZMod_neg, toZMod_neg]
  ring

theorem neg_mul_neg (x : Residue m) : x.neg * x.neg = x * x := by
  rw [← toZMod_inj, toZMod_mul, toZMod_mul, toZMod_neg]
  ring

/-- Modulo a prime two residues with one square are equal or each other's negatives. -/
theorem eq_or_eq_neg_of_mul_self_eq [Fact m.Prime] {x y : Residue m} (h : x * x = y * y) :
    x = y ∨ x = y.neg := by
  have hSquare := congrArg toZMod h
  rw [toZMod_mul, toZMod_mul, mul_self_eq_mul_self_iff] at hSquare
  rw [← toZMod_inj, ← toZMod_inj, toZMod_neg]
  exact hSquare

@[simp] theorem toZMod_pow (x : Residue m) (exponent : Nat) :
    toZMod (x.pow exponent) = toZMod x ^ exponent := by
  rw [pow, toZMod_ofNat, Modular.cast_pow, toZMod]

@[simp] theorem toZMod_inv [hPrime : Fact m.Prime] (x : Residue m) :
    toZMod x.inv = (toZMod x)⁻¹ := by
  rw [inv, toZMod_ofNat]
  by_cases hZero : toZMod x = 0
  · have hNone : Modular.inverse? x.val m = none := by
      rw [← Option.not_isSome_iff_eq_none, Modular.inverse?_isSome_iff hPrime.out.pos]
      intro hCoprime
      have hDvd : m ∣ x.val := (ZMod.natCast_eq_zero_iff x.val m).mp hZero
      exact hPrime.out.one_lt.ne' (Nat.eq_one_of_dvd_coprimes hCoprime hDvd dvd_rfl)
    rw [hNone, hZero, inv_zero, Option.getD_none, Nat.cast_zero]
  · obtain ⟨factor, hFactor, hInverse⟩ := Modular.exists_inverse? hZero
    rw [hFactor, Option.getD_some, hInverse, toZMod]

@[simp] theorem toZMod_div [Fact m.Prime] (x y : Residue m) :
    toZMod (x.div y) = toZMod x / toZMod y := by
  rw [div, toZMod_mul, toZMod_inv, div_eq_mul_inv]

end Signet.Residue
