import Signet.Proofs.Curve.Group

/-! Scalars of a curve are the residues other than zero modulo the order of its base point. -/
namespace Signet.Curve

variable {c : Curve}

theorem scalar?_eq_some_iff {value : Nat} {scalar : c.Scalar} :
    c.scalar? value = some scalar ↔ value = scalar.val := by
  rw [scalar?]
  split_ifs with h
  · rw [Option.some.injEq, Subtype.ext_iff]
  · refine ⟨fun hNone => absurd hNone (by simp), ?_⟩
    rintro rfl
    exact absurd scalar.property h

theorem scalar?_eq_none_iff {value : Nat} :
    c.scalar? value = none ↔ ¬(0 < value ∧ value < c.n) := by
  rw [scalar?]
  split_ifs with h <;> simp [h]

theorem scalar?_val (scalar : c.Scalar) : c.scalar? scalar.val = some scalar :=
  scalar?_eq_some_iff.mpr rfl

/-- A scalar as a residue modulo the order of the base point. -/
def Scalar.toZMod (scalar : c.Scalar) : ZMod c.n := (scalar.val : ZMod c.n)

theorem Scalar.val_toZMod (scalar : c.Scalar) : (Scalar.toZMod scalar).val = scalar.val :=
  ZMod.val_cast_of_lt scalar.property.2

theorem Scalar.toZMod_ne_zero (scalar : c.Scalar) : Scalar.toZMod scalar ≠ 0 := by
  intro h
  have hVal := congrArg ZMod.val h
  rw [val_toZMod, ZMod.val_zero] at hVal
  exact scalar.property.1.ne' hVal

variable [c.Lawful]

theorem scalar?_zmod_val_eq_some_iff {x : ZMod c.n} {scalar : c.Scalar} :
    c.scalar? x.val = some scalar ↔ x = scalar.toZMod := by
  rw [scalar?_eq_some_iff, ← scalar.val_toZMod, (ZMod.val_injective c.n).eq_iff]

theorem scalar?_zmod_val_eq_none_iff {x : ZMod c.n} : c.scalar? x.val = none ↔ x = 0 := by
  rw [← ZMod.val_eq_zero, scalar?, dite_eq_right_iff]
  have hLess := x.val_lt
  constructor
  · intro h
    by_contra hZero
    exact absurd (h ⟨Nat.pos_of_ne_zero hZero, hLess⟩) (by simp)
  · intro hZero h
    exact absurd h.1 (by simp [hZero])

/-- The residues other than zero are those of scalars. -/
theorem exists_scalar {x : ZMod c.n} (h : x ≠ 0) : ∃ scalar : c.Scalar, x = scalar.toZMod := by
  obtain ⟨scalar, hScalar⟩ :=
    Option.ne_none_iff_exists'.mp (mt scalar?_zmod_val_eq_none_iff.mp h)
  exact ⟨scalar, scalar?_zmod_val_eq_some_iff.mp hScalar⟩

end Signet.Curve
