import Signet.Curve.Encoding

/-! The forms in which points are written and read. -/
namespace Signet.Point

variable {c : Curve}

@[simp] theorem length_coordinateBytes (x : Residue c.p) : (coordinateBytes x).length = c.width :=
  Bytes.length_bigEndian _ _

theorem length_encodeUncompressed (point : Point c) :
    point.encodeUncompressed.length = 1 ∨ point.encodeUncompressed.length = 2 * c.width + 1 := by
  cases point with
  | infinity => exact .inl rfl
  | affine x y =>
      right
      rw [encodeUncompressed, List.length_cons, List.length_append, length_coordinateBytes,
        length_coordinateBytes]
      omega

/-- The form with one coordinate begins with zero for infinity and with two or three otherwise. -/
theorem encodeCompressed_form (point : Point c) :
    point.encodeCompressed = [0] ∨ ∃ tag rest, point.encodeCompressed = tag :: rest ∧
      (tag = 2 ∨ tag = 3) ∧ rest.length = c.width := by
  cases point with
  | infinity => exact .inl rfl
  | affine x y =>
      refine .inr ⟨_, coordinateBytes x, rfl, ?_, length_coordinateBytes x⟩
      split
      · exact .inl rfl
      · exact .inr rfl

/-- A string that stands for a point has both coordinates after a four, or one of them after a two, a
three or a five. -/
theorem form_of_decode?_eq_some {bytes : Bytes} {point : Point c} (h : decode? c bytes = some point) :
    ∃ tag rest, bytes = tag :: rest ∧ (tag = 4 ∧ rest.length = 2 * c.width ∨
      (tag = 2 ∨ tag = 3 ∨ tag = 5) ∧ rest.length = c.width) := by
  cases bytes with
  | nil => cases h
  | cons tag rest =>
      refine ⟨tag, rest, rfl, ?_⟩
      rw [decode?] at h
      split at h
      next hBoth => exact .inl hBoth
      next =>
        split at h
        next hLength =>
          obtain ⟨x, -, hTag⟩ := Option.bind_eq_some_iff.mp h
          refine .inr ⟨?_, hLength⟩
          split at hTag
          next hTwo => exact .inl hTwo
          next =>
            split at hTag
            next hThree => exact .inr (.inl hThree)
            next =>
              split at hTag
              next hFive => exact .inr (.inr hFive)
              next => cases hTag
        next => cases h

end Signet.Point
