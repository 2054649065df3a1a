import Mathlib.Algebra.Group.Nat.Defs
import Signet.Bytes

/-! Numbers as byte strings of a fixed width. -/
namespace Signet

namespace Bytes

/-- Writing a number and reading it back keeps what fits into the width. -/
theorem ofBigEndian_bigEndian (width value : Nat) :
    ofBigEndian (bigEndian width value) = value % 256 ^ width := by
  rw [ofBigEndian, bigEndian, List.reverse_reverse, ofLittleEndian_littleEndian, Nat.pow_eq]

theorem ofBigEndian_bigEndian_of_lt {width value : Nat} (h : value < 256 ^ width) :
    ofBigEndian (bigEndian width value) = value := by
  rw [ofBigEndian_bigEndian, Nat.mod_eq_of_lt h]

/-- Reading a string and writing it back at its own width restores it. -/
theorem bigEndian_ofBigEndian (bytes : Bytes) :
    bigEndian bytes.length (ofBigEndian bytes) = bytes := by
  have h := littleEndian_ofLittleEndian bytes.reverse
  rw [List.length_reverse] at h
  rw [bigEndian, ofBigEndian, h, List.reverse_reverse]

theorem ofLittleEndian_injective {left right : Bytes} (hLength : left.length = right.length)
    (h : ofLittleEndian left = ofLittleEndian right) : left = right := by
  rw [← littleEndian_ofLittleEndian left, ← littleEndian_ofLittleEndian right, hLength, h]

theorem ofBigEndian_injective {left right : Bytes} (hLength : left.length = right.length)
    (h : ofBigEndian left = ofBigEndian right) : left = right := by
  rw [← bigEndian_ofBigEndian left, h, hLength, bigEndian_ofBigEndian]

/-- Each byte is found in the number by a shift. -/
theorem getElem?_eq_shiftRight {bytes : Bytes} {place : Nat} (h : place < bytes.length) :
    bytes[place]? = some (UInt8.ofNat (ofLittleEndian bytes >>> (8 * place))) := by
  induction bytes generalizing place with
  | nil => cases h
  | cons byte rest ih =>
      cases place with
      | zero => exact congrArg some (ofNat_ofLittleEndian_cons byte rest).symm
      | succ place =>
          have hRest : ofLittleEndian (byte :: rest) >>> 8 = ofLittleEndian rest :=
            (Nat.shiftRight_eq_div_pow _ 8).trans (ofLittleEndian_cons_div byte rest)
          rw [List.getElem?_cons_succ, ih (Nat.lt_of_succ_lt_succ h), Nat.mul_succ, Nat.add_comm _ 8,
            Nat.shiftRight_add, hRest]

end Bytes

theorem Octets.toNat_injective {width : Nat} {left right : Octets width}
    (h : left.toNat = right.toNat) : left = right := by
  have hLeft := Bytes.bigEndian_ofBigEndian left.val
  have hRight := Bytes.bigEndian_ofBigEndian right.val
  rw [left.property] at hLeft
  rw [right.property] at hRight
  exact Subtype.ext (hLeft.symm.trans ((congrArg (Bytes.bigEndian width) h).trans hRight))

end Signet
