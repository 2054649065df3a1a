import Mathlib.Algebra.Group.Nat.Defs
import Signet.Proofs.Bytes
import Signet.Rsa.Pss

/-! The probabilistic encoding of a digest is recognized as one of this digest: the mask comes off again,
in every number of bits. -/
namespace Signet

/-- A mask of the same length comes off when it is put on twice. -/
theorem Bytes.xor_xor_cancel {left mask : Bytes} (h : left.length = mask.length) :
    xor (xor left mask) mask = left := by
  induction left generalizing mask with
  | nil => rfl
  | cons byte rest ih =>
      cases mask with
      | nil => cases h
      | cons other mask =>
          have hRest := ih (Nat.succ.inj h)
          simp only [xor, List.zipWith_cons_cons] at hRest ⊢
          rw [hRest, UInt8.xor_assoc, UInt8.xor_self, UInt8.xor_zero]

namespace Rsa

section ClearHigh

variable {count : Nat}

/-- A byte with its highest bits cleared. -/
theorem toNat_clear (count : Nat) (byte : UInt8) :
    (UInt8.ofNat (byte.toNat % Nat.pow 2 (8 - count))).toNat = byte.toNat % 2 ^ (8 - count) := by
  have hLess := byte.toNat_lt
  have hLe := Nat.mod_le byte.toNat (2 ^ (8 - count))
  exact UInt8.toNat_ofNat_of_lt' (show byte.toNat % 2 ^ (8 - count) < 256 by omega)

@[simp] theorem length_clearHigh (count : Nat) (bytes : Bytes) :
    (clearHigh count bytes).length = bytes.length := by
  cases bytes <;> rfl

theorem clearHigh_clearHigh (count : Nat) (bytes : Bytes) :
    clearHigh count (clearHigh count bytes) = clearHigh count bytes := by
  cases bytes with
  | nil => rfl
  | cons byte rest =>
      rw [clearHigh, clearHigh, toNat_clear, Nat.pow_eq, Nat.mod_mod]

/-- Bits that are cleared in the end may be cleared before a mask comes off. -/
theorem clearHigh_xor_clearHigh (count : Nat) (left mask : Bytes) :
    clearHigh count (Bytes.xor (clearHigh count left) mask) = clearHigh count (Bytes.xor left mask) := by
  cases left with
  | nil => rfl
  | cons byte rest =>
      cases mask with
      | nil => rfl
      | cons other mask =>
          simp only [clearHigh, Bytes.xor, List.zipWith_cons_cons, List.cons.injEq, and_true]
          rw [UInt8.toNat_xor, UInt8.toNat_xor, toNat_clear, Nat.pow_eq, Nat.xor_mod_two_pow,
            Nat.mod_mod, ← Nat.xor_mod_two_pow]

/-- A first byte of zero or one loses nothing to seven cleared bits or fewer. -/
theorem clearHigh_cons_of_le_one {byte : UInt8} {rest : Bytes} (hByte : byte.toNat ≤ 1)
    (hCount : count ≤ 7) : clearHigh count (byte :: rest) = byte :: rest := by
  have hPow : 2 ^ 1 ≤ 2 ^ (8 - count) := Nat.pow_le_pow_right (by decide) (by omega)
  rw [clearHigh, Nat.pow_eq, Nat.mod_eq_of_lt (by omega), UInt8.ofNat_toNat]

end ClearHigh

section Mask

theorem length_maskBlocks (seed : Bytes) (count counter : Nat) :
    (maskBlocks seed count counter).length = 32 * count := by
  induction count generalizing counter with
  | zero => rfl
  | succ count ih =>
      rw [maskBlocks, List.length_append, ih, (Sha256.hash _).property]
      omega

@[simp] theorem length_mask (seed : Bytes) (length : Nat) : (mask seed length).length = length := by
  rw [mask, List.length_take, length_maskBlocks]
  omega

end Mask

section Encoding

variable {bits : Nat} {digest salt encoded : Bytes}

theorem length_saltedDigest (digest salt : Bytes) : (saltedDigest digest salt).length = 32 :=
  (Sha256.hash _).property

/-- The salt behind as many zeros as fill a number of bytes, and a one. -/
def saltBlock (length : Nat) (salt : Bytes) : Bytes := List.replicate (length - 66) 0 ++ 1 :: salt

theorem length_saltBlock {length : Nat} (hLength : 66 ≤ length) (hSalt : salt.length = 32) :
    (saltBlock length salt).length = length - 33 := by
  rw [saltBlock, List.length_append, List.length_replicate, List.length_cons, hSalt]
  omega

theorem clearHigh_saltBlock (length count : Nat) (hCount : count ≤ 7) :
    clearHigh count (saltBlock length salt) = saltBlock length salt := by
  rw [saltBlock]
  cases length - 66 with
  | zero => exact clearHigh_cons_of_le_one (by decide) hCount
  | succ zeros => exact clearHigh_cons_of_le_one (by decide) hCount

theorem encode?_eq_some_iff : encode? bits digest salt = some encoded ↔
    66 ≤ encodedLength bits ∧
      encoded = clearHigh (8 * encodedLength bits - bits)
          (Bytes.xor (saltBlock (encodedLength bits) salt)
            (mask (saltedDigest digest salt) (encodedLength bits - 33))) ++
        saltedDigest digest salt ++ [0xbc] := by
  rw [encode?]
  split
  next hShort => simp only [Nat.not_le.mpr hShort, reduceCtorEq, false_and]
  next hLong =>
    rw [and_iff_right (Nat.not_lt.mp hLong), Option.some.injEq]
    exact eq_comm

/-- An encoding has the length that its number of bits calls for. -/
theorem length_of_encode?_eq_some (hSalt : salt.length = 32)
    (h : encode? bits digest salt = some encoded) : encoded.length = encodedLength bits := by
  obtain ⟨hLength, rfl⟩ := encode?_eq_some_iff.mp h
  simp only [List.length_append, length_clearHigh, Bytes.length_xor, length_saltBlock hLength hSalt,
    length_mask, length_saltedDigest, List.length_singleton, Nat.min_self]
  omega

/-- The mask comes off, and only the cleared bits of the salt block are lost, which are zero. -/
theorem clearHigh_xor_masked {length count : Nat} {mask : Bytes} (hCount : count ≤ 7)
    (hMask : (saltBlock length salt).length = mask.length) :
    clearHigh count (Bytes.xor (clearHigh count (Bytes.xor (saltBlock length salt) mask)) mask) =
      saltBlock length salt := by
  rw [clearHigh_xor_clearHigh, Bytes.xor_xor_cancel hMask, clearHigh_saltBlock length count hCount]

/-- The salt stands behind the one. -/
theorem take_drop_saltBlock (salt : Bytes) {length : Nat} (hLength : 66 ≤ length) :
    (saltBlock length salt).take (length - 65) = List.replicate (length - 66) 0 ++ [1] ∧
      (saltBlock length salt).drop (length - 65) = salt := by
  have hFront : (List.replicate (length - 66) (0 : UInt8) ++ [1]).length = length - 65 := by
    rw [List.length_append, List.length_replicate, List.length_singleton]
    omega
  rw [saltBlock, List.append_cons]
  exact ⟨List.take_left' hFront, List.drop_left' hFront⟩

/-- The encoding of a digest with a salt of thirty-two bytes is recognized. -/
theorem isEncoding_of_encode?_eq_some (hSalt : salt.length = 32)
    (h : encode? bits digest salt = some encoded) : isEncoding bits digest encoded = true := by
  have hTotal := length_of_encode?_eq_some hSalt h
  obtain ⟨hLength, hEncoded⟩ := encode?_eq_some_iff.mp h
  obtain ⟨masked, hMasked⟩ : ∃ masked, masked = clearHigh (8 * encodedLength bits - bits)
      (Bytes.xor (saltBlock (encodedLength bits) salt)
        (mask (saltedDigest digest salt) (encodedLength bits - 33))) := ⟨_, rfl⟩
  rw [← hMasked, List.append_assoc] at hEncoded
  have hBlock := length_saltBlock hLength hSalt
  have hFront : masked.length = encodedLength bits - 33 := by
    rw [hMasked, length_clearHigh, Bytes.length_xor, hBlock, length_mask, Nat.min_self]
  have hSalted := length_saltedDigest digest salt
  have hSpare : 8 * encodedLength bits - bits ≤ 7 := by
    rw [encodedLength]
    omega
  have hUnmasked : clearHigh (8 * encodedLength bits - bits)
      (Bytes.xor masked (mask (saltedDigest digest salt) (encodedLength bits - 33))) =
        saltBlock (encodedLength bits) salt := by
    rw [hMasked]
    exact clearHigh_xor_masked hSpare (by rw [hBlock, length_mask])
  have hTake : encoded.take (encodedLength bits - 33) = masked := by
    rw [hEncoded, List.take_left' hFront]
  have hDigest : (encoded.drop (encodedLength bits - 33)).take 32 = saltedDigest digest salt := by
    rw [hEncoded, List.drop_left' hFront, List.take_left' hSalted]
  have hClosing : encoded.drop (encodedLength bits - 1) = [0xbc] := by
    rw [hEncoded, ← List.append_assoc, List.drop_left' (by rw [List.length_append]; omega)]
  have hClear : clearHigh (8 * encodedLength bits - bits) masked = masked := by
    rw [hMasked, clearHigh_clearHigh]
  obtain ⟨hOne, hRest⟩ := take_drop_saltBlock salt hLength
  simp only [isEncoding, hTake, hDigest, hClosing, hUnmasked, hClear, hOne, hRest, hTotal, hLength, beq_self_eq_true, decide_true, Bool.and_self]

end Encoding

end Rsa

end Signet
