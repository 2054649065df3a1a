import Mathlib.Data.List.Nodup
import Signet.Proofs.Cipher.Lookup

/-! Encryption with AES loses nothing: under any schedule of round keys, whatever key it came from, no
two blocks are encrypted alike. Each step of a round is injective by itself. -/
namespace Signet.Aes

theorem xor_left_comm (x y z : UInt8) : x ^^^ (y ^^^ z) = y ^^^ (x ^^^ z) := by
  rw [← UInt8.xor_assoc, UInt8.xor_comm x, UInt8.xor_assoc]

theorem xor_self_left (x y : UInt8) : x ^^^ (x ^^^ y) = y := by
  rw [← UInt8.xor_assoc, UInt8.xor_self, UInt8.zero_xor]

theorem get_injective_of_nodup {α : Type} {n : Nat} {values : Vector α n}
    (h : values.toList.Nodup) : Function.Injective values.get := by
  intro first second hEq
  have hPlace : first.val < values.toList.length := by
    rw [Vector.length_toList]
    exact first.isLt
  refine Fin.ext ((List.getElem?_inj hPlace h).mp ?_)
  rw [getElem?_toList_eq_get, getElem?_toList_eq_get, hEq]

/-- Whether numbers are distinct from each other and from those seen before, which are given by the bits of
a number. -/
def areDistinct : (seen : Nat) → List Nat → Bool
  | _, [] => true
  | seen, n :: later => !seen.testBit n && areDistinct (seen ||| 1 <<< n) later

theorem nodup_of_areDistinct {seen : Nat} {numbers : List Nat} (h : areDistinct seen numbers = true) :
    numbers.Nodup ∧ ∀ n ∈ numbers, seen.testBit n = false := by
  induction numbers generalizing seen with
  | nil => exact ⟨.nil, List.forall_mem_nil _⟩
  | cons n later ih =>
      rw [areDistinct, Bool.and_eq_true, Bool.not_eq_true'] at h
      obtain ⟨hNodup, hUnseen⟩ := ih h.2
      simp only [Nat.testBit_or, Nat.one_shiftLeft, Nat.testBit_two_pow, Bool.or_eq_false_iff,
        decide_eq_false_iff_not] at hUnseen
      have hNew : n ∉ later := fun hMem => (hUnseen n hMem).2 rfl
      exact ⟨List.nodup_cons.mpr ⟨hNew, hNodup⟩,
        List.forall_mem_cons.mpr ⟨h.1, fun other hMem => (hUnseen other hMem).1⟩⟩

set_option maxRecDepth 2048 in
/-- No two bytes have the same substitute. -/
theorem substitute_injective : Function.Injective substitute := by
  -- To compare each entry of the box with all others is slow; one pass over it is not.
  have hDistinct : areDistinct 0 (box.toList.map UInt8.toNat) = true := by decide
  have hNodup : box.toList.Nodup := (nodup_of_areDistinct hDistinct).1.of_map
  intro first second h
  exact UInt8.toFin_inj.mp (get_injective_of_nodup hNodup h)

theorem double_eq (byte : UInt8) :
    double byte = byte <<< 1 ^^^ (if byte.toBitVec.msb then 0x1b else 0) := by
  have hHigh : byte < 0x80 ↔ ¬byte.toBitVec.msb = true := by
    rw [Bool.not_eq_true, BitVec.msb_eq_false_iff_two_mul_lt, UInt8.lt_iff_toNat_lt,
      UInt8.toNat_toBitVec]
    show byte.toNat < 128 ↔ 2 * byte.toNat < 256
    omega
  simp only [double, hHigh, ite_not]

/-- Doubling respects sums. -/
theorem double_xor (x y : UInt8) : double (x ^^^ y) = double x ^^^ double y := by
  rw [double_eq, double_eq, double_eq, UInt8.shiftLeft_xor, UInt8.toBitVec_xor, BitVec.msb_xor]
  cases x.toBitVec.msb <;> cases y.toBitVec.msb <;>
    simp [UInt8.xor_assoc, UInt8.xor_comm, xor_left_comm]

namespace Column

theorem add_add_cancel (x k : Column) : (x.add k).add k = x := by
  simp only [add, UInt8.xor_assoc, UInt8.xor_self, UInt8.xor_zero]

theorem substitute_injective : Function.Injective substitute := by
  intro first second h
  cases first
  cases second
  simpa only [substitute, mk.injEq, Aes.substitute_injective.eq_iff] using h

/-- Mixing twice adds to each byte four times its sum with the byte two places on. -/
theorem mix_mix (x : Column) :
    x.mix.mix =
      ⟨x.a ^^^ double (double (x.a ^^^ x.c)), x.b ^^^ double (double (x.b ^^^ x.d)),
        x.c ^^^ double (double (x.a ^^^ x.c)), x.d ^^^ double (double (x.b ^^^ x.d))⟩ := by
  simp only [mix, double_xor, mk.injEq]
  refine ⟨?_, ?_, ?_, ?_⟩ <;>
    simp only [UInt8.xor_assoc, UInt8.xor_comm, xor_left_comm, xor_self_left, UInt8.xor_self,
      UInt8.zero_xor]

/-- Mixing four times changes nothing: two bytes that lie two places apart keep their sum when a column
is mixed twice, so the second time the same is added again. -/
theorem mix_mix_mix_mix (x : Column) : x.mix.mix.mix.mix = x := by
  have hSum (first second added : UInt8) :
      first ^^^ added ^^^ (second ^^^ added) = first ^^^ second := by
    rw [UInt8.xor_comm second, UInt8.xor_assoc, xor_self_left]
  rw [mix_mix x, mix_mix]
  simp only [hSum, UInt8.xor_assoc, UInt8.xor_self, UInt8.xor_zero]

theorem mix_injective : Function.Injective mix :=
  have hInverse : Function.LeftInverse (fun x : Column => x.mix.mix.mix) mix := mix_mix_mix_mix
  hInverse.injective

end Column

namespace Block

theorem add_add_cancel (b k : Block) : (b.add k).add k = b := by
  simp only [add, Column.add_add_cancel]

theorem add_injective (k : Block) : Function.Injective fun b : Block => b.add k :=
  have hInverse : Function.LeftInverse (fun b : Block => b.add k) fun b => b.add k :=
    fun b => b.add_add_cancel k
  hInverse.injective

theorem substitute_injective : Function.Injective substitute := by
  intro first second h
  cases first
  cases second
  simpa only [substitute, mk.injEq, Column.substitute_injective.eq_iff] using h

theorem shiftRows_injective : Function.Injective shiftRows := by
  intro first second h
  obtain ⟨⟨_, _, _, _⟩, ⟨_, _, _, _⟩, ⟨_, _, _, _⟩, ⟨_, _, _, _⟩⟩ := first
  obtain ⟨⟨_, _, _, _⟩, ⟨_, _, _, _⟩, ⟨_, _, _, _⟩, ⟨_, _, _, _⟩⟩ := second
  simp only [shiftRows, mk.injEq, Column.mk.injEq] at h ⊢
  obtain ⟨⟨_, _, _, _⟩, ⟨_, _, _, _⟩, ⟨_, _, _, _⟩, ⟨_, _, _, _⟩⟩ := h
  and_intros <;> assumption

theorem mixColumns_injective : Function.Injective mixColumns := by
  intro first second h
  cases first
  cases second
  simpa only [mixColumns, mk.injEq, Column.mix_injective.eq_iff] using h

end Block

/-- A round without its key loses nothing, with or without the mixing of columns. -/
theorem shiftRows_substitute_injective :
    Function.Injective fun b : Block => b.substitute.shiftRows :=
  Block.shiftRows_injective.comp Block.substitute_injective

theorem encryptRounds_injective (keys : List Block) : Function.Injective (encryptRounds keys) := by
  intro first second h
  fun_induction encryptRounds keys first generalizing second with
  | case1 first => exact h
  | case2 key first => exact shiftRows_substitute_injective (Block.add_injective key h)
  | case3 key keys first hKeys ih =>
      have hRound : encryptRounds (key :: keys) second =
          encryptRounds keys (second.substitute.shiftRows.mixColumns.add key) := by
        rw [encryptRounds]
        exact hKeys
      have hMixed := Block.add_injective key (ih (h.trans hRound))
      exact shiftRows_substitute_injective (Block.mixColumns_injective hMixed)

/-- No two blocks are encrypted alike. -/
theorem Schedule.encrypt_injective (schedule : Schedule) : Function.Injective schedule.encrypt := by
  intro first second h
  rw [encrypt, encrypt] at h
  cases hKeys : schedule.roundKeys with
  | nil => simpa only [hKeys] using h
  | cons key keys =>
      simp only [hKeys] at h
      exact Block.add_injective key (encryptRounds_injective keys h)

end Signet.Aes
