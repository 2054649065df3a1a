import Signet.Proofs.Bytes
import Signet.Proofs.Cipher.KeySchedule
import Signet.Proofs.Cipher.Lookup
import Signet.Proofs.Keystream

/-! AES in counter mode encrypts one counter of 128 bits. The counter starts at the initial value, goes on
by one for each block of the message and wraps to zero, whatever bytes a carry runs through and wherever
the message is cut. -/
namespace Signet

/-- The block of a number holds its bytes, the most significant one first. -/
theorem Aes.Block.toBytes_ofNat (value : Nat) : (ofNat value).toBytes = Bytes.bigEndian 16 value := by
  simp [ofNat, toBytes, Column.toBytes, Bytes.bigEndian, Bytes.littleEndian,
    Nat.shiftRight_eq_div_pow, Nat.div_div_eq_div_mul]

namespace Keystream

/-- The counter that the byte at a place of the message falls under. -/
def counterAt (iv : Bytes) (place : Nat) : Nat := (Bytes.ofBigEndian iv + place / 16) % 2 ^ 128

theorem aes_eq_ok {key iv : Bytes} (hKey : key.length ∈ [16, 24, 32]) (hIv : iv.length = 16) :
    aes key (some iv) = .ok ⟨.aes (Aes.expand key) (Bytes.ofBigEndian iv), 0⟩ := by
  rw [aes, checkKey, if_pos hKey, initialValue, if_pos hIv]
  rfl

/-- However a message is cut, each of its bytes is combined with the byte at its place in the encryption
of its counter. The encryption is that of AES with ten, twelve or fourteen rounds, as the length of the
key says. -/
theorem aes_delivers_encrypted_counters {key iv : Bytes} (hKey : key.length ∈ [16, 24, 32])
    (hIv : iv.length = 16) :
    ((Aes.expand key).roundKeys.length = key.length / 4 + 7 ∧
      (Aes.expand key).roundKeys.flatMap Aes.Block.columns =
        (List.range (4 * (key.length / 4 + 7))).map (Aes.scheduleWord (Aes.words key))) ∧
    ∃ stream, aes key (some iv) = .ok stream ∧ stream.keySize? = some key.length ∧
      ∀ requests : List Request,
        let message := requests.flatMap Request.input
        message.length ≤ 16 * (2 ^ 128 - 1) →
        ∃ output : Bytes, stream.Delivers requests output ∧
          ∀ (place : Nat) (byte : UInt8), message[place]? = some byte →
            let block := Aes.Block.ofNat (counterAt iv place)
            block.toBytes = Bytes.bigEndian 16 (counterAt iv place) ∧
              output[place]? = some
                (byte ^^^ ((Aes.expand key).encrypt block).toBytes.getD (place % 16) 0) := by
  refine ⟨Aes.roundKeys_expand hKey, _, aes_eq_ok hKey hIv, rfl, fun requests hLength => ?_⟩
  let message := requests.flatMap Request.input
  let stream : Keystream := ⟨.aes (Aes.expand key) (Bytes.ofBigEndian iv), 0⟩
  have hRoom : stream.position + message.length ≤ stream.cipher.capacity := by
    rw [Nat.zero_add]
    exact hLength
  refine ⟨stream.applied message, stream.delivers_applied requests hRoom,
    fun place byte hByte => ⟨Aes.Block.toBytes_ofNat _, ?_⟩⟩
  rw [applied, List.getElem?_mapIdx, hByte, Nat.zero_add]
  rfl

/-- The counter wraps from its largest value to zero while a chunk goes on. The message is zero, so that
the output is the encryption of the two counters. -/
theorem aes_delivers_encrypted_counters_wrapped :
    let key := (List.range 32).map UInt8.ofNat
    let iv : Bytes := List.replicate 16 255
    let requests : List Request :=
      [.process (List.replicate 15 0), .processInPlace (List.replicate 17 0)]
    (key.length ∈ [16, 24, 32] ∧ iv.length = 16 ∧
        (requests.flatMap Request.input).length ≤ 16 * (2 ^ 128 - 1)) ∧
      ∃ stream output, aes key (some iv) = .ok stream ∧ stream.Delivers requests output ∧
        output[15]? = some 0xee ∧ output[16]? = some 0xf2 := by
  intro key iv requests
  have hKey : key.length ∈ [16, 24, 32] := by decide
  have hIv : iv.length = 16 := rfl
  have hLength : (requests.flatMap Request.input).length ≤ 16 * (2 ^ 128 - 1) := by decide
  obtain ⟨-, stream, hStart, -, hRuns⟩ := aes_delivers_encrypted_counters hKey hIv
  obtain ⟨output, hDelivers, hBytes⟩ := hRuns requests hLength
  have hLast := (hBytes 15 0 rfl).2
  have hWrapped := (hBytes 16 0 rfl).2
  refine ⟨⟨hKey, hIv, hLength⟩, stream, output, hStart, hDelivers, ?_, ?_⟩
  · rw [hLast, Aes.Schedule.encrypt_eq_evaluate]
    decide +kernel
  · rw [hWrapped, Aes.Schedule.encrypt_eq_evaluate]
    decide +kernel

end Keystream

end Signet
