import Signet.Hash.Sha256.Hasher

/-! Hashing in pieces. What an absorber holds depends on the joined pieces alone, so its digest is that of
one message. -/
namespace Signet

namespace Bytes

variable {size count : Nat}

theorem blocks_add (size count more : Nat) (bytes : Bytes) :
    blocks size (count + more) bytes =
      blocks size count bytes ++ blocks size more (bytes.drop (size * count)) := by
  induction count generalizing bytes with
  | zero => simp [blocks]
  | succ count ih =>
      rw [Nat.succ_add, blocks, blocks, ih, List.cons_append, List.drop_drop, Nat.mul_succ,
        Nat.add_comm size]

/-- Whole blocks at the front do not depend on what follows them. -/
theorem blocks_append {bytes : Bytes} (more : Bytes) (h : size * count ≤ bytes.length) :
    blocks size count (bytes ++ more) = blocks size count bytes := by
  induction count generalizing bytes with
  | zero => rfl
  | succ count ih =>
      rw [Nat.mul_succ] at h
      have hTail : size * count ≤ (bytes.drop size).length := by
        rw [List.length_drop]
        omega
      rw [blocks, blocks, List.take_append_of_le_length (by omega),
        List.drop_append_of_le_length (by omega), ih hTail]

end Bytes

namespace Sha256

/-- The bytes behind the whole blocks. -/
def unfinished (bytes : Bytes) : Bytes := bytes.drop (64 * (bytes.length / 64))

/-- The chaining value after the whole blocks. -/
def chained (state : State) (bytes : Bytes) : State :=
  (Bytes.blocks 64 (bytes.length / 64) bytes).foldl compress state

section Append

variable (bytes more : Bytes)

theorem blockCount_append : (bytes ++ more).length / 64 =
    bytes.length / 64 + (unfinished bytes ++ more).length / 64 := by
  simp only [unfinished, List.length_append, List.length_drop]
  omega

theorem drop_append : (bytes ++ more).drop (64 * (bytes.length / 64)) = unfinished bytes ++ more :=
  List.drop_append_of_le_length (Nat.mul_div_le _ _)

theorem unfinished_append : unfinished (bytes ++ more) = unfinished (unfinished bytes ++ more) := by
  rw [unfinished, blockCount_append, Nat.mul_add, ← List.drop_drop, drop_append]
  rfl

theorem chained_append (state : State) :
    chained state (bytes ++ more) = chained (chained state bytes) (unfinished bytes ++ more) := by
  have hFront := Bytes.blocks_append more (Nat.mul_div_le bytes.length 64)
  rw [chained, blockCount_append, Bytes.blocks_add, List.foldl_append, drop_append, hFront]
  rfl

end Append

namespace Absorber

theorem absorb_eq (absorber : Absorber) (piece : Bytes) :
    absorber.absorb piece =
      ⟨chained absorber.state (absorber.pending ++ piece), unfinished (absorber.pending ++ piece),
        absorber.length + piece.length⟩ := rfl

/-- Two pieces in a row are absorbed like one. -/
theorem absorb_append (absorber : Absorber) (first second : Bytes) :
    absorber.absorb (first ++ second) = (absorber.absorb first).absorb second := by
  simp only [absorb_eq, ← List.append_assoc, chained_append (absorber.pending ++ first),
    unfinished_append (absorber.pending ++ first), List.length_append, Nat.add_assoc]

/-- The padding completes a message to whole blocks, whose chaining value is the digest. -/
theorem digest_absorb (message : Bytes) : (empty.absorb message).digest = hash message := by
  have hLength : (empty.absorb message).length = message.length := Nat.zero_add _
  rw [digest, ← absorb_append, hLength]
  rfl

end Absorber

end Sha256

end Signet
