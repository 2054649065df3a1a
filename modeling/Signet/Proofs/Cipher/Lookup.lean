import Signet.Cipher.Aes
import Signet.Proofs.Bytes

/-! Encryption with the substitution box as one number. An entry of the box is behind all that stand before
it, while a shift of the number is a single step, so runs with fixed keys are evaluated by shifts. -/
namespace Signet.Aes

theorem getElem?_toList_eq_get {α : Type} {n : Nat} (values : Vector α n) (index : Fin n) :
    values.toList[index.val]? = some (values.get index) := by
  have hPlace : index.val < values.toList.length := by
    rw [Vector.length_toList]
    exact index.isLt
  rw [List.getElem?_eq_getElem hPlace, Vector.getElem_toList]
  rfl

/-- The entries of the box as the bytes of a number, the first one least significant. -/
def packedBox : Nat := Bytes.ofLittleEndian box.toList

/-- The substitute of a byte, by a shift. -/
def lookUp (byte : UInt8) : UInt8 := UInt8.ofNat (packedBox >>> (8 * byte.toNat))

theorem substitute_eq_lookUp (byte : UInt8) : substitute byte = lookUp byte := by
  have hPlace : byte.toNat < box.toList.length := by
    rw [Vector.length_toList]
    exact byte.toNat_lt
  have hEntry : box.toList[byte.toNat]? = some (substitute byte) :=
    getElem?_toList_eq_get box byte.toFin
  rw [Bytes.getElem?_eq_shiftRight hPlace] at hEntry
  exact (Option.some.inj hEntry).symm

def Column.lookUp (x : Column) : Column :=
  ⟨Aes.lookUp x.a, Aes.lookUp x.b, Aes.lookUp x.c, Aes.lookUp x.d⟩

theorem Column.substitute_eq_lookUp (x : Column) : x.substitute = x.lookUp := by
  simp only [substitute, lookUp, Aes.substitute_eq_lookUp]

def Block.lookUp (b : Block) : Block := ⟨b.w.lookUp, b.x.lookUp, b.y.lookUp, b.z.lookUp⟩

theorem Block.substitute_eq_lookUp (b : Block) : b.substitute = b.lookUp := by
  simp only [substitute, lookUp, Column.substitute_eq_lookUp]

/-- The rounds of an encryption, by shifts. -/
def evaluateRounds : List Block → Block → Block
  | [], block => block
  | [key], block => block.lookUp.shiftRows.add key
  | key :: keys, block => evaluateRounds keys (block.lookUp.shiftRows.mixColumns.add key)

theorem encryptRounds_eq (keys : List Block) (block : Block) :
    encryptRounds keys block = evaluateRounds keys block := by
  fun_induction evaluateRounds keys block with
  | case1 block => rfl
  | case2 key block => rw [encryptRounds, Block.substitute_eq_lookUp]
  | case3 key keys block hKeys ih =>
      rw [encryptRounds, Block.substitute_eq_lookUp, ih]
      exact hKeys

/-- The encryption of a block, by shifts. -/
def Schedule.evaluate (schedule : Schedule) (block : Block) : Block :=
  match schedule.roundKeys with
  | [] => block
  | key :: keys => evaluateRounds keys (block.add key)

theorem Schedule.encrypt_eq_evaluate (schedule : Schedule) : schedule.encrypt = schedule.evaluate := by
  funext block
  rw [encrypt, evaluate]
  cases schedule.roundKeys with
  | nil => rfl
  | cons key keys => exact encryptRounds_eq keys _

end Signet.Aes
