import Signet.Key
import Signet.Proofs.Ecdsa.PlainForm

/-! The written forms of signing keys that are plain numbers or seeds. Each loader takes exactly the strings
that keys are written as: those of the width of a curve whose number is a scalar, and seeds of the one
length. -/
namespace Signet

/-- A loader takes exactly the written forms of keys. The string that a key was loaded from is the one that
it is written as, and the key that is read back has the public key of the first one. -/
structure ReadsWrittenForm {Key Public : Type} (load : Bytes → Except Error Key)
    (serialize : Key → Bytes) (verifyingKey : Key → Public) : Prop where
  serialize_of_load : ∀ bytes key, load bytes = .ok key → serialize key = bytes
  bytes_eq : ∀ first second key, load first = .ok key → load second = .ok key → first = second
  reload : ∀ key, (load (serialize key)).map verifyingKey = .ok (verifyingKey key)

theorem ReadsWrittenForm.of_load_eq_ok_iff {Key Public : Type} {load : Bytes → Except Error Key}
    {serialize : Key → Bytes} (verifyingKey : Key → Public)
    (h : ∀ bytes key, load bytes = .ok key ↔ bytes = serialize key) :
    ReadsWrittenForm load serialize verifyingKey where
  serialize_of_load bytes key hLoad := ((h bytes key).mp hLoad).symm
  bytes_eq first second key hFirst hSecond :=
    ((h first key).mp hFirst).trans ((h second key).mp hSecond).symm
  reload key := by
    rw [(h _ key).mpr rfl]
    rfl

/-- The string has the width of a curve and its number is one from one to below the order. -/
def NamedCurve.IsScalarForm (c : NamedCurve) (bytes : Bytes) : Prop :=
  bytes.length = c.scalarLength ∧ 1 ≤ Bytes.ofBigEndian bytes ∧
    Bytes.ofBigEndian bytes ≤ c.curve.n - 1

theorem NamedCurve.isScalarForm_iff {c : NamedCurve} {bytes : Bytes} :
    c.IsScalarForm bytes ↔
      bytes.length = c.scalarLength ∧ ∃ secret, c.curve.scalar? (Bytes.ofBigEndian bytes) = some secret := by
  have hOrder : 0 < c.curve.n := by cases c <;> decide
  refine and_congr_right fun _ => ⟨fun ⟨hLow, hHigh⟩ => ⟨⟨_, hLow, by omega⟩,
    Curve.scalar?_eq_some_iff.mpr rfl⟩, ?_⟩
  rintro ⟨secret, hSecret⟩
  have hValue := Curve.scalar?_eq_some_iff.mp hSecret
  have hRange := secret.property
  omega

namespace Ecdsa.SigningKey

theorem exists_load_eq_ok_iff {bytes : Bytes} {curve : NamedCurve} :
    (∃ key, load bytes = .ok key ∧ key.curve = curve) ↔ curve.IsScalarForm bytes := by
  rw [NamedCurve.isScalarForm_iff]
  constructor
  · rintro ⟨key, hLoad, rfl⟩
    obtain rfl := load_eq_ok_iff.mp hLoad
    refine ⟨Bytes.length_bigEndian _ _, key.secret, ?_⟩
    rw [serialize, NamedCurve.scalarLength_eq, Curve.scalar?_bigEndian]
  · rintro ⟨hLength, secret, hSecret⟩
    exact ⟨⟨curve, secret⟩, by rw [load_of_length hLength, hSecret], rfl⟩

theorem exists_load_eq_ok_iff_or {bytes : Bytes} :
    (∃ key, load bytes = .ok key) ↔
      NamedCurve.p192.IsScalarForm bytes ∨ NamedCurve.p521.IsScalarForm bytes := by
  rw [← exists_load_eq_ok_iff, ← exists_load_eq_ok_iff]
  constructor
  · rintro ⟨key, hLoad⟩
    cases hCurve : key.curve with
    | p192 => exact .inl ⟨key, hLoad, hCurve⟩
    | p521 => exact .inr ⟨key, hLoad, hCurve⟩
  · rintro (⟨key, hLoad, -⟩ | ⟨key, hLoad, -⟩) <;> exact ⟨key, hLoad⟩

end Ecdsa.SigningKey

theorem SeededEcdsa.SigningKey.exists_load_eq_ok_iff {bytes : Bytes} :
    (∃ key, load bytes = .ok key) ↔ NamedCurve.p192.IsScalarForm bytes := by
  rw [← Ecdsa.SigningKey.exists_load_eq_ok_iff]
  constructor
  · rintro ⟨key, hLoad⟩
    exact ⟨key.plain, Ecdsa.SigningKey.load_eq_ok_iff.mpr (load_eq_ok_iff.mp hLoad), rfl⟩
  · rintro ⟨⟨_, secret⟩, hLoad, rfl⟩
    exact ⟨⟨secret⟩, load_eq_ok_iff.mpr (Ecdsa.SigningKey.load_eq_ok_iff.mp hLoad)⟩

theorem Ed25519.SigningKey.load_eq_ok_iff {bytes : Bytes} {key : SigningKey} :
    load bytes = .ok key ↔ bytes = key.serialize := by
  rw [load]
  split_ifs with hLength
  · rw [Except.ok.injEq]
    exact ⟨fun h => congrArg serialize h, fun h => by cases key; exact congrArg mk (Subtype.ext h)⟩
  · refine ⟨fun h => (by cases h), ?_⟩
    rintro rfl
    exact absurd key.seed.property hLength

theorem Ed25519.SigningKey.exists_load_eq_ok_iff {bytes : Bytes} :
    (∃ key, load bytes = .ok key) ↔ bytes.length = 32 := by
  constructor
  · rintro ⟨key, hLoad⟩
    obtain rfl := load_eq_ok_iff.mp hLoad
    exact key.seed.property
  · intro hLength
    exact ⟨⟨⟨bytes, hLength⟩⟩, load_eq_ok_iff.mpr rfl⟩

/-- A string is loaded as a plain key exactly if it is a scalar at the width of P-192 or of P-521, on that
curve; as a compact key exactly if it is one at the width of P-192; and as a key of Ed25519 exactly if it
has thirty-two bytes. Each of these loaders takes exactly the written forms of keys. -/
theorem exists_load_iff_and_readsWrittenForm :
    (∀ bytes : Bytes,
      (∀ curve : NamedCurve, (∃ key, Ecdsa.SigningKey.load bytes = .ok key ∧ key.curve = curve) ↔
        curve.IsScalarForm bytes) ∧
      ((∃ key, Ecdsa.SigningKey.load bytes = .ok key) ↔
        bytes.length = 24 ∧ 1 ≤ Bytes.ofBigEndian bytes ∧ Bytes.ofBigEndian bytes ≤ p192.n - 1 ∨
          bytes.length = 66 ∧ 1 ≤ Bytes.ofBigEndian bytes ∧ Bytes.ofBigEndian bytes ≤ p521.n - 1) ∧
      ((∃ key, SeededEcdsa.SigningKey.load bytes = .ok key) ↔
        bytes.length = 24 ∧ 1 ≤ Bytes.ofBigEndian bytes ∧ Bytes.ofBigEndian bytes ≤ p192.n - 1) ∧
      ((∃ key, Ed25519.SigningKey.load bytes = .ok key) ↔ bytes.length = 32)) ∧
    ReadsWrittenForm Ecdsa.SigningKey.load Ecdsa.SigningKey.serialize
      Ecdsa.SigningKey.verifyingKey ∧
    ReadsWrittenForm SeededEcdsa.SigningKey.load SeededEcdsa.SigningKey.serialize
      SeededEcdsa.SigningKey.verifyingKey ∧
    ReadsWrittenForm Ed25519.SigningKey.load Ed25519.SigningKey.serialize
      Ed25519.SigningKey.verifyingKey := by
  refine ⟨fun bytes => ⟨fun curve => Ecdsa.SigningKey.exists_load_eq_ok_iff,
      Ecdsa.SigningKey.exists_load_eq_ok_iff_or, SeededEcdsa.SigningKey.exists_load_eq_ok_iff,
      Ed25519.SigningKey.exists_load_eq_ok_iff⟩, ?_, ?_, ?_⟩
  · exact .of_load_eq_ok_iff _ fun _ _ => Ecdsa.SigningKey.load_eq_ok_iff
  · exact .of_load_eq_ok_iff _ fun _ _ => SeededEcdsa.SigningKey.load_eq_ok_iff
  · exact .of_load_eq_ok_iff _ fun _ _ => Ed25519.SigningKey.load_eq_ok_iff

end Signet
