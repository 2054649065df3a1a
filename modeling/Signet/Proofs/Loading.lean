import Signet.Proofs.Descriptor
import Signet.Proofs.Modular

/-! How keys fail to load. What a loader refuses is corrupt data, under the tag of its family. Private RSA
numbers alone can pass every check of the loader and still make no key; the failure is then reported as
one of the backend. -/
namespace Signet

namespace Rsa.SigningKey

/-- What is found in a private key envelope although there is no key in it. -/
inductive Unusable (bytes : Bytes) : Fault → Prop where
  | noCoefficient {numbers : PrivateNumbers} (loaded : loadNumbers? bytes = some numbers)
      (not_coprime : ¬Nat.Coprime numbers.q numbers.p) : Unusable bytes .noCoefficient
  | encodingTooLong {key : SigningKey} (loaded : loadNumbers? bytes = some key.toPrivateNumbers)
      (too_long : Der.maxLength < key.serialize.length) : Unusable bytes .encodingTooLong

variable {bytes : Bytes} {numbers : PrivateNumbers} {key : SigningKey}

theorem ofNumbers_of_not_coprime (h : ¬Nat.Coprime numbers.q numbers.p) :
    ofNumbers numbers = .error (.backend .rsaPss .noCoefficient) := by
  have hPositive : 0 < numbers.p := Nat.zero_lt_of_lt numbers.isPrivate.1
  rw [ofNumbers]
  split
  next => rfl
  next coefficient hInverse =>
    refine absurd ((Modular.inverse?_isSome_iff hPositive numbers.q).mp ?_) h
    rw [hInverse]
    rfl

theorem ofNumbers_toPrivateNumbers (key : SigningKey) : ofNumbers key.toPrivateNumbers =
    if key.serialize.length ≤ Der.maxLength then .ok key
    else .error (.backend .rsaPss .encodingTooLong) := by
  rw [ofNumbers]
  split
  next hNone => cases key.isInverse.symm.trans hNone
  next coefficient hInverse =>
    obtain rfl := Option.some.inj (key.isInverse.symm.trans hInverse)
    rfl

/-- The factors of private numbers are coprime if and only if there is a key with these numbers. -/
theorem exists_toPrivateNumbers_eq (h : Nat.Coprime numbers.q numbers.p) :
    ∃ key : SigningKey, key.toPrivateNumbers = numbers := by
  have hPositive : 0 < numbers.p := Nat.zero_lt_of_lt numbers.isPrivate.1
  obtain ⟨coefficient, hInverse⟩ :=
    Option.isSome_iff_exists.mp ((Modular.inverse?_isSome_iff hPositive numbers.q).mpr h)
  exact ⟨{ numbers with coefficient, isInverse := hInverse }, rfl⟩

theorem load_of_loadNumbers?_eq_some (h : loadNumbers? bytes = some numbers) :
    load bytes = ofNumbers numbers := by
  rw [load]
  split
  next found hFound => rw [Option.some.inj (hFound.symm.trans h)]
  next hNone => cases hNone.symm.trans h

theorem load_of_unusable {fault : Fault} (h : Unusable bytes fault) :
    load bytes = .error (.backend .rsaPss fault) := by
  cases h with
  | noCoefficient hLoaded hFactors =>
      rw [load_of_loadNumbers?_eq_some hLoaded, ofNumbers_of_not_coprime hFactors]
  | encodingTooLong hLoaded hLong =>
      rw [load_of_loadNumbers?_eq_some hLoaded, ofNumbers_toPrivateNumbers,
        if_neg (Nat.not_le.mpr hLong)]

theorem load_cases (bytes : Bytes) : (∃ key, load bytes = .ok key) ∨
    load bytes = .error (.corrupt .rsaPss .invalidPrivateKey) ∨
    ∃ fault, Unusable bytes fault ∧ load bytes = .error (.backend .rsaPss fault) := by
  cases hNumbers : loadNumbers? bytes with
  | none =>
      refine .inr (.inl ?_)
      rw [load, hNumbers]
  | some numbers =>
      by_cases hFactors : Nat.Coprime numbers.q numbers.p
      · obtain ⟨key, rfl⟩ := exists_toPrivateNumbers_eq hFactors
        by_cases hLength : key.serialize.length ≤ Der.maxLength
        · refine .inl ⟨key, ?_⟩
          rw [load_of_loadNumbers?_eq_some hNumbers, ofNumbers_toPrivateNumbers, if_pos hLength]
        · have hUnusable := Unusable.encodingTooLong hNumbers (Nat.lt_of_not_le hLength)
          exact .inr (.inr ⟨_, hUnusable, load_of_unusable hUnusable⟩)
      · have hUnusable := Unusable.noCoefficient hNumbers hFactors
        exact .inr (.inr ⟨_, hUnusable, load_of_unusable hUnusable⟩)

end Rsa.SigningKey

theorem NamedCurve.ofScalarLength_cases (length : Nat) : (∃ curve, ofScalarLength length = .ok curve) ∨
    ofScalarLength length = .error (.corrupt .ecdsa (.scalarLength [24, 66] length)) := by
  rw [ofScalarLength]
  split_ifs
  · exact .inl ⟨_, rfl⟩
  · exact .inl ⟨_, rfl⟩
  · exact .inr rfl

namespace SigningKey

/-- A family loads a private key or refuses it as corrupt, under its own tag, unless there are unusable
RSA numbers in the envelope. -/
theorem load_cases (family : Family) (bytes : Bytes) : (∃ key, load family bytes = .ok key) ∨
    (∃ fault, load family bytes = .error (.corrupt family.algorithm fault)) ∨
    family = .rsaPss ∧ ∃ fault, Rsa.SigningKey.Unusable bytes fault ∧
      load family bytes = .error (.backend .rsaPss fault) := by
  cases family with
  | rsaPss =>
      rw [load]
      rcases Rsa.SigningKey.load_cases bytes with ⟨key, hKey⟩ | hCorrupt | ⟨fault, hUnusable, hBackend⟩
      · exact .inl ⟨_, by rw [hKey]; rfl⟩
      · exact .inr (.inl ⟨_, by rw [hCorrupt]; rfl⟩)
      · exact .inr (.inr ⟨rfl, fault, hUnusable, by rw [hBackend]; rfl⟩)
  | ecdsa =>
      rw [load, Ecdsa.SigningKey.load]
      rcases NamedCurve.ofScalarLength_cases bytes.length with ⟨curve, hCurve⟩ | hLength
      · simp only [hCurve, bind, Except.bind]
        cases curve.curve.scalar? (Bytes.ofBigEndian bytes) with
        | some secret => exact .inl ⟨_, rfl⟩
        | none => exact .inr (.inl ⟨_, rfl⟩)
      · exact .inr (.inl ⟨_, by rw [hLength]; rfl⟩)
  | ecdsaSeeded =>
      rw [load, SeededEcdsa.SigningKey.load]
      split
      next => exact .inr (.inl ⟨_, rfl⟩)
      next =>
        split
        next => exact .inl ⟨_, rfl⟩
        next => exact .inr (.inl ⟨_, rfl⟩)
  | ed25519 =>
      rw [load, Ed25519.SigningKey.load]
      split
      next => exact .inl ⟨_, rfl⟩
      next => exact .inr (.inl ⟨_, rfl⟩)

end SigningKey

namespace Family

/-- Both loaders of a family return a key or refuse the bytes as corrupt, under the tag of the family.
Private RSA numbers whose factors have a common divisor, or whose envelope has no room for what is written
beside them, are the exception: they pass all checks and come back as failures of the backend. -/
theorem load_eq_ok_or_corrupt_or_unusable (family : Family) (bytes : Bytes) :
    ((∃ key, VerifyingKey.load family bytes = .ok key) ∨
      ∃ fault, VerifyingKey.load family bytes = .error (.corrupt family.algorithm fault)) ∧
    ((∃ key, SigningKey.load family bytes = .ok key) ∨
      (∃ fault, SigningKey.load family bytes = .error (.corrupt family.algorithm fault)) ∨
      family = .rsaPss ∧ ∃ fault, Rsa.SigningKey.Unusable bytes fault ∧
        SigningKey.load family bytes = .error (.backend .rsaPss fault)) ∧
    ∀ fault, Rsa.SigningKey.Unusable bytes fault →
      SigningKey.load .rsaPss bytes = .error (.backend .rsaPss fault) := by
  refine ⟨?_, SigningKey.load_cases family bytes, fun fault hUnusable => ?_⟩
  · cases hLoad : VerifyingKey.load family bytes with
    | ok key => exact .inl ⟨key, rfl⟩
    | error error =>
        obtain ⟨fault, rfl⟩ := VerifyingKey.exists_of_load_eq_error hLoad
        exact .inr ⟨fault, rfl⟩
  · rw [SigningKey.load, Rsa.SigningKey.load_of_unusable hUnusable]
    rfl

/-- An envelope with the numbers of a modulus of nine, whose factors are both three. -/
def squareEnvelope : Bytes :=
  Der.privateKeyInfo Rsa.algorithmId (Der.sequence (
    Der.natural 0 ++ Der.natural 9 ++ Der.natural 3 ++ Der.natural 1 ++ Der.natural 3 ++
      Der.natural 3 ++ Der.natural 1 ++ Der.natural 1 ++ Der.natural 0))

theorem unusable_squareEnvelope : Rsa.SigningKey.Unusable squareEnvelope .noCoefficient := by
  have hLoaded : Rsa.SigningKey.loadNumbers? squareEnvelope =
      some ⟨⟨9, 3, by decide⟩, 1, 3, 3, by decide⟩ := by decide
  exact .noCoefficient hLoaded (by decide)

/-- The envelope of a square is refused as a failure of the backend. -/
theorem load_squareEnvelope :
    SigningKey.load .rsaPss squareEnvelope = .error (.backend .rsaPss .noCoefficient) :=
  (load_eq_ok_or_corrupt_or_unusable .rsaPss squareEnvelope).2.2 _ unusable_squareEnvelope

/-- Not every envelope is loaded or refused as corrupt. -/
theorem not_forall_load_eq_ok_or_corrupt :
    ¬∀ (family : Family) (bytes : Bytes), (∃ key, SigningKey.load family bytes = .ok key) ∨
      ∃ fault, SigningKey.load family bytes = .error (.corrupt family.algorithm fault) := by
  intro hAll
  have hBackend := Rsa.SigningKey.load_of_unusable unusable_squareEnvelope
  rcases hAll .rsaPss squareEnvelope with ⟨key, hKey⟩ | ⟨fault, hCorrupt⟩
  · rw [SigningKey.load, hBackend] at hKey
    cases hKey
  · rw [SigningKey.load, hBackend] at hCorrupt
    cases hCorrupt

end Family

end Signet
