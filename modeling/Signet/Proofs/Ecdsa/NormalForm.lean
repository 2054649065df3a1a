import Signet.Proofs.KeyEncoding

/-! The envelopes of public ECDSA keys. An envelope is read on one curve at most, so the order in which the
curves are tried does not show. The envelope that a key is written as is a normal form of all those that it
is read from. -/
namespace Signet.Ecdsa

namespace VerifyingKey

variable {bytes : Bytes} {key other : VerifyingKey}

/-- The curves may be tried in either order. -/
theorem load_eq_ok_iff_of_ne {c c' : NamedCurve} (hCurves : c ≠ c') :
    load bytes = .ok key ↔ (onCurve? c bytes <|> onCurve? c' bytes) = some key := by
  have hBoth : key.curve = c ∨ key.curve = c' := by
    cases hCurve : key.curve <;> cases c <;> cases c' <;> simp at hCurves ⊢
  rw [load_eq_ok_iff, Option.orElse_eq_orElse, Option.orElse_eq_or, Option.or_eq_some_iff]
  constructor
  · intro h
    rcases hBoth with hCurve | hCurve
    · exact .inl (hCurve ▸ h)
    · exact .inr ⟨onCurve?_eq_none_of_ne (hCurve ▸ hCurves) h, hCurve ▸ h⟩
  · rintro (h | ⟨-, h⟩)
    · exact (onCurve?_eq_some h).1 ▸ h
    · exact (onCurve?_eq_some h).1 ▸ h

/-- The envelopes of a key are those around the forms of its point, if this is on the curve. -/
theorem load_eq_ok_iff_exists : load bytes = .ok key ↔
    ∃ encoded, bytes = Der.publicKeyInfo (algorithmId key.curve) encoded ∧
      Point.Encodes encoded key.point ∧ key.point.OnCurve := by
  obtain ⟨curve, point⟩ := key
  rw [load_eq_ok_iff, onCurve?_eq_some_iff]
  constructor
  · rintro ⟨point', encoded, hKey, hBytes, hPoint⟩
    cases hKey
    exact ⟨encoded, hBytes, hPoint⟩
  · rintro ⟨encoded, hBytes, hPoint⟩
    exact ⟨point, encoded, rfl, hBytes, hPoint⟩

theorem load_serialize_of_onCurve (hPoint : key.point ≠ .infinity) (hOn : key.point.OnCurve) :
    load key.serialize = .ok key :=
  load_eq_ok_iff_exists.mpr ⟨_, rfl, Point.encodes_encodeUncompressed hPoint, hOn⟩

/-- Whatever form of its point a key is read from, it is read from both of the forms with a tag for it. -/
theorem load_forms_of_load (h : load bytes = .ok key) : load key.serialize = .ok key ∧
    load (Der.publicKeyInfo (algorithmId key.curve) key.point.encodeCompressed) = .ok key := by
  obtain ⟨encoded, -, hEncodes, hOn⟩ := load_eq_ok_iff_exists.mp h
  refine ⟨load_serialize_of_onCurve hEncodes.ne_infinity hOn, ?_⟩
  exact load_eq_ok_iff_exists.mpr ⟨_, rfl, Point.encodes_encodeCompressed hEncodes.ne_infinity, hOn⟩

theorem serialize_inj_of_load {bytes' : Bytes} (h : load bytes = .ok key)
    (hOther : load bytes' = .ok other) : other.serialize = key.serialize ↔ other = key := by
  constructor
  · intro hSame
    have hRead := (load_forms_of_load hOther).1
    rw [hSame, (load_forms_of_load h).1] at hRead
    exact (Except.ok.inj hRead).symm
  · rintro rfl
    rfl

end VerifyingKey

theorem SigningKey.load_serialize_verifyingKey (key : SigningKey) :
    VerifyingKey.load key.verifyingKey.serialize = .ok key.verifyingKey :=
  VerifyingKey.load_serialize_of_onCurve (Curve.mul_base_ne_infinity key.secret)
    (Curve.onCurve_mul_base key.secret.val)

namespace VerifyingKey

/-- An envelope is read on at most one curve, in whichever order these are tried. The key that it stands
for is read from what it is written as, and from the envelope of the form with one coordinate. Two envelopes
stand for one key exactly if the keys are written alike. The keys of signing keys are read back. -/
theorem load_normalForm (bytes : Bytes) :
    (∀ c c' : NamedCurve, c ≠ c' → (onCurve? c bytes = none ∨ onCurve? c' bytes = none) ∧
      ∀ key, load bytes = .ok key ↔ (onCurve? c bytes <|> onCurve? c' bytes) = some key) ∧
    (∀ key, load bytes = .ok key →
      load key.serialize = .ok key ∧
      load (Der.publicKeyInfo (algorithmId key.curve) key.point.encodeCompressed) = .ok key ∧
      ∀ bytes' other, load bytes' = .ok other → (other.serialize = key.serialize ↔ other = key)) ∧
    ∀ key : SigningKey, load key.verifyingKey.serialize = .ok key.verifyingKey := by
  refine ⟨fun c c' hCurves => ⟨?_, fun key => load_eq_ok_iff_of_ne hCurves⟩, fun key hLoad => ?_,
    SigningKey.load_serialize_verifyingKey⟩
  · cases hFirst : onCurve? c bytes with
    | none => exact .inl rfl
    | some key => exact .inr (onCurve?_eq_none_of_ne hCurves.symm hFirst)
  · obtain ⟨hWritten, hShort⟩ := load_forms_of_load hLoad
    exact ⟨hWritten, hShort, fun bytes' other hOther => serialize_inj_of_load hLoad hOther⟩

/-- The base point of P-521 is read from the envelope of the form with one coordinate, and not on P-192.
It is written otherwise than the base point of P-192. -/
theorem load_normalForm_base :
    let key : VerifyingKey := ⟨.p521, p521.base⟩
    let bytes := Der.publicKeyInfo (algorithmId .p521) p521.base.encodeCompressed
    let other : VerifyingKey := ⟨.p192, p192.base⟩
    load bytes = .ok key ∧ (onCurve? .p521 bytes <|> onCurve? .p192 bytes) = some key ∧
      load key.serialize = .ok key ∧ load other.serialize = .ok other ∧
      other.serialize ≠ key.serialize := by
  intro key bytes other
  obtain ⟨hCurves, hKeys, -⟩ := load_normalForm bytes
  have hEncodes : Point.Encodes p521.base.encodeCompressed p521.base :=
    Point.encodes_encodeCompressed fun hInfinity => by cases hInfinity
  have hLoad : load bytes = .ok key :=
    load_eq_ok_iff_exists.mpr ⟨_, rfl, hEncodes, Curve.Lawful.base_onCurve⟩
  have hOther : load other.serialize = .ok other :=
    load_serialize_of_onCurve (fun hInfinity => by cases hInfinity) Curve.Lawful.base_onCurve
  obtain ⟨hWritten, -, hUnique⟩ := hKeys key hLoad
  refine ⟨hLoad, ((hCurves .p521 .p192 (by decide)).2 key).mp hLoad, hWritten, hOther, fun hSame => ?_⟩
  exact absurd (congrArg VerifyingKey.curve ((hUnique _ _ hOther).mp hSame)) (by decide)

end VerifyingKey

end Signet.Ecdsa
