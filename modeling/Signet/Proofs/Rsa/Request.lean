import Signet.Proofs.Rsa.NormalForm
import Signet.Proofs.Rsa.Signing

/-! Requests for RSA keys. A request is checked in a fixed order and refused with the fault of the first
check that it does not pass; after that nothing breaks a rule any more. The limits of a valid policy leave
only sizes at which every message can be encoded and every key can be read back. What a refused request
reports depends on the check that it fails: the length of a seed is checked last, when an insecure policy
has been reported already, and the operating system is asked for entropy no sooner. -/
namespace Signet

/-- The failures that draws and searches end with. -/
inductive Failure.OfDraw : Failure → Prop where
  | poolRefused (error : Error) : OfDraw (.aborted (.poolRefused error))
  | endless : OfDraw .endless

theorem EntropyPool.failure_of_draw {pool : EntropyPool} {length : Nat} {failure : Failure}
    (h : pool.draw length = .error failure) : failure.OfDraw := by
  rw [draw] at h
  split at h
  next => cases h
  next error _ =>
    rw [← Except.error.inj h]
    exact .poolRefused error

theorem failure_of_search {σ α : Type} {attempt : σ → Except Failure (Option α × σ)} {trials : Nat}
    {state : σ} {failure : Failure}
    (hAttempt : ∀ before, attempt before = .error failure → failure.OfDraw)
    (h : search attempt trials state = .error failure) : failure.OfDraw := by
  rcases failure_of_search_eq_error h with rfl | ⟨before, hBefore⟩
  · exact .endless
  · exact hAttempt before hBefore

/-- The fault of a caller who broke a rule, where this is why an operation fails. -/
def violation? {α : Type} : Except Failure α → Option Fault
  | .error (.refused (.precondition _ fault)) => some fault
  | _ => none

namespace Rsa

variable {bits : Nat} {policy : RsaPolicy} {pool : EntropyPool} {seed message : Bytes}
  {key : SigningKey} {failure : Failure}

section Failures

theorem failure_of_drawPrime (h : drawPrime bits pool = .error failure) : failure.OfDraw := by
  refine failure_of_search (fun before hAttempt => ?_) h
  rcases error_of_bind_eq_error hAttempt with hDraw | ⟨drawn, -, hBody⟩
  · exact EntropyPool.failure_of_draw hDraw
  · cases hBody

theorem failure_of_tryNumbers (h : tryNumbers bits pool = .error failure) : failure.OfDraw := by
  rcases error_of_bind_eq_error h with hFirst | ⟨first, -, hLater⟩
  · exact failure_of_drawPrime hFirst
  · rcases error_of_bind_eq_error hLater with hSecond | ⟨second, -, hBody⟩
    · exact failure_of_drawPrime hSecond
    · cases hBody

theorem SigningKey.failure_of_drawBlinding (h : key.drawBlinding pool = .error failure) :
    failure.OfDraw := by
  refine failure_of_search (fun before hAttempt => ?_) h
  rcases error_of_bind_eq_error hAttempt with hDraw | ⟨drawn, -, hBody⟩
  · exact EntropyPool.failure_of_draw hDraw
  · cases hBody

theorem SigningKey.exists_fault_of_ofNumbers {numbers : PrivateNumbers} {error : Error}
    (h : ofNumbers numbers = .error error) : ∃ fault, error = .backend .rsaPss fault := by
  rw [ofNumbers] at h
  split at h
  next => exact ⟨_, (Except.error.inj h).symm⟩
  next =>
    simp only at h
    split_ifs at h
    exact ⟨_, (Except.error.inj h).symm⟩

/-- The generation from a pool has no rules that a caller could break. -/
theorem SigningKey.failure_of_ofPool (h : ofPool bits pool = .error failure) :
    failure.OfDraw ∨ ∃ fault, failure = .refused (.backend .rsaPss fault) := by
  rcases error_of_bind_eq_error h with hSearch | ⟨⟨⟨p, q, d⟩, rest⟩, -, hBody⟩
  · exact .inl (failure_of_search (fun _ => failure_of_tryNumbers) hSearch)
  · right
    simp only at hBody
    split_ifs at hBody with hPublic hPrivate
    · generalize hMade : ofNumbers _ = made at hBody
      cases made with
      | ok made => cases hBody
      | error error =>
          obtain ⟨fault, rfl⟩ := exists_fault_of_ofNumbers hMade
          exact ⟨fault, (Except.error.inj hBody).symm⟩
    · exact ⟨_, (Except.error.inj hBody).symm⟩
    · exact ⟨_, (Except.error.inj hBody).symm⟩

theorem SigningKey.violation?_ofPool (bits : Nat) (pool : EntropyPool) :
    violation? (ofPool bits pool) = none := by
  cases hMade : ofPool bits pool with
  | ok key => rfl
  | error failure =>
      rcases failure_of_ofPool hMade with hDraw | ⟨fault, rfl⟩
      · cases hDraw <;> rfl
      · rfl

end Failures

section Checks

/-- A condition on requests, and the fault of those that do not meet it. -/
structure Check where
  holds : Bool
  fault : Fault

/-- The fault of the first check that a request does not pass. -/
def firstFault? (checks : List Check) : Option Fault :=
  (checks.find? fun check => !check.holds).map Check.fault

@[simp] theorem firstFault?_nil : firstFault? [] = none := rfl

@[simp] theorem firstFault?_cons (check : Check) (checks : List Check) :
    firstFault? (check :: checks) =
      if ¬check.holds then some check.fault else firstFault? checks := by
  rw [firstFault?, List.find?_cons]
  cases check.holds <;> rfl

theorem firstFault?_append (checks later : List Check) :
    firstFault? (checks ++ later) = (firstFault? checks).or (firstFault? later) := by
  rw [firstFault?, List.find?_append, Option.map_or]
  rfl

/-- The checks of the limits of a policy and of the size of a key, in their order. -/
def sizeChecks (bits : Nat) (policy : RsaPolicy) : List Check :=
  [⟨RsaPolicy.testFloor ≤ policy.minKeySizeBits,
      .policy (.minKeySizeBelow RsaPolicy.testFloor policy.minKeySizeBits)⟩,
    ⟨policy.maxKeySizeBits ≤ RsaPolicy.ceiling,
      .policy (.maxKeySizeAbove RsaPolicy.ceiling policy.maxKeySizeBits)⟩,
    ⟨policy.minKeySizeBits ≤ policy.maxKeySizeBits,
      .policy (.limitsCross policy.minKeySizeBits policy.maxKeySizeBits)⟩,
    ⟨RsaPolicy.seedFloor ≤ policy.minSeedLength,
      .policy (.minSeedLengthBelow RsaPolicy.seedFloor policy.minSeedLength)⟩,
    ⟨policy.minKeySizeBits ≤ bits, .sizeTooSmall policy.minKeySizeBits bits⟩,
    ⟨bits ≤ policy.maxKeySizeBits, .sizeTooLarge policy.maxKeySizeBits bits⟩]

/-- The checks of a request with a seed, in their order. -/
def requestChecks (bits : Nat) (seed : Bytes) (policy : RsaPolicy) : List Check :=
  sizeChecks bits policy ++
    [⟨policy.minSeedLength ≤ seed.length, .seedTooShort policy.minSeedLength seed.length⟩]

/-- What is reported about a size that a policy allows. -/
def warnings (bits : Nat) (policy : RsaPolicy) : List Event :=
  if policy.isInsecure then [.insecurePolicy bits policy.minKeySizeBits] else []

/-- What is reported about a key that is generated. -/
def reports (bits : Nat) (policy : RsaPolicy) : List Event :=
  warnings bits policy ++ [.generatingRsaKey bits]

theorem checkSize_eq (bits : Nat) (policy : RsaPolicy) : checkSize bits policy =
    match firstFault? (sizeChecks bits policy) with
    | some fault => .silent (.error (.precondition .rsaPss fault))
    | none => ⟨warnings bits policy, .ok ()⟩ := by
  rw [checkSize, RsaPolicy.validate]
  simp only [sizeChecks, firstFault?_cons, firstFault?_nil, decide_eq_true_eq, Nat.not_le, warnings]
  split_ifs <;> rfl

theorem firstFault?_requestChecks (bits : Nat) (seed : Bytes) (policy : RsaPolicy) :
    firstFault? (requestChecks bits seed policy) = (firstFault? (sizeChecks bits policy)).or
      (if seed.length < policy.minSeedLength then
        some (.seedTooShort policy.minSeedLength seed.length) else none) := by
  rw [requestChecks, firstFault?_append]
  simp only [firstFault?_cons, firstFault?_nil, decide_eq_true_eq, Nat.not_le]

theorem firstFault?_requestChecks_eq_none_iff :
    firstFault? (requestChecks bits seed policy) = none ↔
      RsaPolicy.testFloor ≤ policy.minKeySizeBits ∧ policy.minKeySizeBits ≤ bits ∧
        bits ≤ policy.maxKeySizeBits ∧ policy.maxKeySizeBits ≤ RsaPolicy.ceiling ∧
        RsaPolicy.seedFloor ≤ policy.minSeedLength ∧ policy.minSeedLength ≤ seed.length := by
  simp only [requestChecks, sizeChecks, List.cons_append, List.nil_append, firstFault?_cons,
    firstFault?_nil, decide_eq_true_eq, Nat.not_le]
  split_ifs <;> simp only [false_iff, true_iff] <;> omega

end Checks

section Requests

theorem generate_eq (bits : Nat) (policy : RsaPolicy) (draw : OsDraw) :
    generate bits policy draw = match firstFault? (sizeChecks bits policy), draw with
      | some fault, _ => .silent (.error (.refused (.precondition .rsaPss fault)))
      | none, .error fault =>
          ⟨warnings bits policy, .error (.refused (.rng .randomPool (.stated fault.message)))⟩
      | none, .ok entropy => ⟨reports bits policy, SigningKey.ofPool bits (.ofSeed entropy)⟩ := by
  rw [generate, checkSize_eq]
  cases firstFault? (sizeChecks bits policy) with
  | some fault => rfl
  | none =>
      cases draw with
      | ok entropy => rfl
      | error fault => exact congrArg (Logged.mk · _) (List.append_nil _)

theorem generateFromSeed_eq (bits : Nat) (seed : Bytes) (policy : RsaPolicy) :
    generateFromSeed bits seed policy = match firstFault? (sizeChecks bits policy) with
      | some fault => .silent (.error (.refused (.precondition .rsaPss fault)))
      | none =>
          if seed.length < policy.minSeedLength then
            ⟨warnings bits policy, .error (.refused
              (.precondition .rsaPss (.seedTooShort policy.minSeedLength seed.length)))⟩
          else ⟨reports bits policy, SigningKey.ofPool bits (.ofSeed seed)⟩ := by
  rw [generateFromSeed, checkSize_eq]
  cases firstFault? (sizeChecks bits policy) with
  | some fault => rfl
  | none =>
      -- The seed is looked at after the warnings, which stand whatever comes of it.
      by_cases hSeed : seed.length < policy.minSeedLength
      · simp only [if_pos hSeed]
        exact congrArg (Logged.mk · _) (List.append_nil _)
      · simp only [if_neg hSeed]
        rfl

/-- A request with a seed is refused with the fault of the first check that it does not pass. -/
theorem result_generateFromSeed_eq (bits : Nat) (seed : Bytes) (policy : RsaPolicy) :
    (generateFromSeed bits seed policy).result =
      match firstFault? (requestChecks bits seed policy) with
      | some fault => .error (.refused (.precondition .rsaPss fault))
      | none => SigningKey.ofPool bits (.ofSeed seed) := by
  rw [generateFromSeed_eq, firstFault?_requestChecks]
  cases firstFault? (sizeChecks bits policy) with
  | some fault => rfl
  | none => split_ifs <;> rfl

theorem violation?_generate (bits : Nat) (policy : RsaPolicy) (draw : OsDraw) :
    violation? (generate bits policy draw).result = firstFault? (sizeChecks bits policy) := by
  rw [generate_eq]
  cases firstFault? (sizeChecks bits policy) with
  | some fault => rfl
  | none =>
      cases draw with
      | ok entropy => exact SigningKey.violation?_ofPool bits _
      | error fault => rfl

theorem violation?_generateFromSeed (bits : Nat) (seed : Bytes) (policy : RsaPolicy) :
    violation? (generateFromSeed bits seed policy).result =
      firstFault? (requestChecks bits seed policy) := by
  rw [result_generateFromSeed_eq]
  cases firstFault? (requestChecks bits seed policy) with
  | some fault => rfl
  | none => exact SigningKey.violation?_ofPool bits _

/-- The size of a key is not refused for a seed. -/
theorem firstFault?_sizeChecks_ne_seedTooShort (bits : Nat) (policy : RsaPolicy) (minimum actual : Nat) :
    firstFault? (sizeChecks bits policy) ≠ some (.seedTooShort minimum actual) := by
  simp only [sizeChecks, firstFault?_cons, firstFault?_nil]
  split_ifs <;> simp

theorem events_generate (bits : Nat) (policy : RsaPolicy) (draw : OsDraw) :
    (generate bits policy draw).events =
      match violation? (generate bits policy draw).result, draw with
      | some _, _ => []
      | none, .error _ => warnings bits policy
      | none, .ok _ => reports bits policy := by
  rw [violation?_generate, generate_eq]
  cases firstFault? (sizeChecks bits policy) <;> cases draw <;> rfl

theorem events_generateFromSeed (bits : Nat) (seed : Bytes) (policy : RsaPolicy) :
    (generateFromSeed bits seed policy).events =
      match violation? (generateFromSeed bits seed policy).result with
      | some (.seedTooShort _ _) => warnings bits policy
      | some _ => []
      | none => reports bits policy := by
  have hOther := firstFault?_sizeChecks_ne_seedTooShort bits policy
  rw [violation?_generateFromSeed, firstFault?_requestChecks, generateFromSeed_eq]
  cases hFault : firstFault? (sizeChecks bits policy) with
  | none => split_ifs <;> rfl
  | some fault =>
      simp only [Option.some_or]
      split
      next minimum actual hShort => exact absurd (hFault.trans hShort) (hOther minimum actual)
      next => rfl
      next hNone => cases hNone

theorem generatingRsaKey_not_mem_warnings : .generatingRsaKey bits ∉ warnings bits policy := by
  rw [warnings]
  split_ifs <;> simp

theorem insecurePolicy_mem_warnings_iff :
    .insecurePolicy bits policy.minKeySizeBits ∈ warnings bits policy ↔ policy.isInsecure := by
  rw [warnings]
  split_ifs with hInsecure <;> simp [hInsecure]

end Requests

section Usable

/-- Whether a key of a size has room for every message and is read back. -/
structure SigningKey.Usable (key : SigningKey) (bits : Nat) : Prop where
  sizeInBits_eq : key.verifyingKey.sizeInBits = bits
  /-- A digest, a salt and two more bytes fit into an encoded message. -/
  room : 32 + 32 + 2 ≤ (bits - 1 + 7) / 8
  encodes : ∀ message salt, ∃ encoded,
    encode? key.encodedBits (Sha256.hash message).val salt = some encoded
  /-- What is refused is refused because the operating system gives no entropy, or has been encoded before;
  then only the private operation may refuse it. -/
  encodes_of_refused : ∀ message draw error,
    (key.sign message draw).result = .error (.refused error) →
      (∃ fault, draw = .error fault ∧ error = .rng .randomPool (.stated fault.message)) ∨
      ∃ salt encoded factor inverse, salt.length = 32 ∧
        encode? key.encodedBits (Sha256.hash message).val salt = some encoded ∧
        key.applyBlinded (Bytes.ofBigEndian encoded) factor inverse = .error error
  load_serialize : load key.serialize = .ok key
  load_serialize_verifyingKey :
    VerifyingKey.load key.verifyingKey.serialize = .ok key.verifyingKey

theorem exists_encode?_eq_some {bits : Nat} (hRoom : 66 ≤ encodedLength bits) (digest salt : Bytes) :
    ∃ encoded, encode? bits digest salt = some encoded :=
  ⟨_, encode?_eq_some_iff.mpr ⟨hRoom, rfl⟩⟩

/-- A key with room for an encoded message is refused a signature by its private operation alone. -/
theorem SigningKey.exists_of_signWith_eq_refused (hRoom : 66 ≤ encodedLength key.encodedBits)
    {error : Error} (h : key.signWith message pool = .error (.refused error)) :
    ∃ salt encoded factor inverse, salt.length = 32 ∧
      encode? key.encodedBits (Sha256.hash message).val salt = some encoded ∧
      key.applyBlinded (Bytes.ofBigEndian encoded) factor inverse = .error error := by
  -- Draws never refuse anything, they stop the signer or have no end.
  rcases error_of_bind_eq_error h with hDraw | ⟨⟨salt, afterSalt⟩, hSalt, hRest⟩
  · cases EntropyPool.failure_of_draw hDraw
  · obtain ⟨encoded, hEncoded⟩ := exists_encode?_eq_some hRoom (Sha256.hash message).val salt
    simp only [hEncoded] at hRest
    rcases error_of_bind_eq_error hRest with hDraw | ⟨⟨⟨factor, inverse⟩, rest⟩, -, hBody⟩
    · cases failure_of_drawBlinding hDraw
    · simp only at hBody
      split at hBody
      next fault hRefused =>
        obtain rfl : fault = error := by injection Except.error.inj hBody
        exact ⟨salt, encoded, factor, inverse, EntropyPool.length_of_draw_eq_ok hSalt, hEncoded,
          hRefused⟩
      next => cases hBody

/-- Generated keys are usable at their size, from the least size on that a policy may allow. -/
theorem SigningKey.Generated.usable (hGenerated : Generated key)
    (hFloor : RsaPolicy.testFloor ≤ key.verifyingKey.sizeInBits) :
    key.Usable key.verifyingKey.sizeInBits := by
  have hRoom : 66 ≤ (key.verifyingKey.sizeInBits - 1 + 7) / 8 := by
    rw [RsaPolicy.testFloor] at hFloor
    omega
  have hSize := hGenerated.sizeInBits_le
  have hLength := (Obtained.generated hGenerated).length_serialize_le
  refine ⟨rfl, hRoom, fun message salt => exists_encode?_eq_some hRoom _ salt, ?_,
    load_serialize hLength, ?_⟩
  · intro message draw error hRefused
    cases draw with
    | error fault =>
        injection Except.error.inj hRefused with hError
        exact .inl ⟨fault, rfl, hError.symm⟩
    | ok entropy =>
        rw [sign_eq_silent] at hRefused
        exact .inr (exists_of_signWith_eq_refused hRoom hRefused)
  · rw [VerifyingKey.load_serialize, if_pos hSize]

end Usable

/-- A request for a key with a seed comes to the generation if and only if its limits are in order: the
policy is valid, the size is within it and the seed is long enough. Otherwise it is refused with the fault
of the first check that it does not pass. The keys that come of it have the size that was asked for, have
room for the encoding of every message, and are read back from what they are written as. -/
theorem generateFromSeed_checked_and_usable (bits : Nat) (seed : Bytes) (policy : RsaPolicy) :
    (generateFromSeed bits seed policy).result =
      (match firstFault? (requestChecks bits seed policy) with
      | some fault => .error (.refused (.precondition .rsaPss fault))
      | none => SigningKey.ofPool bits (.ofSeed seed)) ∧
    (.generatingRsaKey bits ∈ (generateFromSeed bits seed policy).events ↔
      firstFault? (requestChecks bits seed policy) = none) ∧
    (firstFault? (requestChecks bits seed policy) = none ↔
      522 ≤ policy.minKeySizeBits ∧ policy.minKeySizeBits ≤ bits ∧ bits ≤ policy.maxKeySizeBits ∧
        policy.maxKeySizeBits ≤ 4096 ∧ 8 ≤ policy.minSeedLength ∧
        policy.minSeedLength ≤ seed.length) ∧
    ∀ key, (generateFromSeed bits seed policy).result = .ok key → key.Usable bits := by
  refine ⟨result_generateFromSeed_eq bits seed policy, ?_, firstFault?_requestChecks_eq_none_iff, ?_⟩
  · rw [generateFromSeed_eq, firstFault?_requestChecks]
    cases firstFault? (sizeChecks bits policy) with
    | some fault => simp [Logged.silent]
    | none => split_ifs <;> simp [reports, generatingRsaKey_not_mem_warnings]
  · intro key hKey
    have hGenerated : SigningKey.Generated key := .seeded hKey
    rw [result_generateFromSeed_eq] at hKey
    split at hKey
    next => cases hKey
    next hAllowed =>
      obtain ⟨hFloor, hLeast, -⟩ := firstFault?_requestChecks_eq_none_iff.mp hAllowed
      obtain ⟨rfl, -⟩ := SigningKey.sizeInBits_of_ofPool hKey
      exact hGenerated.usable (hFloor.trans hLeast)

/-- The key of the seed is usable, at the least size. -/
theorem usable_drawnKey :
    (generateFromSeed 522 SigningKey.drawnSeed .testing).result = .ok SigningKey.drawnKey ∧
      SigningKey.drawnKey.Usable 522 :=
  ⟨SigningKey.generateFromSeed_drawnSeed,
    (generateFromSeed_checked_and_usable 522 SigningKey.drawnSeed .testing).2.2.2 _
      SigningKey.generateFromSeed_drawnSeed⟩

/-- What a request for a key reports. A request without a seed reports nothing if it breaks a rule, and
otherwise the policy, if it is insecure, and then the generation. If the operating system gives no entropy,
the request ends with an error between the two. A request with a seed does the same, except that it draws
nothing and that a seed that is too short is found out after the policy has been reported: the warning says
that the size is allowed, not that a key is generated. -/
theorem events_of_request (bits : Nat) (seed : Bytes) (draw : OsDraw) (policy : RsaPolicy) :
    (generate bits policy draw).events =
      (match violation? (generate bits policy draw).result, draw with
      | some _, _ => []
      | none, .error _ => warnings bits policy
      | none, .ok _ => reports bits policy) ∧
    (generate bits policy draw).result =
      (match firstFault? (sizeChecks bits policy), draw with
      | some fault, _ => .error (.refused (.precondition .rsaPss fault))
      | none, .error fault => .error (.refused (.rng .randomPool (.stated fault.message)))
      | none, .ok entropy => SigningKey.ofPool bits (.ofSeed entropy)) ∧
    (generateFromSeed bits seed policy).events =
      (match violation? (generateFromSeed bits seed policy).result with
      | some (.seedTooShort _ _) => warnings bits policy
      | some _ => []
      | none => reports bits policy) ∧
    (.insecurePolicy bits policy.minKeySizeBits ∈ (generate bits policy draw).events ↔
      policy.isInsecure ∧ violation? (generate bits policy draw).result = none) ∧
    (.insecurePolicy bits policy.minKeySizeBits ∈ (generateFromSeed bits seed policy).events ↔
      policy.isInsecure ∧ firstFault? (sizeChecks bits policy) = none) ∧
    (reports bits policy).map (fun event => (event.level, event.message)) =
      (if policy.minKeySizeBits < 1536 then
        [("WARN", "generating RSA key under a policy below the production floor")] else []) ++
        [("DEBUG", "generating RSA key")] := by
  refine ⟨events_generate bits policy draw, ?_, events_generateFromSeed bits seed policy, ?_, ?_, ?_⟩
  · rw [generate_eq]
    cases firstFault? (sizeChecks bits policy) <;> cases draw <;> rfl
  · rw [violation?_generate, generate_eq]
    cases firstFault? (sizeChecks bits policy) with
    | some fault => simp [Logged.silent]
    | none => cases draw <;> simp [reports, insecurePolicy_mem_warnings_iff]
  · rw [generateFromSeed_eq]
    cases firstFault? (sizeChecks bits policy) with
    | some fault => simp [Logged.silent]
    | none => split_ifs <;> simp [reports, insecurePolicy_mem_warnings_iff]
  · have hInsecure : policy.isInsecure = decide (policy.minKeySizeBits < 1536) := rfl
    rw [reports, warnings, hInsecure]
    simp only [decide_eq_true_eq]
    split_ifs <;> rfl

/-- A seed of seven bytes is refused, but not in silence. -/
theorem exists_refused_with_report :
    generateFromSeed 522 (List.replicate 7 0) .testing =
      ⟨[.insecurePolicy 522 522], .error (.refused (.precondition .rsaPss (.seedTooShort 8 7)))⟩ ∧
    ¬∀ (bits : Nat) (seed : Bytes) (policy : RsaPolicy),
      (violation? (generateFromSeed bits seed policy).result).isSome →
        (generateFromSeed bits seed policy).events = [] := by
  have hRun : generateFromSeed 522 (List.replicate 7 0) .testing =
      ⟨[.insecurePolicy 522 522], .error (.refused (.precondition .rsaPss (.seedTooShort 8 7)))⟩ := rfl
  refine ⟨hRun, fun hSilent => ?_⟩
  have hEvents := hSilent 522 (List.replicate 7 0) .testing
  rw [hRun] at hEvents
  cases hEvents rfl

end Rsa

end Signet
