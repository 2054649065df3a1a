import Mathlib.Data.Fintype.Card
import Mathlib.Logic.Function.Iterate
import Signet.EntropyPool

/-! Searches that try until an attempt succeeds. A search over finitely many states either ends within
as many trials as there are states, or it never ends. -/
namespace Signet

attribute [local simp] search

/-- What a search gives, one of its attempts gave. -/
theorem exists_attempt_of_search_eq_ok {σ α : Type} {attempt : σ → Except Failure (Option α × σ)}
    {trials : Nat} {state rest : σ} {value : α} (h : search attempt trials state = .ok (value, rest)) :
    ∃ before, attempt before = .ok (some value, rest) := by
  induction trials generalizing state with
  | zero => cases h
  | succ trials ih =>
      rw [search] at h
      split at h
      next => cases h
      next hAttempt =>
        obtain ⟨rfl, rfl⟩ := Prod.mk.inj (Except.ok.inj h)
        exact ⟨state, hAttempt⟩
      next => exact ih h

/-- A search fails where one of its attempts fails, or it has no end. -/
theorem failure_of_search_eq_error {σ α : Type} {attempt : σ → Except Failure (Option α × σ)}
    {trials : Nat} {state : σ} {failure : Failure} (h : search attempt trials state = .error failure) :
    failure = .endless ∨ ∃ before, attempt before = .error failure := by
  induction trials generalizing state with
  | zero => exact .inl (Except.error.inj h).symm
  | succ trials ih =>
      rw [search] at h
      split at h
      next hAttempt =>
        rw [Except.error.inj h] at hAttempt
        exact .inr ⟨state, hAttempt⟩
      next => cases h
      next => exact ih h

/-- A search whose first attempt gives a value goes no further. -/
theorem search_eq_ok_of_attempt {σ α : Type} {attempt : σ → Except Failure (Option α × σ)} {trials : Nat}
    {state rest : σ} {value : α} (hTrials : 0 < trials) (h : attempt state = .ok (some value, rest)) :
    search attempt trials state = .ok (value, rest) := by
  obtain ⟨fewer, rfl⟩ := Nat.exists_eq_add_one.mpr hTrials
  simp [h]

/-- A search whose first attempt fails goes no further. -/
theorem search_eq_error {σ α : Type} {attempt : σ → Except Failure (Option α × σ)} {trials : Nat}
    {state : σ} {failure : Failure} (hTrials : 0 < trials) (h : attempt state = .error failure) :
    search attempt trials state = .error failure := by
  obtain ⟨fewer, rfl⟩ := Nat.exists_eq_add_one.mpr hTrials
  simp [h]

section Search

variable {σ α : Type} {attempt : σ → Except Failure (Option α × σ)} (states : Nat → σ)
  (values : Nat → Option α)

/-- The search stops at the first attempt that gives a value. -/
theorem search_eq_ok
    (hAttempt : ∀ index, attempt (states index) = .ok (values index, states (index + 1)))
    {first trials : Nat} {value : α} (hLess : first < trials) (hValue : values first = some value)
    (hBefore : ∀ index < first, values index = none) :
    search attempt trials (states 0) = .ok (value, states (first + 1)) := by
  induction trials generalizing first states values with
  | zero => omega
  | succ trials ih =>
      rw [search, hAttempt 0]
      cases first with
      | zero => rw [hValue]
      | succ first =>
          rw [hBefore 0 (Nat.succ_pos _)]
          exact ih (fun index => states (index + 1)) (fun index => values (index + 1))
            (fun index => hAttempt (index + 1)) (Nat.lt_of_succ_lt_succ hLess) hValue
            fun index hIndex => hBefore (index + 1) (Nat.succ_lt_succ hIndex)

theorem search_eq_endless
    (hAttempt : ∀ index, attempt (states index) = .ok (values index, states (index + 1)))
    {trials : Nat} (hNone : ∀ index < trials, values index = none) :
    search attempt trials (states 0) = .error .endless := by
  induction trials generalizing states values with
  | zero => rfl
  | succ trials ih =>
      rw [search, hAttempt 0, hNone 0 (Nat.succ_pos _)]
      exact ih (fun index => states (index + 1)) (fun index => values (index + 1))
        (fun index => hAttempt (index + 1))
        fun index hIndex => hNone (index + 1) (Nat.succ_lt_succ hIndex)

end Search

/-- The states that a function runs through are met within as many steps as there are states. The states
are counted by a code below `bound`. -/
theorem exists_iterate_eq_of_code {α : Type} {bound : Nat} (code : α → Fin bound)
    (hCode : Function.Injective code) (f : α → α) (x : α) (count : Nat) :
    ∃ index < bound, f^[index] x = f^[count] x := by
  classical
  have hExists : ∃ index, f^[index] x = f^[count] x := ⟨count, rfl⟩
  let least := Nat.find hExists
  have hLeast : f^[least] x = f^[count] x := Nat.find_spec hExists
  refine ⟨least, ?_, hLeast⟩
  -- Up to the least index no state comes twice, since going round would lead there earlier.
  have hInjective : Function.Injective fun index : Fin (least + 1) => code (f^[index.val] x) := by
    intro i j hEq
    have hState : f^[i.val] x = f^[j.val] x := hCode hEq
    have hShort {a b : Nat} (hState : f^[a] x = f^[b] x) (hb : b ≤ least) : ¬a < b := by
      intro hab
      have hRound : f^[least - b + a] x = f^[count] x := by
        rw [Function.iterate_add_apply, hState, ← Function.iterate_add_apply,
          Nat.sub_add_cancel hb, hLeast]
      have hMin := Nat.find_min' hExists hRound
      omega
    have hij := hShort hState (Nat.lt_succ_iff.mp j.isLt)
    have hji := hShort hState.symm (Nat.lt_succ_iff.mp i.isLt)
    exact Fin.ext (by omega)
  have hCard := Fintype.card_le_of_injective _ hInjective
  rw [Fintype.card_fin, Fintype.card_fin] at hCard
  omega

end Signet
