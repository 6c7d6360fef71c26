import Vls.Policy.SimpleValidator

/-!
# Fees and feerates

A validator bounds the feerate that a fee implies.  The feerate is computed on 64-bit words and cut
to 32 bits; it is the exact one as long as neither loses anything.
-/

namespace ValidatingSigner

open Base Overflow PolicyFilter

/-- The highest feerate that gives rise to a fee, as a plain number. -/
def feeratePerKw (totalFee weight : Nat) : Nat := (totalFee * 1000 + 999) / weight

/-- The highest fee whose feerate is at most `rate`. -/
def maxFee (rate weight : Nat) : Nat := ((rate + 1) * weight - 1000) / 1000

theorem feeratePerKw_le_iff {fee rate weight : Nat} (hpos : 0 < weight)
    (hfee : 1000 ≤ (rate + 1) * weight) :
    feeratePerKw fee weight ≤ rate ↔ fee ≤ maxFee rate weight := by
  unfold feeratePerKw maxFee
  rw [← Nat.lt_succ_iff, Nat.div_lt_iff_lt_mul hpos, Nat.succ_eq_add_one]
  generalize (rate + 1) * weight = bound at hfee ⊢
  omega

/-! ## The estimate -/

section Estimate

variable {o : Overflow} {fee weight r : Nat}

/-- The estimate is the feerate with the product reduced to 64 bits and the quotient to 32. -/
theorem estimateFeeratePerKw_ok (h : estimateFeeratePerKw o fee weight = .ok r) :
    r = (fee * 1000 + 999) % 2 ^ 64 / weight % 2 ^ 32 ∧
      (o = .checked → fee * 1000 + 999 < 2 ^ 64) := by
  obtain ⟨scaled, hscaled, h⟩ := bind_ok h
  obtain ⟨raised, hraised, h⟩ := bind_ok h
  cases h
  constructor
  · rw [eq_mod_of_uint hraised, eq_mod_of_uint hscaled, Nat.mod_add_mod]
  · rintro rfl
    obtain ⟨rfl, -⟩ := eq_of_uint_checked hscaled
    exact (eq_of_uint_checked hraised).2

/-- There is an estimate iff the build wraps or the product fits. -/
theorem exists_estimateFeeratePerKw (h : o = .wrapping ∨ fee * 1000 + 999 < 2 ^ 64) :
    ∃ r, estimateFeeratePerKw o fee weight = .ok r := by
  have hscaled : o = .wrapping ∨ fee * 1000 < 2 ^ 64 := h.imp_right (by omega)
  obtain ⟨scaled, hscaled⟩ := (u64_ok_iff (ε := Refusal)).mpr hscaled
  have hraised : o = .wrapping ∨ scaled + 999 < 2 ^ 64 :=
    h.imp_right fun h => by
      have := le_of_u64 hscaled
      omega
  obtain ⟨raised, hraised⟩ := (u64_ok_iff (ε := Refusal)).mpr hraised
  exact ⟨raised / weight % 2 ^ 32,
    bind_eq_ok.mpr ⟨scaled, hscaled, bind_eq_ok.mpr ⟨raised, hraised, rfl⟩⟩⟩

theorem estimateFeeratePerKw_eq (hproduct : fee * 1000 + 999 < 2 ^ 64)
    (hquotient : feeratePerKw fee weight < 2 ^ 32)
    (h : estimateFeeratePerKw o fee weight = .ok r) : r = feeratePerKw fee weight := by
  rw [(estimateFeeratePerKw_ok h).1, Nat.mod_eq_of_lt hproduct]
  exact Nat.mod_eq_of_lt hquotient

theorem estimate_of_fits (o : Overflow) (hproduct : fee * 1000 + 999 < 2 ^ 64)
    (hquotient : feeratePerKw fee weight < 2 ^ 32) :
    estimateFeeratePerKw o fee weight = .ok (feeratePerKw fee weight) := by
  obtain ⟨r, hr⟩ : ∃ r, estimateFeeratePerKw o fee weight = .ok r :=
    exists_estimateFeeratePerKw (.inr hproduct)
  rw [hr, estimateFeeratePerKw_eq hproduct hquotient hr]

/-- An estimate that loses something is below the feerate. -/
theorem estimateFeeratePerKw_lt (hpos : 0 < weight) (hweight : weight < 2 ^ 64)
    (hlost : 2 ^ 64 ≤ fee * 1000 + 999 ∨ 2 ^ 32 ≤ feeratePerKw fee weight)
    (h : estimateFeeratePerKw o fee weight = .ok r) : r < feeratePerKw fee weight := by
  rw [(estimateFeeratePerKw_ok h).1]
  unfold feeratePerKw at hlost ⊢
  generalize fee * 1000 + 999 = product at hlost ⊢
  by_cases hproduct : product < 2 ^ 64
  · rw [Nat.mod_eq_of_lt hproduct]
    have hlarge := hlost.resolve_left (by omega)
    exact (Nat.mod_lt _ (by decide)).trans_le hlarge
  · calc product % 2 ^ 64 / weight % 2 ^ 32 ≤ product % 2 ^ 64 / weight := Nat.mod_le _ _
      _ < product % 2 ^ 64 / weight + 1 := Nat.lt_succ_self _
      _ = (product % 2 ^ 64 + weight) / weight := (Nat.add_div_right _ hpos).symm
      _ ≤ product / weight := Nat.div_le_div_right (by omega)

end Estimate

/-- A feerate is at most that of a fee iff it gives rise to no more than the fee. -/
theorem le_feeratePerKw_iff {fee rate weight : Nat} (hpos : 1 ≤ weight) :
    rate ≤ feeratePerKw fee weight ↔ rate * weight / 1000 ≤ fee := by
  rw [feeratePerKw, Nat.le_div_iff_mul_le hpos, ← Nat.lt_succ_iff, ← Nat.lt_succ_iff,
    Nat.div_lt_iff_lt_mul (by decide)]
  omega

/-- A feerate gives rise to the same fee as the feerate of that fee. -/
theorem fee_feeratePerKw {rate weight : Nat} (hpos : 1 ≤ weight) :
    feeratePerKw (rate * weight / 1000) weight * weight / 1000 = rate * weight / 1000 := by
  refine le_antisymm ((le_feeratePerKw_iff hpos).mp le_rfl) (Nat.div_le_div_right ?_)
  exact Nat.mul_le_mul_right _ ((le_feeratePerKw_iff hpos).mpr le_rfl)

/-! ## Fees that are estimated exactly -/

/-- The build computes the feerate of a fee without loss, or not at all. -/
def Estimable (o : Overflow) (fee weight : Nat) : Prop :=
  (o = .wrapping → fee * 1000 + 999 < 2 ^ 64) ∧
    (fee * 1000 + 999 < 2 ^ 64 → feeratePerKw fee weight < 2 ^ 32)

theorem Estimable.eq_of_estimate {o : Overflow} {fee weight r : Nat}
    (h : Estimable o fee weight) (hr : estimateFeeratePerKw o fee weight = .ok r) :
    r = feeratePerKw fee weight := by
  have hproduct : fee * 1000 + 999 < 2 ^ 64 := by
    cases o with
    | checked => exact (estimateFeeratePerKw_ok hr).2 rfl
    | wrapping => exact h.1 rfl
  exact estimateFeeratePerKw_eq hproduct (h.2 hproduct) hr

/-- The fees of a channel of the default size are estimable unless the transaction is smaller than
any there is. -/
theorem estimable_of_le {o : Overflow} {fee weight : Nat} (hfee : fee ≤ 1000000001)
    (hweight : 233 ≤ weight) : Estimable o fee weight := by
  refine ⟨fun _ => by omega, fun _ => ?_⟩
  exact Nat.div_lt_of_lt_mul (by omega)

/-! ## The checks -/

namespace SimpleValidator

variable (v : SimpleValidator)

/-- Check what a transaction spends without benefit as if it were a fee, and return it. -/
def validateBeneficialValue (sumOurInputs sumOurOutputs weight : Nat) : Result Nat := do
  refuseIf (sumOurInputs < sumOurOutputs) (policyError
    (s!"non-beneficial value underflow: sum of our inputs {sumOurInputs} < " ++
      s!"sum of our outputs {sumOurOutputs}"))
  let nonBeneficial := sumOurInputs - sumOurOutputs
  let feerate ← estimateFeeratePerKw v.overflow nonBeneficial weight
  v.policy.filter.policyErr
    (feerate > v.policy.maxFeeratePerKw ∧ v.policy.devFlags.getD false = false)
    "policy-onchain-fee-range" "validate_beneficial_value"
    ("non-beneficial value considered as fees is above maximum feerate: " ++
      s!"{feerate} > {v.policy.maxFeeratePerKw}")
  return nonBeneficial

variable {v : SimpleValidator} {sumInputs sumOutputs weight : Nat}

/-- Under the default filter an accepted fee has an estimate within the policy. -/
theorem validateFee_ok (hfilter : v.policy.filter = .default) {tag : String} {u : Unit}
    (h : v.validateFee tag sumInputs sumOutputs weight = .ok u) :
    sumOutputs ≤ sumInputs ∧
      ∃ r, estimateFeeratePerKw v.overflow (sumInputs - sumOutputs) weight = .ok r ∧
        v.policy.minFeeratePerKw ≤ r ∧ r ≤ v.policy.maxFeeratePerKw := by
  obtain ⟨u, hcovered, h⟩ := bind_ok h
  obtain ⟨r, hr, h⟩ := bind_ok h
  obtain ⟨u, hmin, hmax⟩ := bind_ok h
  rw [refuseIf_eq_ok, not_lt] at hcovered
  rw [hfilter, default_policyErr_eq_ok, not_lt] at hmin hmax
  exact ⟨hcovered, r, hr, hmin, hmax⟩

/-- A fee check aborts iff it computes the feerate in a build that checks overflow and the product
does not fit. -/
theorem validateFee_abort_iff {tag : String} :
    (∃ m, v.validateFee tag sumInputs sumOutputs weight = .error (.abort m)) ↔
      sumOutputs ≤ sumInputs ∧ v.overflow = .checked ∧
        2 ^ 64 ≤ (sumInputs - sumOutputs) * 1000 + 999 := by
  constructor
  · rintro ⟨m, h⟩
    rcases bind_eq_error.mp h with h | ⟨u, hcovered, h⟩
    · exact absurd h (NoAbort.refuseIf _ _ m)
    rw [refuseIf_eq_ok, not_lt] at hcovered
    rcases bind_eq_error.mp h with h | ⟨r, -, h⟩
    · have hnone : ¬ (v.overflow = .wrapping ∨ (sumInputs - sumOutputs) * 1000 + 999 < 2 ^ 64) := by
        intro hfits
        obtain ⟨r, hr⟩ : ∃ r,
            estimateFeeratePerKw v.overflow (sumInputs - sumOutputs) weight = .ok r :=
          exists_estimateFeeratePerKw hfits
        rw [hr] at h
        cases h
      push Not at hnone
      refine ⟨hcovered, ?_, hnone.2⟩
      cases ho : v.overflow with
      | checked => rfl
      | wrapping => exact absurd ho hnone.1
    · rcases bind_eq_error.mp h with h | ⟨u, -, h⟩
      · exact absurd h policyErr_ne_abort
      · exact absurd h policyErr_ne_abort
  · rintro ⟨hcovered, ho, hlarge⟩
    obtain ⟨m, hm⟩ : ∃ m,
        estimateFeeratePerKw v.overflow (sumInputs - sumOutputs) weight = .error (.abort m) := by
      cases h : estimateFeeratePerKw v.overflow (sumInputs - sumOutputs) weight with
      | ok r => exact absurd ((estimateFeeratePerKw_ok h).2 ho) (by omega)
      | error fault =>
        cases fault with
        | abort m => exact ⟨m, rfl⟩
        | refuse r =>
          refine absurd h (NoRefusal.bind (NoRefusal.u64 _ _) (fun _ => ?_) r)
          exact NoRefusal.bind (NoRefusal.u64 _ _) fun _ => NoRefusal.ok _
    refine ⟨m, bind_eq_error.mpr (.inr ⟨(), refuseIf_of_not (not_lt.mpr hcovered), ?_⟩)⟩
    exact bind_eq_error.mpr (.inl hm)

/-- Under the default filter and without developer flags what is spent without benefit has an
estimate within the policy. -/
theorem validateBeneficialValue_ok (hfilter : v.policy.filter = .default)
    (hflags : v.policy.devFlags = none) {nonBeneficial : Nat}
    (h : v.validateBeneficialValue sumInputs sumOutputs weight = .ok nonBeneficial) :
    sumOutputs ≤ sumInputs ∧ nonBeneficial = sumInputs - sumOutputs ∧
      ∃ r, estimateFeeratePerKw v.overflow nonBeneficial weight = .ok r ∧
        r ≤ v.policy.maxFeeratePerKw := by
  obtain ⟨u, hcovered, h⟩ := bind_ok h
  obtain ⟨r, hr, h⟩ := bind_ok h
  obtain ⟨u, hmax, h⟩ := bind_ok h
  cases h
  rw [refuseIf_eq_ok, not_lt] at hcovered
  rw [hfilter, default_policyErr_eq_ok, hflags] at hmax
  exact ⟨hcovered, rfl, r, hr, not_lt.mp fun hr => hmax ⟨hr, rfl⟩⟩

/-- What is spent without benefit is accepted when its estimate is within the policy. -/
theorem validateBeneficialValue_of_le {r : Nat} (hcovered : sumOutputs ≤ sumInputs)
    (hr : estimateFeeratePerKw v.overflow (sumInputs - sumOutputs) weight = .ok r)
    (hmax : r ≤ v.policy.maxFeeratePerKw) :
    v.validateBeneficialValue sumInputs sumOutputs weight = .ok (sumInputs - sumOutputs) := by
  refine bind_eq_ok.mpr ⟨(), refuseIf_of_not (not_lt.mpr hcovered), bind_eq_ok.mpr ⟨r, hr, ?_⟩⟩
  exact bind_eq_ok.mpr
    ⟨(), policyErr_of_not fun h => absurd h.1 (not_lt.mpr hmax), rfl⟩

end SimpleValidator

end ValidatingSigner
