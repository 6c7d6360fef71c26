import Vls.Enforcement.State

/-!
# Validators

A validator is the interface through which a channel asks whether a step is allowed.  The methods
that every validator shares move the counters of the enforcement state.
-/

namespace ValidatingSigner

open Base PolicyFilter Overflow

/-- The interface of a validator.  `filter` is the filter of its policy. -/
structure Validator where
  filter : PolicyFilter
  overflow : Overflow
  validateReadyChannel : ChannelSetup → List Nat → Result Unit
  validateChannelValue : ChannelSetup → Result Unit
  decodeCommitmentTx : InMemorySigner → ChannelSetup → Bool → Transaction → List Script →
    Result CommitmentInfo
  validateCounterpartyCommitmentTx : EnforcementState → Nat → PublicKey → ChannelSetup →
    ChainState → CommitmentInfo2 → Result Unit
  validateHolderCommitmentTx : EnforcementState → Nat → PublicKey → ChannelSetup → ChainState →
    CommitmentInfo2 → Result Unit
  validateCounterpartyRevocation : EnforcementState → Nat → Bytes32 → Result Unit
  decodeAndValidateMutualCloseTx : ChannelSetup → EnforcementState → Transaction →
    List (List Nat) → Result ClosingTransaction
  validateMutualCloseTx : ChannelSetup → EnforcementState → Nat → Nat → Option Script →
    Option Script → List Nat → Result Unit
  validatePaymentBalance : Nat → Nat → Option Nat → Result Unit
  enforceBalance : Bool
  minimumInitialBalance : Nat → Nat

/-- Whether `num` is neither the current number nor the next. -/
def outOfStep (o : Overflow) (current num : Nat) : Result Bool :=
  if num = current then .ok false
  else do
    let next ← o.u64 (current + 1)
    return num != next

namespace Validator

variable (v : Validator)

/-- Move to holder commitment number `num`, the current one or the next. -/
def setNextHolderCommitNum (e : EnforcementState) (num : Nat) (info : CommitmentInfo2)
    (signatures : CommitmentSignatures) : Result EnforcementState := do
  let current := e.nextHolderCommitNum
  let jumped ← outOfStep v.overflow current num
  v.filter.policyErr jumped "policy-revoke-new-commitment-signed"
    "set_next_holder_commit_num" s!"invalid progression: {current} to {num}"
  return e.setNextHolderCommitNum num info signatures

/-- The current holder commitment, when it is the one asked for. -/
def getCurrentHolderCommitmentInfo (e : EnforcementState) (commitmentNumber : Nat) :
    Result CommitmentInfo2 := do
  let next ← v.overflow.u64 (commitmentNumber + 1)
  v.filter.policyErr (next ≠ e.nextHolderCommitNum) "policy-other"
    "get_current_holder_commitment_info"
    s!"invalid next holder commitment number: {next} != {e.nextHolderCommitNum}"
  e.getCurrentHolderCommitmentInfo

/-- The progression check of `setNextCounterpartyCommitNum`: a retry at the same point, or one step
forward. -/
def checkCounterpartyProgression (e : EnforcementState) (num : Nat) (point : PublicKey) :
    Result Unit :=
  let current := e.nextCounterpartyCommitNum
  if num = current then do
    assert (e.currentCounterpartyPoint.isSome)
      s!"retry {num}: current_counterparty_point not set, this shouldn't be possible"
    v.filter.policyErr (some point ≠ e.currentCounterpartyPoint) "policy-commitment-retry-same"
      "set_next_counterparty_commit_num" s!"retry {num}: point different than prior"
  else do
    let next ← v.overflow.u64 (current + 1)
    v.filter.policyErr (num ≠ next) "policy-commitment-previous-revoked"
      "set_next_counterparty_commit_num" s!"invalid progression: {current} to {num}"

/-- Move to counterparty commitment number `num`. -/
def setNextCounterpartyCommitNum (e : EnforcementState) (num : Nat) (point : PublicKey)
    (info : CommitmentInfo2) : Result EnforcementState := do
  v.filter.policyErr (num = 0) "policy-commitment-previous-revoked"
    "set_next_counterparty_commit_num" "can't set next to 0"
  let delta := if num = 1 then 1 else 2
  let revoke := e.nextCounterpartyRevokeNum
  let lower ← v.overflow.u64 (revoke + delta)
  v.filter.policyErr (num < lower) "policy-commitment-previous-revoked"
    "set_next_counterparty_commit_num"
    s!"{num} too small relative to next_counterparty_revoke_num {revoke}"
  let upper ← v.overflow.u64 (revoke + 2)
  v.filter.policyErr (num > upper) "policy-commitment-previous-revoked"
    "set_next_counterparty_commit_num"
    s!"{num} too large relative to next_counterparty_revoke_num {revoke}"
  v.checkCounterpartyProgression e num point
  e.setNextCounterpartyCommitNum v.overflow num point info

/-- Move to counterparty revocation number `num`, the current one or the next. -/
def setNextCounterpartyRevokeNum (e : EnforcementState) (num : Nat) : Result EnforcementState := do
  v.filter.policyErr (num = 0) "policy-other" "set_next_counterparty_revoke_num"
    "can't set next to 0"
  let commit := e.nextCounterpartyCommitNum
  let upper ← v.overflow.u64 (num + 2)
  v.filter.policyErr (upper < commit) "policy-commitment-previous-revoked"
    "set_next_counterparty_revoke_num"
    s!"{num} too small relative to next_counterparty_commit_num {commit}"
  let lower ← v.overflow.u64 (num + 1)
  v.filter.policyErr (lower > commit) "policy-commitment-previous-revoked"
    "set_next_counterparty_revoke_num"
    s!"{num} too large relative to next_counterparty_commit_num {commit}"
  let current := e.nextCounterpartyRevokeNum
  let jumped ← outOfStep v.overflow current num
  v.filter.policyErr jumped "policy-commitment-previous-revoked"
    "set_next_counterparty_revoke_num" s!"invalid progression: {current} to {num}"
  e.setNextCounterpartyRevokeNum v.overflow num

/-! ## What the setters establish -/

variable {num : Nat}

theorem outOfStep_eq_false {o : Overflow} {current : Nat}
    (h : outOfStep o current num = .ok false) : num = current ∨ num = (current + 1) % 2 ^ 64 := by
  unfold outOfStep at h
  by_cases hnum : num = current
  · exact .inl hnum
  · rw [if_neg hnum] at h
    obtain ⟨next, hnext, h⟩ := bind_ok h
    rw [← eq_mod_of_uint hnext]
    exact .inr (by simpa using h)

section AnyFilter

variable {v : Validator} {e e' : EnforcementState}

theorem setNextCounterpartyCommitNum_eq {point : PublicKey} {info : CommitmentInfo2}
    (h : v.setNextCounterpartyCommitNum e num point info = .ok e') :
    e.setNextCounterpartyCommitNum v.overflow num point info = .ok e' := by
  iterate 6 obtain ⟨_, -, h⟩ := bind_ok h
  exact h

theorem setNextCounterpartyRevokeNum_eq (h : v.setNextCounterpartyRevokeNum e num = .ok e') :
    e.setNextCounterpartyRevokeNum v.overflow num = .ok e' := by
  iterate 7 obtain ⟨_, -, h⟩ := bind_ok h
  exact h

/-- Only the setter of the holder counter moves it. -/
theorem next_setNextCounterpartyCommitNum {point : PublicKey} {info : CommitmentInfo2}
    (h : v.setNextCounterpartyCommitNum e num point info = .ok e') :
    e'.nextHolderCommitNum = e.nextHolderCommitNum := by
  obtain ⟨_, -, h⟩ := bind_ok (setNextCounterpartyCommitNum_eq h)
  obtain ⟨_, -, h⟩ := bind_ok h
  cases h
  split_ifs <;> rfl

theorem next_setNextCounterpartyRevokeNum (h : v.setNextCounterpartyRevokeNum e num = .ok e') :
    e'.nextHolderCommitNum = e.nextHolderCommitNum := by
  obtain ⟨_, -, h⟩ := bind_ok (setNextCounterpartyRevokeNum_eq h)
  obtain ⟨_, -, h⟩ := bind_ok h
  cases h
  rfl

end AnyFilter

section DefaultFilter

variable {v : Validator} {e e' : EnforcementState} {info : CommitmentInfo2}

section

variable (hfilter : v.filter = .default)

include hfilter

/-- Under the default filter the holder counter stays or moves by one. -/
theorem setNextHolderCommitNum_ok {signatures : CommitmentSignatures}
    (h : v.setNextHolderCommitNum e num info signatures = .ok e') :
    (num = e.nextHolderCommitNum ∨ num = (e.nextHolderCommitNum + 1) % 2 ^ 64) ∧
      e' = e.setNextHolderCommitNum num info signatures := by
  obtain ⟨jumped, hjumped, h⟩ := bind_ok h
  obtain ⟨u, hcheck, h⟩ := bind_ok h
  rw [hfilter, default_policyErr_eq_ok, Bool.not_eq_true] at hcheck
  subst hcheck
  exact ⟨outOfStep_eq_false hjumped, (pure_eq_ok.mp h).symm⟩

/-- Under the default filter only the current holder commitment is handed out. -/
theorem getCurrentHolderCommitmentInfo_ok {n : Nat}
    (h : v.getCurrentHolderCommitmentInfo e n = .ok info) :
    (n + 1) % 2 ^ 64 = e.nextHolderCommitNum ∧ e.currentHolderCommitInfo = some info := by
  obtain ⟨next, hnext, h⟩ := bind_ok h
  obtain ⟨u, hcheck, h⟩ := bind_ok h
  rw [hfilter, default_policyErr_eq_ok, not_not] at hcheck
  rw [← eq_mod_of_uint hnext]
  exact ⟨hcheck, expect_eq_ok.mp h⟩

/-- Under the default filter a counterparty commitment is signed again at the same point, or is the
next one. -/
theorem checkCounterpartyProgression_ok {point : PublicKey} {u : Unit}
    (h : v.checkCounterpartyProgression e num point = .ok u) :
    (num = e.nextCounterpartyCommitNum ∧ e.currentCounterpartyPoint = some point) ∨
      (num ≠ e.nextCounterpartyCommitNum ∧
        num = (e.nextCounterpartyCommitNum + 1) % 2 ^ 64) := by
  unfold checkCounterpartyProgression at h
  by_cases hnum : num = e.nextCounterpartyCommitNum
  · rw [if_pos hnum] at h
    obtain ⟨u, -, h⟩ := bind_ok h
    rw [hfilter, default_policyErr_eq_ok, not_not] at h
    exact .inl ⟨hnum, h.symm⟩
  · rw [if_neg hnum] at h
    obtain ⟨next, hnext, h⟩ := bind_ok h
    rw [hfilter, default_policyErr_eq_ok, not_not] at h
    exact .inr ⟨hnum, h.trans (eq_mod_of_uint hnext)⟩

/-- The bounds the counterparty counter keeps to the revocation counter under the default
filter. -/
theorem setNextCounterpartyCommitNum_ok {point : PublicKey}
    (h : v.setNextCounterpartyCommitNum e num point info = .ok e') :
    num ≠ 0 ∧ (e.nextCounterpartyRevokeNum + (if num = 1 then 1 else 2)) % 2 ^ 64 ≤ num ∧
      num ≤ (e.nextCounterpartyRevokeNum + 2) % 2 ^ 64 ∧
      v.checkCounterpartyProgression e num point = .ok () ∧
      e.setNextCounterpartyCommitNum v.overflow num point info = .ok e' := by
  obtain ⟨u, hzero, h⟩ := bind_ok h
  obtain ⟨lower, hlower, h⟩ := bind_ok h
  obtain ⟨u, hlow, h⟩ := bind_ok h
  obtain ⟨upper, hupper, h⟩ := bind_ok h
  obtain ⟨u, hhigh, h⟩ := bind_ok h
  obtain ⟨u, hprogress, h⟩ := bind_ok h
  rw [hfilter, default_policyErr_eq_ok] at hzero hlow hhigh
  rw [eq_mod_of_uint hlower] at hlow
  rw [eq_mod_of_uint hupper] at hhigh
  exact ⟨hzero, not_lt.mp hlow, not_lt.mp hhigh, hprogress, h⟩

/-- The bounds the revocation counter keeps to the counterparty counter under the default
filter. -/
theorem setNextCounterpartyRevokeNum_ok (h : v.setNextCounterpartyRevokeNum e num = .ok e') :
    num ≠ 0 ∧ e.nextCounterpartyCommitNum ≤ (num + 2) % 2 ^ 64 ∧
      (num + 1) % 2 ^ 64 ≤ e.nextCounterpartyCommitNum ∧
      (num = e.nextCounterpartyRevokeNum ∨
        num = (e.nextCounterpartyRevokeNum + 1) % 2 ^ 64) ∧
      e.setNextCounterpartyRevokeNum v.overflow num = .ok e' := by
  obtain ⟨u, hzero, h⟩ := bind_ok h
  obtain ⟨upper, hupper, h⟩ := bind_ok h
  obtain ⟨u, hhigh, h⟩ := bind_ok h
  obtain ⟨lower, hlower, h⟩ := bind_ok h
  obtain ⟨u, hlow, h⟩ := bind_ok h
  obtain ⟨jumped, hjumped, h⟩ := bind_ok h
  obtain ⟨u, hjump, h⟩ := bind_ok h
  rw [hfilter, default_policyErr_eq_ok] at hzero hlow hhigh hjump
  rw [Bool.not_eq_true] at hjump
  subst hjump
  rw [eq_mod_of_uint hlower] at hlow
  rw [eq_mod_of_uint hupper] at hhigh
  exact ⟨hzero, not_lt.mp hhigh, not_lt.mp hlow, outOfStep_eq_false hjumped, h⟩

end

/-- A number within the bounds and in step is set. -/
theorem setNextCounterpartyCommitNum_of_inStep {point : PublicKey}
    (hword : e.nextCounterpartyRevokeNum + 2 < 2 ^ 64) (hpos : num ≠ 0)
    (hlow : e.nextCounterpartyRevokeNum + (if num = 1 then 1 else 2) ≤ num)
    (hhigh : num ≤ e.nextCounterpartyRevokeNum + 2)
    (hprogress : v.checkCounterpartyProgression e num point = .ok ()) :
    v.setNextCounterpartyCommitNum e num point info =
      e.setNextCounterpartyCommitNum v.overflow num point info := by
  have hlower : e.nextCounterpartyRevokeNum + (if num = 1 then 1 else 2) < 2 ^ 64 := by
    split_ifs <;> omega
  unfold setNextCounterpartyCommitNum
  dsimp only
  rw [policyErr_of_not hpos, ok_bind, u64_of_lt _ hlower, ok_bind,
    policyErr_of_not (not_lt.mpr hlow), ok_bind, u64_of_lt _ hword, ok_bind,
    policyErr_of_not (not_lt.mpr hhigh), ok_bind, hprogress, ok_bind]

/-- The counter moves to the revocation of the commitment before the current one. -/
theorem setNextCounterpartyRevokeNum_of_previous (hword : num + 2 < 2 ^ 64)
    (hpos : num ≠ 0) (hcommit : num + 1 = e.nextCounterpartyCommitNum)
    (hrevoke : e.nextCounterpartyRevokeNum + 1 = num ∨ e.nextCounterpartyRevokeNum = num) :
    v.setNextCounterpartyRevokeNum e num = .ok { e with
      previousCounterpartyCommitInfo := none
      nextCounterpartyRevokeNum := num } := by
  have hstep : outOfStep v.overflow e.nextCounterpartyRevokeNum num = .ok false := by
    unfold outOfStep
    rcases hrevoke with hrevoke | hrevoke
    · rw [if_neg (by omega)]
      exact bind_eq_ok.mpr ⟨_, u64_of_lt _ (by omega), by simp [hrevoke]⟩
    · rw [if_pos hrevoke.symm]
  refine bind_eq_ok.mpr ⟨(), policyErr_of_not hpos, ?_⟩
  refine bind_eq_ok.mpr ⟨_, u64_of_lt _ hword, ?_⟩
  refine bind_eq_ok.mpr ⟨(), policyErr_of_not (by omega), ?_⟩
  refine bind_eq_ok.mpr ⟨_, u64_of_lt _ (by omega), ?_⟩
  refine bind_eq_ok.mpr ⟨(), policyErr_of_not (by omega), ?_⟩
  refine bind_eq_ok.mpr ⟨_, hstep, bind_eq_ok.mpr ⟨(), ?_, ?_⟩⟩
  · exact policyErr_of_not (by simp)
  · refine bind_eq_ok.mpr ⟨(), assert_eq_ok.mpr hpos, ?_⟩
    refine bind_eq_ok.mpr ⟨_, u64_of_lt _ (by omega), ?_⟩
    rw [if_pos hcommit.ge]
    rfl

end DefaultFilter

end Validator

end ValidatingSigner
