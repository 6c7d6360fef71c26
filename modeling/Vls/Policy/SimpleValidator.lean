import Vls.Enforcement.Amounts
import Vls.Policy.Validator
import Vls.Base.Effect

/-!
# The simple validator

The checks a commitment, a revocation and a payment must pass, in the order they are made.  The
checks on transactions of other kinds are taken as given by `TransactionChecks`.
-/

namespace ValidatingSigner

open Base PolicyFilter Overflow

/-- The checks of a validator on transactions other than described commitments. -/
structure TransactionChecks where
  validateReadyChannel : ChannelSetup → List Nat → Result Unit
  decodeCommitmentTx : InMemorySigner → ChannelSetup → Bool → Transaction → List Script →
    Result CommitmentInfo
  decodeAndValidateMutualCloseTx : ChannelSetup → EnforcementState → Transaction →
    List (List Nat) → Result ClosingTransaction
  validateMutualCloseTx : ChannelSetup → EnforcementState → Nat → Nat → Option Script →
    Option Script → List Nat → Result Unit

/-- A validator configured with a policy. -/
structure SimpleValidator where
  policy : SimplePolicy
  overflow : Overflow
  library : Library
  checks : TransactionChecks

/-- Put `text` before the message of a validation error. -/
def ValidationError.prependMsg (text : String) : ValidationError → ValidationError
  | .transactionFormat s => .transactionFormat (text ++ s)
  | .scriptFormat s => .scriptFormat (text ++ s)
  | .mismatch s => .mismatch (text ++ s)
  | .policy s => .policy (text ++ s)
  | .temporaryPolicy s => .temporaryPolicy (text ++ s)
  | .unknownDestinations s indices => .unknownDestinations (text ++ s) indices

/-- Put the name of the calling function before the message of a validation error. -/
def withFunction {α : Type} (function : String) : Result α → Result α
  | .error (.refuse (.validation e)) =>
    .error (.refuse (.validation (e.prependMsg (function ++ ": "))))
  | r => r

@[simp] theorem withFunction_eq_ok {α : Type} {function : String} {r : Result α} {a : α} :
    withFunction function r = .ok a ↔ r = .ok a := by
  rcases r with ((_ | _) | _) | _ <;> simp [withFunction]

/-- The sum of two 64-bit amounts, refused with `message` when it does not fit. -/
def checkedAdd (a b : Nat) (message : String) : Result Nat :=
  if a + b < 2 ^ 64 then .ok (a + b) else .error (.refuse (policyError message))

@[simp] theorem checkedAdd_eq_ok {a b r : Nat} {message : String} :
    checkedAdd a b message = .ok r ↔ a + b < 2 ^ 64 ∧ a + b = r := by
  unfold checkedAdd
  by_cases h : a + b < 2 ^ 64
  · rw [if_pos h, Except.ok.injEq, and_iff_right h]
  · rw [if_neg h]
    exact ⟨(nomatch ·), fun hr => absurd hr.1 h⟩

/-- The least value of an output that is not dust. -/
def MIN_DUST_LIMIT_SATOSHIS : Nat := 330

/-- The least value of a channel output that is not dust. -/
def MIN_CHAN_DUST_LIMIT_SATOSHIS : Nat := 354

/-- The weight a commitment transaction is expected to have. -/
def expectedCommitmentTxWeight (isAnchors : Bool) (numUntrimmedHtlc : Nat) : Nat :=
  (if isAnchors then 1124 else 724) + numUntrimmedHtlc * 172

/-- The highest feerate that gives rise to a fee, cut to 32 bits. -/
def estimateFeeratePerKw (o : Overflow) (totalFee weight : Nat) : Result Nat := do
  let scaled ← o.u64 (totalFee * 1000)
  let raised ← o.u64 (scaled + 999)
  return raised / weight % 2 ^ 32

namespace SimpleValidator

variable (v : SimpleValidator)

/-! ## Commitments -/

/-- Check the expiry of an HTLC against the height of the chain. -/
def validateExpiry (name : String) (expiry currentHeight : Nat) : Result Unit :=
  if v.policy.useChainState then do
    let earliest ← v.overflow.u32 (currentHeight + v.policy.minDelay)
    v.policy.filter.policyErr (expiry < earliest) "policy-commitment-htlc-cltv-range"
      "validate_expiry" s!"{name} expiry too early: {expiry} < {earliest}"
    let latest ← v.overflow.u32 (currentHeight + v.policy.maxDelay)
    v.policy.filter.policyErr (expiry > latest) "policy-commitment-htlc-cltv-range"
      "validate_expiry" s!"{name} expiry too late: {expiry} > {latest}"
  else .ok ()

/-- Check the feerate implied by the difference of inputs and outputs. -/
def validateFee (tag : String) (sumInputs sumOutputs weight : Nat) : Result Unit := do
  refuseIf (sumInputs < sumOutputs) (policyError s!"fee underflow: {sumInputs} - {sumOutputs}")
  let feerate ← estimateFeeratePerKw v.overflow (sumInputs - sumOutputs) weight
  v.policy.filter.policyErr (feerate < v.policy.minFeeratePerKw) tag "validate_fee"
    s!"feerate below minimum: {feerate} < {v.policy.minFeeratePerKw}"
  v.policy.filter.policyErr (feerate > v.policy.maxFeeratePerKw) tag "validate_fee"
    s!"feerate above maximum: {feerate} > {v.policy.maxFeeratePerKw}"

/-- The least value of an HTLC whose second-level transaction weighs `weight`. -/
def htlcDustLimit (setup : ChannelSetup) (info : CommitmentInfo2) (weight : Nat) : Nat :=
  if setup.isZeroFeeHtlc then MIN_CHAN_DUST_LIMIT_SATOSHIS
  else MIN_DUST_LIMIT_SATOSHIS + info.feeratePerKw * weight / 1000

/-- Check the HTLCs of one side and add their values to `sum`. -/
def validateHtlcs (side : String) (dustLimit currentHeight : Nat) :
    Nat → List HTLCInfo2 → Result Nat
  | sum, [] => .ok sum
  | sum, htlc :: htlcs => do
    v.validateExpiry (side ++ " HTLC") htlc.cltvExpiry currentHeight
    let sum ← checkedAdd sum htlc.valueSat (side ++ " HTLC value overflow")
    v.policy.filter.policyErr (htlc.valueSat < dustLimit) "policy-commitment-outputs-trimmed"
      "validate_commitment_tx"
      s!"{side} htlc.value_sat {htlc.valueSat} less than dust limit {dustLimit}"
    validateHtlcs side dustLimit currentHeight sum htlcs

/-- The additional checks on commitment number 0. -/
def validateInitialCommitment (commitNum : Nat) (setup : ChannelSetup) (info : CommitmentInfo2) :
    Result Unit :=
  if commitNum = 0 then do
    v.policy.filter.policyErr (info.offeredHtlcs.length + info.receivedHtlcs.length > 0)
      "policy-commitment-first-no-htlcs" "validate_commitment_tx"
      "initial commitment may not have HTLCS"
    v.policy.filter.policyErr
      (setup.isOutbound ∧ info.valueToParties.2 > setup.pushValueMsat / 1000)
      "policy-commitment-initial-funding-value" "validate_commitment_tx"
      s!"initial commitment may only send push_value_msat ({setup.pushValueMsat}) to fundee"
  else .ok ()

/-- The checks common to commitments of both sides. -/
def validateCommitmentTx (commitNum : Nat) (setup : ChannelSetup) (cstate : ChainState)
    (info : CommitmentInfo2) : Result Unit := do
  v.policy.filter.policyErr
    (info.toBroadcasterValueSat > 0 ∧ info.toBroadcasterValueSat < MIN_CHAN_DUST_LIMIT_SATOSHIS)
    "policy-commitment-outputs-trimmed" "validate_commitment_tx"
    (s!"to_broadcaster_value_sat {info.toBroadcasterValueSat} " ++
      s!"less than dust limit {MIN_CHAN_DUST_LIMIT_SATOSHIS}")
  v.policy.filter.policyErr
    (info.toCountersignerValueSat > 0 ∧
      info.toCountersignerValueSat < MIN_CHAN_DUST_LIMIT_SATOSHIS)
    "policy-commitment-outputs-trimmed" "validate_commitment_tx"
    (s!"to_countersigner_value_sat {info.toCountersignerValueSat} " ++
      s!"less than dust limit {MIN_CHAN_DUST_LIMIT_SATOSHIS}")
  let htlcCount := info.offeredHtlcs.length + info.receivedHtlcs.length
  v.policy.filter.policyErr (htlcCount > v.policy.maxHtlcs) "policy-commitment-htlc-count-limit"
    "validate_commitment_tx" "too many HTLCs"
  let offered ← v.validateHtlcs "offered"
    (htlcDustLimit setup info (v.library.htlcTimeoutTxWeight setup.isAnchors))
    cstate.currentHeight 0 info.offeredHtlcs
  let htlcValue ← v.validateHtlcs "received"
    (htlcDustLimit setup info (v.library.htlcSuccessTxWeight setup.isAnchors))
    cstate.currentHeight offered info.receivedHtlcs
  v.policy.filter.policyErr (htlcValue > v.policy.maxHtlcValueSat)
    "policy-commitment-htlc-inflight-limit" "validate_commitment_tx"
    s!"sum of HTLC values {htlcValue} too large"
  let parties ← checkedAdd info.toBroadcasterValueSat info.toCountersignerValueSat
    "channel value overflow"
  let sumOutputs ← checkedAdd parties htlcValue "channel value overflow on HTLC"
  withFunction "validate_commitment_tx"
    (v.validateFee "policy-commitment-fee-range" setup.channelValueSat sumOutputs
      (expectedCommitmentTxWeight setup.isAnchors htlcCount))
  v.validateInitialCommitment commitNum setup info

/-- The check that a counterparty commitment is signed again under the same point. -/
def checkRetryPoint (commitNum : Nat) (point : PublicKey) : Option PublicKey → Result Unit
  | none =>
    v.policy.filter.policyErr True "policy-commitment-retry-same"
      "validate_counterparty_commitment_tx"
      (s!"retry of sign_counterparty_commitment {commitNum} with no prev point: " ++
        s!"new {point}")
  | some prev =>
    v.policy.filter.policyErr (point ≠ prev) "policy-commitment-retry-same"
      "validate_counterparty_commitment_tx"
      (s!"retry of sign_counterparty_commitment {commitNum} with changed point: " ++
        s!"prev {prev} != new {point}")

/-- The checks on a counterparty commitment that has been signed before. -/
def validateCounterpartyRetry (e : EnforcementState) (commitNum : Nat) (point : PublicKey)
    (info : CommitmentInfo2) : Result Unit := do
  v.checkRetryPoint commitNum point e.currentCounterpartyPoint
  let prevCommitInfo ← e.getPreviousCounterpartyCommitInfo v.overflow commitNum
  v.policy.filter.policyErr (some info ≠ prevCommitInfo) "policy-commitment-retry-same"
    "validate_counterparty_commitment_tx"
    s!"retry of sign_counterparty_commitment {commitNum} with changed info"

/-- The checks on a counterparty commitment. -/
def validateCounterpartyCommitmentTx (e : EnforcementState) (commitNum : Nat) (point : PublicKey)
    (setup : ChannelSetup) (cstate : ChainState) (info : CommitmentInfo2) : Result Unit := do
  withFunction "validate_counterparty_commitment_tx"
    (v.validateCommitmentTx commitNum setup cstate info)
  v.policy.filter.policyErr (info.toSelfDelay ≠ setup.holderSelectedContestDelay)
    "policy-channel-contest-delay-range-holder" "validate_counterparty_commitment_tx"
    "holder_selected_contest_delay mismatch"
  let limit ← v.overflow.u64 (e.nextCounterpartyRevokeNum + 1)
  v.policy.filter.policyErr (commitNum > limit) "policy-commitment-previous-revoked"
    "validate_counterparty_commitment_tx"
    (s!"invalid attempt to sign counterparty commit_num {commitNum} " ++
      s!"with next_counterparty_revoke_num {e.nextCounterpartyRevokeNum}")
  let next ← v.overflow.u64 (commitNum + 1)
  if next = e.nextCounterpartyCommitNum then v.validateCounterpartyRetry e commitNum point info
  else .ok ()

/-- The check on a holder commitment that has been accepted before. -/
def validateHolderRetry (e : EnforcementState) (commitNum : Nat) (info : CommitmentInfo2) :
    Result Unit := do
  let current ← expect "current_holder_commit_info" e.currentHolderCommitInfo
  v.policy.filter.policyErr (info ≠ current) "policy-commitment-retry-same"
    "validate_holder_commitment_tx" s!"retry holder commitment {commitNum} with changed info"

/-- The checks on a holder commitment. -/
def validateHolderCommitmentTx (e : EnforcementState) (commitNum : Nat) (setup : ChannelSetup)
    (cstate : ChainState) (info : CommitmentInfo2) : Result Unit := do
  withFunction "validate_holder_commitment_tx" (v.validateCommitmentTx commitNum setup cstate info)
  v.policy.filter.policyErr (info.toSelfDelay ≠ setup.counterpartySelectedContestDelay)
    "policy-channel-contest-delay-range-counterparty" "validate_holder_commitment_tx"
    "counterparty_selected_contest_delay mismatch"
  let next ← v.overflow.u64 (commitNum + 1)
  (if next = e.nextHolderCommitNum then v.validateHolderRetry e commitNum info else .ok ())
  let afterNext ← v.overflow.u64 (commitNum + 2)
  v.policy.filter.policyErr (afterNext ≤ e.nextHolderCommitNum)
    "policy-commitment-holder-not-revoked" "validate_holder_commitment_tx"
    (s!"can't sign revoked commitment_number {commitNum}, " ++
      s!"next_holder_commit_num is {e.nextHolderCommitNum}")
  v.policy.filter.policyErr (commitNum = e.nextHolderCommitNum ∧ e.channelClosed)
    "policy-commitment-spends-active-utxo" "validate_holder_commitment_tx" "channel is closing"

/-! ## Revocations and payments -/

/-- The check that a revealed secret is that of the point signed under. -/
def checkRevocationPoint (revokeNum : Nat) (supplied : PublicKey) :
    Option PublicKey → Result Unit
  | none =>
    v.policy.filter.policyErr True "policy-commitment-previous-revoked"
      "validate_counterparty_revocation"
      (s!"revocation commit point mismatch for commit_num {revokeNum}: " ++
        s!"supplied {supplied}, previous is None")
  | some prev =>
    v.policy.filter.policyErr (supplied ≠ prev) "policy-commitment-previous-revoked"
      "validate_counterparty_revocation"
      (s!"revocation commit point mismatch for commit_num {revokeNum}: " ++
        s!"supplied {supplied}, previous {prev}")

/-- The checks on a revocation. -/
def validateCounterpartyRevocation (e : EnforcementState) (revokeNum : Nat) (secret : Bytes32) :
    Result Unit := do
  let expected := e.nextCounterpartyRevokeNum
  let wrong ← outOfStep v.overflow revokeNum expected
  v.policy.filter.policyErr wrong "policy-commitment-previous-revoked"
    "validate_counterparty_revocation"
    (s!"invalid counterparty revoke_num {revokeNum} " ++
      s!"with next_counterparty_revoke_num {expected}")
  let prev ← e.getPreviousCounterpartyPoint v.overflow revokeNum
  v.checkRevocationPoint revokeNum (v.library.publicKey secret) prev

/-- What may be sent for an invoice beyond what is received: its amount and the routing fee. -/
def maxToInvoice : Option Nat → Result Nat
  | some a => v.overflow.u64 (a + v.policy.maxRoutingFeeMsat)
  | none => .ok 0

/-- The check that a payment sends no more than it receives, is invoiced for and may pay in fees. -/
def validatePaymentBalance (incomingMsat outgoingMsat : Nat) (invoicedAmountMsat : Option Nat) :
    Result Unit := do
  let invoiced ← v.maxToInvoice invoicedAmountMsat
  let available ← v.overflow.u64 (incomingMsat + invoiced)
  v.policy.filter.policyErr (available < outgoingMsat) "policy-routing-balanced"
    "validate_payment_balance"
    ("incoming_msat + max_to_invoice_msat < outgoing_msat: " ++
      s!"{incomingMsat} + {invoiced} < {outgoingMsat}")

/-- The check on the size of a channel. -/
def validateChannelValue (setup : ChannelSetup) : Result Unit :=
  v.policy.filter.policyErr (setup.channelValueSat > v.policy.maxChannelSizeSat)
    "policy-funding-max" "validate_channel_value"
    s!"channel value {setup.channelValueSat} too large"

/-- A `SimpleValidator` as a validator. -/
def toValidator : Validator where
  filter := v.policy.filter
  overflow := v.overflow
  validateReadyChannel := v.checks.validateReadyChannel
  validateChannelValue := v.validateChannelValue
  decodeCommitmentTx := v.checks.decodeCommitmentTx
  validateCounterpartyCommitmentTx := v.validateCounterpartyCommitmentTx
  validateHolderCommitmentTx := fun e commitNum _ => v.validateHolderCommitmentTx e commitNum
  validateCounterpartyRevocation := v.validateCounterpartyRevocation
  decodeAndValidateMutualCloseTx := v.checks.decodeAndValidateMutualCloseTx
  validateMutualCloseTx := v.checks.validateMutualCloseTx
  validatePaymentBalance := v.validatePaymentBalance
  enforceBalance := v.policy.enforceBalance
  minimumInitialBalance := fun holderValueMsat => holderValueMsat / 1000

/-! ## What the checks establish -/

section DefaultFilter

variable {v : SimpleValidator} {e : EnforcementState} {setup : ChannelSetup} {cstate : ChainState}
  {info : CommitmentInfo2} {n : Nat} {u : Unit}

section

variable (hfilter : v.policy.filter = .default)

include hfilter

/-- Under the default filter an accepted holder commitment repeats the current one, is not revoked
and does not advance a closed channel. -/
theorem validateHolderCommitmentTx_ok
    (h : v.validateHolderCommitmentTx e n setup cstate info = .ok u) :
    v.validateCommitmentTx n setup cstate info = .ok () ∧
      ((n + 1) % 2 ^ 64 = e.nextHolderCommitNum → e.currentHolderCommitInfo = some info) ∧
      e.nextHolderCommitNum < (n + 2) % 2 ^ 64 ∧
      (n = e.nextHolderCommitNum → e.channelClosed = false) := by
  obtain ⟨u, hcommit, h⟩ := bind_ok h
  obtain ⟨u, -, h⟩ := bind_ok h
  obtain ⟨next, hnext, h⟩ := bind_ok h
  obtain ⟨u, hretry, h⟩ := bind_ok h
  obtain ⟨afterNext, hafter, h⟩ := bind_ok h
  obtain ⟨u, hrevoked, hclosed⟩ := bind_ok h
  rw [hfilter, default_policyErr_eq_ok] at hrevoked hclosed
  rw [eq_mod_of_uint hafter] at hrevoked
  refine ⟨withFunction_eq_ok.mp hcommit, fun hn => ?_, not_le.mp hrevoked, fun hn => ?_⟩
  · rw [← eq_mod_of_uint hnext] at hn
    rw [if_pos hn] at hretry
    obtain ⟨current, hcurrent, hsame⟩ := bind_ok hretry
    rw [hfilter, default_policyErr_eq_ok, not_not] at hsame
    rw [hsame]
    exact expect_eq_ok.mp hcurrent
  · exact Bool.eq_false_iff.mpr fun h => hclosed ⟨hn, h⟩

/-- Under the default filter an accepted counterparty commitment is at most one ahead of the
revocations, and repeats the current one if it has the same number. -/
theorem validateCounterpartyCommitmentTx_ok {point : PublicKey}
    (h : v.validateCounterpartyCommitmentTx e n point setup cstate info = .ok u) :
    v.validateCommitmentTx n setup cstate info = .ok () ∧
      n ≤ (e.nextCounterpartyRevokeNum + 1) % 2 ^ 64 ∧
      ((n + 1) % 2 ^ 64 = e.nextCounterpartyCommitNum →
        e.currentCounterpartyPoint = some point ∧
          e.getPreviousCounterpartyCommitInfo v.overflow n = .ok (some info)) := by
  obtain ⟨u, hcommit, h⟩ := bind_ok h
  obtain ⟨u, -, h⟩ := bind_ok h
  obtain ⟨limit, hlimit, h⟩ := bind_ok h
  obtain ⟨u, hahead, h⟩ := bind_ok h
  obtain ⟨next, hnext, h⟩ := bind_ok h
  rw [hfilter, default_policyErr_eq_ok, not_lt, eq_mod_of_uint hlimit]
    at hahead
  refine ⟨withFunction_eq_ok.mp hcommit, hahead, fun hn => ?_⟩
  rw [← eq_mod_of_uint hnext] at hn
  rw [if_pos hn] at h
  obtain ⟨u, hpoint, h⟩ := bind_ok h
  obtain ⟨prev, hprev, h⟩ := bind_ok h
  rw [hfilter, default_policyErr_eq_ok, not_not] at h
  refine ⟨?_, h ▸ hprev⟩
  unfold checkRetryPoint at hpoint
  rw [hfilter] at hpoint
  cases hcurrent : e.currentCounterpartyPoint with
  | none => simp [hcurrent] at hpoint
  | some p =>
    simp only [hcurrent, default_policyErr_eq_ok, not_not] at hpoint
    rw [hpoint]

/-- Under the default filter an accepted revocation is the next one or repeats the last, and its
secret is that of the point the commitment was signed under. -/
theorem validateCounterpartyRevocation_ok {secret : Bytes32}
    (h : v.validateCounterpartyRevocation e n secret = .ok u) :
    (e.nextCounterpartyRevokeNum = n ∨ e.nextCounterpartyRevokeNum = (n + 1) % 2 ^ 64) ∧
      e.getPreviousCounterpartyPoint v.overflow n = .ok (some (v.library.publicKey secret)) := by
  obtain ⟨wrong, hwrong, h⟩ := bind_ok h
  obtain ⟨u, hcheck, h⟩ := bind_ok h
  obtain ⟨prev, hprev, hpoint⟩ := bind_ok h
  rw [hfilter, default_policyErr_eq_ok, Bool.not_eq_true] at hcheck
  subst hcheck
  refine ⟨Validator.outOfStep_eq_false hwrong, ?_⟩
  unfold checkRevocationPoint at hpoint
  rw [hfilter] at hpoint
  cases prev with
  | none => simp at hpoint
  | some p =>
    simp only [default_policyErr_eq_ok, not_not] at hpoint
    rw [hpoint]
    exact hprev

theorem validateHtlcs_ok {side : String} {dustLimit height sum r : Nat} {htlcs : List HTLCInfo2}
    (h : v.validateHtlcs side dustLimit height sum htlcs = .ok r) :
    r = sum + htlcValue htlcs ∧ ∀ htlc ∈ htlcs, dustLimit ≤ htlc.valueSat := by
  induction htlcs generalizing sum with
  | nil => exact ⟨(Except.ok.inj h).symm, fun _ hmem => absurd hmem List.not_mem_nil⟩
  | cons x htlcs ih =>
    obtain ⟨u, -, h⟩ := bind_ok h
    obtain ⟨sum', hsum, h⟩ := bind_ok h
    obtain ⟨u, hdust, h⟩ := bind_ok h
    rw [hfilter, default_policyErr_eq_ok, not_lt] at hdust
    obtain ⟨-, rfl⟩ := checkedAdd_eq_ok.mp hsum
    obtain ⟨hr, hrest⟩ := ih h
    refine ⟨by rw [hr, htlcValue_cons, Nat.add_assoc], fun htlc hmem => ?_⟩
    rcases List.mem_cons.mp hmem with rfl | hmem
    · exact hdust
    · exact hrest htlc hmem

end

theorem htlcDustLimit_pos (setup : ChannelSetup) (info : CommitmentInfo2) (weight : Nat) :
    0 < htlcDustLimit setup info weight := by
  unfold htlcDustLimit MIN_CHAN_DUST_LIMIT_SATOSHIS MIN_DUST_LIMIT_SATOSHIS
  split_ifs <;> omega

/-- The limits that the checks common to both sides set on a commitment under the default filter. -/
structure Limits (v : SimpleValidator) (n : Nat) (setup : ChannelSetup) (info : CommitmentInfo2) :
    Prop where
  broadcaster : info.toBroadcasterValueSat = 0 ∨
    MIN_CHAN_DUST_LIMIT_SATOSHIS ≤ info.toBroadcasterValueSat
  countersigner : info.toCountersignerValueSat = 0 ∨
    MIN_CHAN_DUST_LIMIT_SATOSHIS ≤ info.toCountersignerValueSat
  count : info.offeredHtlcs.length + info.receivedHtlcs.length ≤ v.policy.maxHtlcs
  offered : ∀ htlc ∈ info.offeredHtlcs,
    htlcDustLimit setup info (v.library.htlcTimeoutTxWeight setup.isAnchors) ≤ htlc.valueSat
  received : ∀ htlc ∈ info.receivedHtlcs,
    htlcDustLimit setup info (v.library.htlcSuccessTxWeight setup.isAnchors) ≤ htlc.valueSat
  htlcs : htlcValue info.offeredHtlcs + htlcValue info.receivedHtlcs ≤ v.policy.maxHtlcValueSat
  word : info.outputValue < 2 ^ 64
  fee : v.validateFee "policy-commitment-fee-range" setup.channelValueSat info.outputValue
    (expectedCommitmentTxWeight setup.isAnchors
      (info.offeredHtlcs.length + info.receivedHtlcs.length)) = .ok ()
  initial : v.validateInitialCommitment n setup info = .ok ()

/-- Under the default filter an accepted commitment keeps to the limits. -/
theorem validateCommitmentTx_limits (hfilter : v.policy.filter = .default)
    (h : v.validateCommitmentTx n setup cstate info = .ok u) : Limits v n setup info := by
  obtain ⟨u, hbroadcaster, h⟩ := bind_ok h
  obtain ⟨u, hcountersigner, h⟩ := bind_ok h
  obtain ⟨u, hcount, h⟩ := bind_ok h
  obtain ⟨offered, hoffered, h⟩ := bind_ok h
  obtain ⟨received, hreceived, h⟩ := bind_ok h
  obtain ⟨u, hlimit, h⟩ := bind_ok h
  obtain ⟨parties, hparties, h⟩ := bind_ok h
  obtain ⟨outputs, houtputs, h⟩ := bind_ok h
  obtain ⟨u, hfee, hinitial⟩ := bind_ok h
  rw [hfilter, default_policyErr_eq_ok] at hbroadcaster hcountersigner hcount hlimit
  obtain ⟨rfl, hdustOffered⟩ := validateHtlcs_ok hfilter hoffered
  obtain ⟨rfl, hdustReceived⟩ := validateHtlcs_ok hfilter hreceived
  obtain ⟨-, rfl⟩ := checkedAdd_eq_ok.mp hparties
  obtain ⟨hword, rfl⟩ := checkedAdd_eq_ok.mp houtputs
  have hvalue : info.toBroadcasterValueSat + info.toCountersignerValueSat +
      (0 + htlcValue info.offeredHtlcs + htlcValue info.receivedHtlcs) = info.outputValue := by
    unfold CommitmentInfo2.outputValue
    omega
  rw [hvalue] at hword hfee
  exact {
    broadcaster := by omega
    countersigner := by omega
    count := not_lt.mp hcount
    offered := hdustOffered
    received := hdustReceived
    htlcs := by omega
    word := hword
    fee := withFunction_eq_ok.mp hfee
    initial := hinitial }

/-- Under the default filter an accepted commitment stays within the channel, and its HTLCs within
the limit of the policy. -/
theorem validateCommitmentTx_ok (hfilter : v.policy.filter = .default)
    (h : v.validateCommitmentTx n setup cstate info = .ok u) :
    info.Within v.policy.maxHtlcValueSat setup := by
  have hlimits := validateCommitmentTx_limits hfilter h
  obtain ⟨u, hcovered, -⟩ := bind_ok hlimits.fee
  rw [refuseIf_eq_ok, not_lt] at hcovered
  refine ⟨hlimits.htlcs, hlimits.word, hcovered, fun htlc hmem => ?_⟩
  rcases List.mem_append.mp hmem with hmem | hmem
  · exact (htlcDustLimit_pos _ _ _).trans_le (hlimits.offered htlc hmem)
  · exact (htlcDustLimit_pos _ _ _).trans_le (hlimits.received htlc hmem)

/-- Under the default filter a balanced payment sends no more than it receives, is invoiced for and
may pay in fees. -/
theorem validatePaymentBalance_ok (hfilter : v.policy.filter = .default)
    {incomingMsat outgoingMsat : Nat} {invoiced : Option Nat}
    (h : v.validatePaymentBalance incomingMsat outgoingMsat invoiced = .ok u) :
    outgoingMsat ≤ incomingMsat + invoiced.elim 0 (· + v.policy.maxRoutingFeeMsat) := by
  obtain ⟨most, hmost, hrest⟩ := bind_ok h
  obtain ⟨available, havailable, hbalance⟩ := bind_ok hrest
  rw [hfilter, default_policyErr_eq_ok, not_lt] at hbalance
  have hle := le_of_u64 havailable
  cases invoiced with
  | none =>
    cases hmost
    exact hbalance.trans hle
  | some amount =>
    exact (hbalance.trans hle).trans (Nat.add_le_add_left (le_of_u64 hmost) _)

end DefaultFilter

end SimpleValidator

/-!
## The on-chain validator

What a validator decides by default it does not hand on: it never enforces the balance.
-/

/-- The policy of an on-chain validator. -/
structure OnchainPolicy where
  filter : PolicyFilter
  minFundingDepth : Nat

/-- The policy of an on-chain validator with a given filter. -/
def makeOnchainPolicy (filter : PolicyFilter) : OnchainPolicy := ⟨filter, 1⟩

/-- An on-chain validator. -/
structure OnchainValidator where
  inner : Validator
  policy : OnchainPolicy

namespace OnchainValidator

variable (v : OnchainValidator)

/-- Beyond the initial commitment the funding has to be buried and not closed. -/
def ensureFundingBuriedAndUnspent (commitNum : Nat) (cstate : ChainState) : Result Unit :=
  if commitNum > 0 then do
    v.policy.filter.temporaryPolicyErr (cstate.fundingDepth < v.policy.minFundingDepth)
      "policy-commitment-spends-active-utxo" "ensure_funding_buried_and_unspent"
      (s!"tried commitment {commitNum} when funding is not buried at depth " ++
        s!"{cstate.fundingDepth}, our height {cstate.currentHeight}")
    v.policy.filter.policyErr (cstate.closingDepth > 0) "policy-commitment-spends-active-utxo"
      "ensure_funding_buried_and_unspent"
      s!"tried commitment {commitNum} after closed on-chain at depth {cstate.closingDepth}"
  else .ok ()

/-- Check a counterparty commitment. -/
def validateCounterpartyCommitmentTx (e : EnforcementState) (commitNum : Nat) (point : PublicKey)
    (setup : ChannelSetup) (cstate : ChainState) (info : CommitmentInfo2) : Result Unit := do
  v.ensureFundingBuriedAndUnspent commitNum cstate
  v.inner.validateCounterpartyCommitmentTx e commitNum point setup cstate info

/-- Check a holder commitment; only a new one needs the funding. -/
def validateHolderCommitmentTx (e : EnforcementState) (commitNum : Nat) (point : PublicKey)
    (setup : ChannelSetup) (cstate : ChainState) (info : CommitmentInfo2) : Result Unit := do
  if e.nextHolderCommitNum ≤ commitNum then v.ensureFundingBuriedAndUnspent commitNum cstate
  v.inner.validateHolderCommitmentTx e commitNum point setup cstate info

/-- The on-chain validator as a validator. -/
def toValidator : Validator where
  filter := v.policy.filter
  overflow := v.inner.overflow
  validateReadyChannel := v.inner.validateReadyChannel
  validateChannelValue := v.inner.validateChannelValue
  decodeCommitmentTx := v.inner.decodeCommitmentTx
  validateCounterpartyCommitmentTx := v.validateCounterpartyCommitmentTx
  validateHolderCommitmentTx := v.validateHolderCommitmentTx
  validateCounterpartyRevocation := v.inner.validateCounterpartyRevocation
  decodeAndValidateMutualCloseTx := v.inner.decodeAndValidateMutualCloseTx
  validateMutualCloseTx := v.inner.validateMutualCloseTx
  validatePaymentBalance := v.inner.validatePaymentBalance
  enforceBalance := false
  minimumInitialBalance := v.inner.minimumInitialBalance

end OnchainValidator

/-- The on-chain validator that wraps a simple validator, with the filter of its policy. -/
def SimpleValidator.onchain (v : SimpleValidator) : OnchainValidator :=
  ⟨v.toValidator, makeOnchainPolicy v.policy.filter⟩

end ValidatingSigner
