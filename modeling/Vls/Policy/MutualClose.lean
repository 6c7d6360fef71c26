import Vls.Policy.Fees
import Vls.Policy.Wallet

/-!
# Mutual closes

A closing transaction pays the holder and the counterparty.  A validator checks the values and the
destination of a close.  Given a transaction alone, it tries both ways of assigning the outputs to
the two parties, the likelier one first, and rebuilds the transaction from the assignment that
passes.
-/

namespace ValidatingSigner

open Base PolicyFilter

/-! ## Closing transactions -/

/-- The functions of the Lightning and Bitcoin libraries that closing transactions are built with.
-/
structure ClosingLibrary where
  weight : Transaction → Nat
  builtTransaction : ClosingTransaction → Transaction

/-- The outputs of a close, before they are sorted; an output without value is left out. -/
def ClosingTransaction.outputs (tx : ClosingTransaction) : List TxOut :=
  (if 0 < tx.toCounterpartyValueSat then
    [⟨tx.toCounterpartyValueSat, tx.toCounterpartyScript⟩] else []) ++
  (if 0 < tx.toHolderValueSat then [⟨tx.toHolderValueSat, tx.toHolderScript⟩] else [])

/-- What is assumed of the libraries: the transaction of a close has the outputs of the close, and
depends on nothing but these and the outpoint; it weighs at least 204, as one input does. -/
structure ClosingLibrary.Lawful (L : ClosingLibrary) : Prop where
  outputs : ∀ tx, (L.builtTransaction tx).output.Perm tx.outputs
  canonical : ∀ tx tx', tx.fundingOutpoint = tx'.fundingOutpoint → tx.outputs.Perm tx'.outputs →
    L.builtTransaction tx = L.builtTransaction tx'
  weight_built : ∀ tx, 204 ≤ L.weight (L.builtTransaction tx)

/-- The weight of the witness that a close is expected to have. -/
def EXPECTED_MUTUAL_CLOSE_WITNESS_WEIGHT : Nat :=
  2 + 1 + 4 + 72 + 72 + 1 + 1 + 33 + 1 + 33 + 1 + 1

/-- The weight of a close once it is signed. -/
def mutualCloseTxWeight (L : ClosingLibrary) (unsignedTx : Transaction) : Nat :=
  L.weight unsignedTx + EXPECTED_MUTUAL_CLOSE_WITNESS_WEIGHT

/-- The values and destinations of a close, and the wallet path of the holder's output. -/
structure ValidateArgs where
  toHolderValueSat : Nat
  toCounterpartyValueSat : Nat
  holderScript : Option Script
  counterpartyScript : Option Script
  walletPath : List Nat
  deriving DecidableEq

/-- The close with given values and destinations. -/
def ValidateArgs.closing (args : ValidateArgs) (fundingOutpoint : OutPoint) : ClosingTransaction :=
  ⟨args.toHolderValueSat, args.toCounterpartyValueSat, args.holderScript.getD [],
    args.counterpartyScript.getD [], fundingOutpoint⟩

/-! ## What the commitments say -/

/-- Whether a commitment has no HTLCs. -/
def CommitmentInfo2.htlcsIsEmpty (info : CommitmentInfo2) : Bool :=
  info.offeredHtlcs.isEmpty && info.receivedHtlcs.isEmpty

/-- The smaller of two values that are within `epsilonSat` of each other. -/
def minimumWithin (epsilonSat hval cval : Nat) : Option Nat :=
  if hval > cval then if hval - cval ≤ epsilonSat then some cval else none
  else if cval - hval ≤ epsilonSat then some hval else none

namespace EnforcementState

/-- The smaller of the holder's values in both current commitments. -/
def minimumToHolderValue (e : EnforcementState) (epsilonSat : Nat) : Option Nat := do
  let hinfo ← e.currentHolderCommitInfo
  let cinfo ← e.currentCounterpartyCommitInfo
  minimumWithin epsilonSat hinfo.toBroadcasterValueSat cinfo.toCountersignerValueSat

/-- The smaller of the counterparty's values in both current commitments. -/
def minimumToCounterpartyValue (e : EnforcementState) (epsilonSat : Nat) : Option Nat := do
  let hinfo ← e.currentHolderCommitInfo
  let cinfo ← e.currentCounterpartyCommitInfo
  minimumWithin epsilonSat hinfo.toCountersignerValueSat cinfo.toBroadcasterValueSat

/-- Whether the holder's value is the larger one; a missing value is the smallest. -/
def holderValueIsLarger (e : EnforcementState) (epsilonSat : Nat) : Bool :=
  match e.minimumToHolderValue epsilonSat, e.minimumToCounterpartyValue epsilonSat with
  | some holder, some counterparty => holder > counterparty
  | some _, none => true
  | none, _ => false

end EnforcementState

/-! ## The checks -/

/-- A value that has to be there, or a policy error. -/
def orPolicyError {α : Type} (message : String) : Option α → Result α
  | some a => .ok a
  | none => .error (.refuse (policyError message))

namespace SimpleValidator

variable (v : SimpleValidator) (L : ClosingLibrary) (wallet : Wallet) (setup : ChannelSetup)
  (e : EnforcementState)

/-- Whether a value is too far from another, and on which side. -/
def outsideEpsilonRange (value0 value1 : Nat) : Bool × String :=
  if value0 > value1 then (value0 - value1 > v.policy.epsilonSat, "larger")
  else (value1 - value0 > v.policy.epsilonSat, "smaller")

/-- Check a value of a close against that of a commitment. -/
def checkCloseValue (name : String) (value : Nat) (committedName : String) (committed : Nat) :
    Result Unit :=
  v.policy.filter.policyErr (v.outsideEpsilonRange value committed).1
    "policy-mutual-value-matches-commitment" "validate_mutual_close_tx"
    (s!"{name} {value} is " ++ (v.outsideEpsilonRange value committed).2 ++
      s!" than {committedName} {committed}")

/-- Check the side that does not pay the fee against the current commitments. -/
def checkCloseValues (args : ValidateArgs) (holderInfo counterpartyInfo : CommitmentInfo2) :
    Result Unit :=
  if setup.isOutbound then do
    v.checkCloseValue "to_counterparty_value" args.toCounterpartyValueSat
      "counterparty_info.broadcaster_value_sat" counterpartyInfo.toBroadcasterValueSat
    v.checkCloseValue "to_counterparty_value" args.toCounterpartyValueSat
      "holder_info.countersigner_value_sat" holderInfo.toCountersignerValueSat
  else do
    v.checkCloseValue "to_holder_value" args.toHolderValueSat
      "holder_info.broadcaster_value_sat" holderInfo.toBroadcasterValueSat
    v.checkCloseValue "to_holder_value" args.toHolderValueSat
      "counterparty_info.countersigner_value_sat" counterpartyInfo.toCountersignerValueSat

/-- Check the terms of a close: its scripts, the commitments it ends, its fee and its values. -/
def validateCloseTerms (args : ValidateArgs) : Result Unit := do
  let holderInfo ← orPolicyError "current_holder_commit_info missing" e.currentHolderCommitInfo
  let counterpartyInfo ← orPolicyError "current_counterparty_commit_info missing"
    e.currentCounterpartyCommitInfo
  v.policy.filter.policyErr (args.toHolderValueSat > 0 ∧ args.holderScript = none)
    "policy-mutual-destination-allowlisted" "validate_mutual_close_tx"
    s!"missing holder_script with {args.toHolderValueSat} to_holder_value_sat"
  v.policy.filter.policyErr (args.toCounterpartyValueSat > 0 ∧ args.counterpartyScript = none)
    "policy-mutual-destination-allowlisted" "validate_mutual_close_tx"
    s!"missing counterparty_script with {args.toCounterpartyValueSat} to_counterparty_value_sat"
  v.policy.filter.policyErr
    (setup.holderShutdownScript ≠ none ∧ args.toHolderValueSat > 0 ∧
      args.holderScript ≠ setup.holderShutdownScript)
    "policy-mutual-destination-allowlisted" "validate_mutual_close_tx"
    "holder_script doesn't match upfront holder_shutdown_script"
  v.policy.filter.policyErr
    (holderInfo.htlcsIsEmpty = false ∨ counterpartyInfo.htlcsIsEmpty = false)
    "policy-mutual-no-pending-htlcs" "validate_mutual_close_tx" "cannot close with pending htlcs"
  let sumOutputs ← checkedAdd args.toHolderValueSat args.toCounterpartyValueSat "consumed overflow"
  withFunction "validate_mutual_close_tx"
    (v.validateFee "policy-mutual-fee-range" setup.channelValueSat sumOutputs
      (mutualCloseTxWeight L (L.builtTransaction (args.closing setup.fundingOutpoint))))
  v.checkCloseValues setup args holderInfo counterpartyInfo

/-- Check that the holder's output goes to the wallet or the allowlist. -/
def validateCloseDestination (args : ValidateArgs) : Result Unit :=
  match args.holderScript with
  | none => .ok ()
  | some script => do
    let spendable ← orWalletError "wallet can_spend error: "
      (wallet.canSpend args.walletPath script)
    if spendable then .ok ()
    else do
      let allowed ← Asserted.lift (wallet.allowlistContains script args.walletPath)
      v.policy.filter.policyErr (allowed = false) "policy-mutual-destination-allowlisted"
        "validate_mutual_close_tx" "holder output not to wallet or in allowlist"

/-- The checks on a close. -/
def validateMutualCloseTx (args : ValidateArgs) : Result Unit := do
  v.validateCloseTerms L setup e args
  v.validateCloseDestination wallet args

/-- The two assignments of the outputs of a transaction to the parties, the likelier one first.  A
transaction without outputs is read out of bounds. -/
def assignments (tx : Transaction) (walletPaths : List (List Nat)) :
    Result (ValidateArgs × ValidateArgs) :=
  let holderFirst := e.holderValueIsLarger v.policy.epsilonSat
  match tx.output, walletPaths with
  | [out], [path] =>
    let holders : ValidateArgs := ⟨out.value, 0, some out.scriptPubkey, none, path⟩
    let cpartys : ValidateArgs := ⟨0, out.value, none, some out.scriptPubkey, []⟩
    .ok (if holderFirst then (holders, cpartys) else (cpartys, holders))
  | out0 :: out1 :: _, path0 :: path1 :: _ =>
    let first : ValidateArgs :=
      ⟨out0.value, out1.value, some out0.scriptPubkey, some out1.scriptPubkey, path0⟩
    let second : ValidateArgs :=
      ⟨out1.value, out0.value, some out1.scriptPubkey, some out0.scriptPubkey, path1⟩
    .ok (if holderFirst then (second, first) else (first, second))
  | _, _ => .error (.abort "index out of bounds")

/-- The first of two assignments that passes the checks; the error of the first if neither does. -/
def firstValid (likely unlikely : ValidateArgs) : Result ValidateArgs :=
  match v.validateMutualCloseTx L wallet setup e likely with
  | .ok () => .ok likely
  | .error (.abort m) => .error (.abort m)
  | .error (.refuse r) =>
    match v.validateMutualCloseTx L wallet setup e unlikely with
    | .ok () => .ok unlikely
    | .error (.abort m) => .error (.abort m)
    | .error (.refuse _) => .error (.refuse r)

/-- Find out which output of a transaction is the holder's, and check the close. -/
def decodeAndValidateMutualCloseTx (tx : Transaction) (walletPaths : List (List Nat)) :
    Result ClosingTransaction := do
  refuseIf (tx.output.length > 2) (.validation (.transactionFormat
    s!"decode_and_validate_mutual_close_tx: invalid number of outputs: {tx.output.length}"))
  assert (walletPaths.length = tx.output.length)
    "assertion failed: wallet_paths.len() == tx.output.len()"
  v.policy.filter.policyErr (e.currentHolderCommitInfo = none) "policy-mutual-other"
    "decode_and_validate_mutual_close_tx" "current_holder_commit_info missing"
  v.policy.filter.policyErr (e.currentCounterpartyCommitInfo = none) "policy-mutual-other"
    "decode_and_validate_mutual_close_tx" "current_counterparty_commit_info missing"
  let (likely, unlikely) ← v.assignments e tx walletPaths
  let args ← v.firstValid L wallet setup e likely unlikely
  let closing := args.closing setup.fundingOutpoint
  v.policy.filter.policyErr (L.builtTransaction closing ≠ tx) "policy-onchain-format-standard"
    "decode_and_validate_mutual_close_tx" "recomposed tx mismatch"
  return closing

/-- The validator with its own checks on closes. -/
def withCloses : SimpleValidator :=
  { v with checks := { v.checks with
      decodeAndValidateMutualCloseTx := v.decodeAndValidateMutualCloseTx L wallet
      validateMutualCloseTx := fun setup e toHolder toCounterparty holderScript counterpartyScript
          path => v.validateMutualCloseTx L wallet setup e
            ⟨toHolder, toCounterparty, holderScript, counterpartyScript, path⟩ } }

/-! ## What the checks establish -/

/-- Two values at most `epsilon` apart. -/
def Near (epsilon a b : Nat) : Prop := a ≤ b + epsilon ∧ b ≤ a + epsilon

/-- The conditions on a close before its fee is looked at. -/
structure CloseShape (args : ValidateArgs) (holderInfo counterpartyInfo : CommitmentInfo2) :
    Prop where
  holder : e.currentHolderCommitInfo = some holderInfo
  counterparty : e.currentCounterpartyCommitInfo = some counterpartyInfo
  holderScript : 0 < args.toHolderValueSat → args.holderScript ≠ none
  counterpartyScript : 0 < args.toCounterpartyValueSat → args.counterpartyScript ≠ none
  shutdown : setup.holderShutdownScript ≠ none → 0 < args.toHolderValueSat →
    args.holderScript = setup.holderShutdownScript
  holderHtlcs : holderInfo.htlcsIsEmpty = true
  counterpartyHtlcs : counterpartyInfo.htlcsIsEmpty = true
  word : args.toHolderValueSat + args.toCounterpartyValueSat < 2 ^ 64

/-- The terms of a close under the default filter. -/
structure CloseTerms (args : ValidateArgs) (holderInfo counterpartyInfo : CommitmentInfo2) : Prop
    extends CloseShape setup e args holderInfo counterpartyInfo where
  fee : v.validateFee "policy-mutual-fee-range" setup.channelValueSat
    (args.toHolderValueSat + args.toCounterpartyValueSat)
    (mutualCloseTxWeight L (L.builtTransaction (args.closing setup.fundingOutpoint))) = .ok ()
  outbound : setup.isOutbound = true →
    Near v.policy.epsilonSat args.toCounterpartyValueSat counterpartyInfo.toBroadcasterValueSat ∧
    Near v.policy.epsilonSat args.toCounterpartyValueSat holderInfo.toCountersignerValueSat
  inbound : setup.isOutbound = false →
    Near v.policy.epsilonSat args.toHolderValueSat holderInfo.toBroadcasterValueSat ∧
    Near v.policy.epsilonSat args.toHolderValueSat counterpartyInfo.toCountersignerValueSat

section DefaultFilter

variable {v L wallet setup e} {args : ValidateArgs} {u : Unit}
  {holderInfo counterpartyInfo : CommitmentInfo2} {likely unlikely : ValidateArgs}
  {walletPaths : List (List Nat)}

theorem checkCloseValue_eq_ok (hfilter : v.policy.filter = .default) {name committedName : String}
    {value committed : Nat} :
    v.checkCloseValue name value committedName committed = .ok u ↔
      Near v.policy.epsilonSat value committed := by
  rw [checkCloseValue, hfilter, default_policyErr_eq_ok, outsideEpsilonRange, Near]
  split_ifs <;> simp <;> omega

/-- Under the default filter the values of a close are near those of both commitments on the side
that does not pay the fee. -/
theorem checkCloseValues_eq_ok (hfilter : v.policy.filter = .default) :
    v.checkCloseValues setup args holderInfo counterpartyInfo = .ok u ↔
      (setup.isOutbound = true →
        Near v.policy.epsilonSat args.toCounterpartyValueSat
            counterpartyInfo.toBroadcasterValueSat ∧
          Near v.policy.epsilonSat args.toCounterpartyValueSat
            holderInfo.toCountersignerValueSat) ∧
        (setup.isOutbound = false →
          Near v.policy.epsilonSat args.toHolderValueSat holderInfo.toBroadcasterValueSat ∧
            Near v.policy.epsilonSat args.toHolderValueSat
              counterpartyInfo.toCountersignerValueSat) := by
  unfold checkCloseValues
  cases hout : setup.isOutbound with
  | true => simp [bind_eq_ok, checkCloseValue_eq_ok hfilter]
  | false => simp [bind_eq_ok, checkCloseValue_eq_ok hfilter]

/-- With the right shape only the fee and the values are left to check. -/
theorem validateCloseTerms_of_shape (h : CloseShape setup e args holderInfo counterpartyInfo) :
    v.validateCloseTerms L setup e args =
      (withFunction "validate_mutual_close_tx"
        (v.validateFee "policy-mutual-fee-range" setup.channelValueSat
          (args.toHolderValueSat + args.toCounterpartyValueSat)
          (mutualCloseTxWeight L (L.builtTransaction (args.closing setup.fundingOutpoint)))) >>=
        fun _ => v.checkCloseValues setup args holderInfo counterpartyInfo) := by
  have hhtlcs : ¬ (holderInfo.htlcsIsEmpty = false ∨ counterpartyInfo.htlcsIsEmpty = false) := by
    rw [h.holderHtlcs, h.counterpartyHtlcs]
    decide
  unfold validateCloseTerms
  rw [h.holder, h.counterparty]
  simp only [orPolicyError, ok_bind]
  rw [policyErr_of_not fun hc => h.holderScript hc.1 hc.2, ok_bind,
    policyErr_of_not fun hc => h.counterpartyScript hc.1 hc.2, ok_bind,
    policyErr_of_not fun hc => hc.2.2 (h.shutdown hc.1 hc.2.1), ok_bind,
    policyErr_of_not hhtlcs, ok_bind, checkedAdd, if_pos h.word, ok_bind]

/-- Under the default filter terms that are not refused have the right shape. -/
theorem exists_shape (hfilter : v.policy.filter = .default)
    (h : NoRefusal (v.validateCloseTerms L setup e args)) :
    ∃ holderInfo counterpartyInfo, CloseShape setup e args holderInfo counterpartyInfo := by
  obtain ⟨hholder, h⟩ := h.of_bind
  cases hinfo : e.currentHolderCommitInfo with
  | none => exact absurd (by rw [hinfo]; rfl) (hholder _)
  | some holderInfo =>
  obtain ⟨hcounterparty, h⟩ := (h holderInfo (by rw [hinfo]; rfl)).of_bind
  cases cinfo : e.currentCounterpartyCommitInfo with
  | none => exact absurd (by rw [cinfo]; rfl) (hcounterparty _)
  | some counterpartyInfo =>
  have h := h counterpartyInfo (by rw [cinfo]; rfl)
  rw [hfilter] at h
  obtain ⟨h₁, h⟩ := h.of_bind
  have h₁ := not_of_noRefusal h₁
  obtain ⟨h₂, h⟩ := (h () (policyErr_of_not h₁)).of_bind
  have h₂ := not_of_noRefusal h₂
  obtain ⟨h₃, h⟩ := (h () (policyErr_of_not h₂)).of_bind
  have h₃ := not_of_noRefusal h₃
  obtain ⟨h₄, h⟩ := (h () (policyErr_of_not h₃)).of_bind
  have h₄ := not_of_noRefusal h₄
  obtain ⟨h₅, -⟩ := (h () (policyErr_of_not h₄)).of_bind
  have h₅ : args.toHolderValueSat + args.toCounterpartyValueSat < 2 ^ 64 := by
    by_contra hword
    exact h₅ _ (if_neg hword)
  push Not at h₁ h₂ h₃ h₄
  exact ⟨holderInfo, counterpartyInfo, hinfo, cinfo, h₁, h₂, h₃, by simpa using h₄.1,
    by simpa using h₄.2, h₅⟩

/-- Under the default filter the terms are accepted iff they hold. -/
theorem validateCloseTerms_eq_ok (hfilter : v.policy.filter = .default) :
    v.validateCloseTerms L setup e args = .ok u ↔
      ∃ holderInfo counterpartyInfo, CloseTerms v L setup e args holderInfo counterpartyInfo := by
  constructor
  · intro h
    obtain ⟨holderInfo, counterpartyInfo, hshape⟩ :=
      exists_shape hfilter (h ▸ NoRefusal.ok u : NoRefusal (v.validateCloseTerms L setup e args))
    rw [validateCloseTerms_of_shape hshape] at h
    obtain ⟨u, hfee, hvalues⟩ := bind_ok h
    have hvalues := (checkCloseValues_eq_ok hfilter).mp hvalues
    exact ⟨holderInfo, counterpartyInfo, hshape, withFunction_eq_ok.mp hfee, hvalues.1, hvalues.2⟩
  · rintro ⟨holderInfo, counterpartyInfo, h⟩
    rw [validateCloseTerms_of_shape h.toCloseShape]
    exact bind_eq_ok.mpr ⟨(), withFunction_eq_ok.mpr h.fee,
      (checkCloseValues_eq_ok hfilter).mpr ⟨h.outbound, h.inbound⟩⟩

/-- Under the default filter the holder's output goes to the wallet or the allowlist. -/
theorem validateCloseDestination_ok (hfilter : v.policy.filter = .default) {script : Script}
    (hscript : args.holderScript = some script)
    (h : v.validateCloseDestination wallet args = .ok u) :
    wallet.canSpend args.walletPath script = .ok true ∨
      wallet.allowlistContains script args.walletPath = .ok true := by
  unfold validateCloseDestination at h
  rw [hscript] at h
  obtain ⟨spendable, hspendable, h⟩ := bind_ok h
  rw [orWalletError_eq_ok] at hspendable
  cases spendable with
  | true => exact .inl hspendable
  | false =>
    rw [if_neg Bool.false_ne_true] at h
    obtain ⟨allowed, hallowed, h⟩ := bind_ok h
    rw [hfilter, default_policyErr_eq_ok, Bool.not_eq_false] at h
    subst h
    exact .inr (Asserted.lift_eq_ok.mp hallowed)

/-- The two assignments give the holder one output each, with the path of that output. -/
theorem assignments_ok {tx : Transaction}
    (h : v.assignments e tx walletPaths = .ok (likely, unlikely)) :
    ∀ a, a = likely ∨ a = unlikely →
      (a.toHolderValueSat = 0 ∨
        ∃ script, a.holderScript = some script ∧
          (⟨a.toHolderValueSat, script⟩, a.walletPath) ∈ tx.output.zip walletPaths) ∧
        a.walletPath ∈ [] :: walletPaths := by
  unfold assignments at h
  split at h
  · rename_i out path hout
    rw [hout]
    cases hlarger : e.holderValueIsLarger v.policy.epsilonSat <;>
    · simp only [hlarger, Except.ok.injEq, Prod.mk.injEq, if_true, Bool.false_eq_true,
        if_false] at h
      obtain ⟨rfl, rfl⟩ := h
      rintro a (rfl | rfl) <;> simp
  · rename_i out0 out1 outs path0 path1 paths hout
    rw [hout]
    cases hlarger : e.holderValueIsLarger v.policy.epsilonSat <;>
    · simp only [hlarger, Except.ok.injEq, Prod.mk.injEq, if_true, Bool.false_eq_true,
        if_false] at h
      obtain ⟨rfl, rfl⟩ := h
      rintro a (rfl | rfl) <;> simp
  · cases h

/-- The assignment that is taken is one of the two, and passes the checks. -/
theorem firstValid_ok (h : v.firstValid L wallet setup e likely unlikely = .ok args) :
    (args = likely ∨ args = unlikely) ∧ v.validateMutualCloseTx L wallet setup e args = .ok () := by
  unfold firstValid at h
  split at h
  · rename_i hlikely
    cases h
    exact ⟨.inl rfl, hlikely⟩
  · cases h
  · split at h
    · rename_i hunlikely
      cases h
      exact ⟨.inr rfl, hunlikely⟩
    · cases h
    · cases h

/-- Under the default filter a transaction that is accepted as a close is rebuilt from an assignment
that passes the checks. -/
theorem decodeAndValidateMutualCloseTx_ok (hfilter : v.policy.filter = .default) {tx : Transaction}
    {closing : ClosingTransaction}
    (h : v.decodeAndValidateMutualCloseTx L wallet setup e tx walletPaths = .ok closing) :
    ∃ likely unlikely args, v.assignments e tx walletPaths = .ok (likely, unlikely) ∧
      (args = likely ∨ args = unlikely) ∧
      v.validateMutualCloseTx L wallet setup e args = .ok () ∧
      closing = args.closing setup.fundingOutpoint ∧ L.builtTransaction closing = tx := by
  iterate 4 obtain ⟨u, -, h⟩ := bind_ok h
  obtain ⟨⟨likely, unlikely⟩, hassign, h⟩ := bind_ok h
  obtain ⟨args, hvalid, h⟩ := bind_ok h
  obtain ⟨u, hbuilt, h⟩ := bind_ok h
  cases h
  rw [hfilter, default_policyErr_eq_ok, not_not] at hbuilt
  obtain ⟨hargs, hvalid⟩ := firstValid_ok hvalid
  exact ⟨likely, unlikely, args, hassign, hargs, hvalid, rfl, hbuilt⟩

end DefaultFilter

end SimpleValidator

end ValidatingSigner
