import Vls.Channel.Scripts
import Vls.Policy.HtlcTx

/-!
# What an accepted fee can be

The ceiling on feerates holds for exactly the fees whose feerate the signer computes without loss.
The fee of a commitment of a channel of the default size is always one of these.
-/

namespace ValidatingSigner

open Base SimpleValidator Sample

/-! ## The estimate -/

/-- The estimate from a fee within the bounds is the greatest feerate that gives rise to no more
than the fee.  From the fee of a feerate it is at least that feerate and gives rise to the same fee.
A second-level transaction built at any feerate is accepted and recomposed as it is, at no lower
feerate; whatever is accepted is signed as its recomposition is. -/
theorem feerate_estimate_inverts (v : SimpleValidator) (B : v.library.HtlcBuilder)
    (S : ScriptLibrary) :
    (∀ fee weight, 1 ≤ weight → fee * 1000 + 999 < 2 ^ 64 → (fee * 1000 + 999) / weight < 2 ^ 32 →
      ∃ r, estimateFeeratePerKw v.overflow fee weight = .ok r ∧
        (r * weight / 1000 ≤ fee ∧ ∀ rate, rate * weight / 1000 ≤ fee → rate ≤ r) ∧
        ∀ rate, rate * weight / 1000 = fee → rate ≤ r ∧ r * weight / 1000 = fee) ∧
    ∀ isCounterparty setup txkeys redeemscript,
      (∀ txid feerate htlc index,
        S.htlcOffered setup.isAnchors redeemscript = .ok htlc.offered →
        htlc.transactionOutputIndex = some index → htlc.amountMsat < 2 ^ 64 → feerate < 2 ^ 32 →
        v.library.htlcFee setup htlc.offered feerate ≤ htlc.amountMsat / 1000 →
        feeratePerKw (v.library.htlcFee setup htlc.offered feerate)
          (v.library.htlcTxWeight htlc.offered setup.isAnchors) < 2 ^ 32 →
        v.Recomposes S isCounterparty setup txkeys redeemscript txid feerate htlc) ∧
      ∀ tx htlcAmountSat r htlc sighash sighashType,
        v.decodeAndValidateHtlcTx S isCounterparty setup txkeys tx redeemscript htlcAmountSat =
          .ok (r, htlc, sighash, sighashType) →
        v.SignedAs isCounterparty setup txkeys tx redeemscript htlcAmountSat r htlc sighash
          sighashType := by
  refine ⟨fun fee weight hweight hproduct hquotient => ?_, fun _ _ _ _ => ⟨?_, ?_⟩⟩
  · refine ⟨_, estimate_of_fits v.overflow hproduct hquotient, ⟨?_, ?_⟩, ?_⟩
    · exact (le_feeratePerKw_iff hweight).mp le_rfl
    · exact fun rate => (le_feeratePerKw_iff hweight).mpr
    · rintro rate rfl
      exact ⟨(le_feeratePerKw_iff hweight).mpr le_rfl, fee_feeratePerKw hweight⟩
  · intro txid feerate htlc index hside hindex hword hfeerate hcovered hquotient
    exact recomposes B hside hindex hword hfeerate hcovered hquotient
  · intro tx htlcAmountSat r htlc sighash sighashType h
    exact signedAs_of_decodeAndValidateHtlcTx h

namespace Sample

/-- A second-level transaction that pays to the broadcaster after the delay. -/
def makeHtlcTx (outpoint : OutPoint) (lockTime value delay : Nat) (isAnchors : Bool)
    (delayed revocation : PublicKey) : Transaction :=
  ⟨2, lockTime, [⟨outpoint, [], if isAnchors then 1 else 0, []⟩],
    [⟨value, scripts.toV0P2wsh (writer.getRevokeableRedeemscript revocation delay delayed)⟩]⟩

/-- The library with second-level transactions, and hashes that tell their values. -/
def htlcTxLibrary : Library :=
  { htlcLibrary with
    buildHtlcTransaction := fun txid feerate delay htlc isAnchors nonZeroFee delayed revocation =>
      let fee := if isAnchors && !nonZeroFee then 0
        else feerate * htlcLibrary.htlcTxWeight htlc.offered isAnchors / 1000
      makeHtlcTx ⟨txid, htlc.transactionOutputIndex.getD 0⟩
        (if htlc.offered then htlc.cltvExpiry else 0) (htlc.amountMsat / 1000 - fee)
        delay isAnchors delayed revocation
    segwitSignatureHash := fun tx _ _ _ _ => BitVec.ofNat 256 (tx.output.map TxOut.value).sum }

/-- What is assumed of the builder holds of the sample. -/
def htlcTxBuilder : htlcTxLibrary.HtlcBuilder where
  make := makeHtlcTx
  input := fun _ _ _ _ _ _ _ => ⟨_, rfl, rfl⟩
  lockTime := fun _ _ _ _ _ _ _ => rfl
  output := fun _ _ _ _ _ _ _ => ⟨_, rfl, rfl⟩
  build := by
    intro setup txid feerate delay htlc delayed revocation index hindex _
    have hfee : htlcTxLibrary.htlcFee setup htlc.offered feerate =
        if setup.isAnchors && !!setup.isZeroFeeHtlc then 0
        else feerate * htlcLibrary.htlcTxWeight htlc.offered setup.isAnchors / 1000 := by
      unfold Library.htlcFee ChannelSetup.isZeroFeeHtlc ChannelSetup.isAnchors
      cases setup.commitmentType <;> rfl
    rw [hfee, ← Option.getD_some (a := index) (b := 0), ← hindex]
    rfl
  weight := by decide

/-- An HTLC the holder offered, of 100000 satoshi. -/
def offeredHtlc : HTLCOutputInCommitment := ⟨true, 100000000, 500, 7, some 2⟩

/-- The keys of a commitment. -/
def txkeys : TxCreationKeys := ⟨⟨1⟩, ⟨2⟩, ⟨3⟩, ⟨4⟩, ⟨5⟩⟩

end Sample

/-- A timeout transaction built at the least feerate of the policy is accepted, recomposed as it is,
at no lower feerate. -/
theorem feerate_estimate_inverts_least :
    (∃ r, estimateFeeratePerKw .checked 167 663 = .ok r ∧ 253 ≤ r ∧ r * 663 / 1000 = 167) ∧
      let v : SimpleValidator := { validator .checked with library := htlcTxLibrary }
      (v.recomposedTx false setup txkeys 9 253 offeredHtlc).output.map TxOut.value = [99833] ∧
      v.Recomposes scripts false setup txkeys (htlcRedeemscript offeredHtlc false txkeys) 9
        (makeSimplePolicy .bitcoin).minFeeratePerKw offeredHtlc := by
  obtain ⟨hestimate, hrecompose⟩ := feerate_estimate_inverts
    { validator .checked with library := htlcTxLibrary } htlcTxBuilder scripts
  constructor
  · obtain ⟨r, hr, -, hinverts⟩ := hestimate 167 663 (by decide) (by decide) (by decide)
    exact ⟨r, hr, hinverts 253 rfl⟩
  · exact ⟨rfl, (hrecompose false setup txkeys (htlcRedeemscript offeredHtlc false txkeys)).1 9 253
      offeredHtlc 2 (by decide +kernel) rfl (by decide) (by decide) (by decide +kernel)
      (by decide +kernel)⟩

/-! ## The ceiling -/

/-- Any other fee has an estimate below its feerate. -/
theorem exists_estimate_lt {o : Overflow} {fee weight : Nat} (hpos : 0 < weight)
    (hweight : weight < 2 ^ 64) (h : ¬ Estimable o fee weight) :
    ∃ r, estimateFeeratePerKw o fee weight = .ok r ∧ r < feeratePerKw fee weight := by
  unfold Estimable at h
  have hlost : 2 ^ 64 ≤ fee * 1000 + 999 ∨ 2 ^ 32 ≤ feeratePerKw fee weight := by
    by_contra hexact
    push Not at hexact
    exact h ⟨fun _ => hexact.1, fun _ => hexact.2⟩
  have hbuild : o = .wrapping ∨ fee * 1000 + 999 < 2 ^ 64 := by
    by_contra hnone
    push Not at hnone
    exact h ⟨fun ho => absurd ho hnone.1, fun hfits => absurd hfits (by omega)⟩
  obtain ⟨r, hr⟩ : ∃ r, estimateFeeratePerKw o fee weight = .ok r :=
    exists_estimateFeeratePerKw hbuild
  exact ⟨r, hr, estimateFeeratePerKw_lt hpos hweight hlost hr⟩

/-- The feerate of whatever a policy accepts is at most its maximum, for every policy, iff the build
computes the feerate without loss. -/
theorem feerate_ceiling_iff (library : Library) (checks : TransactionChecks) (o : Overflow)
    {fee weight : Nat} (hfee : fee < 2 ^ 64) (hpos : 1 ≤ weight) (hweight : weight < 2 ^ 64) :
    (∀ policy : SimplePolicy, policy.filter = .default → policy.devFlags = none →
      policy.maxFeeratePerKw < 2 ^ 32 →
      ∀ sumInputs sumOutputs tag, sumInputs < 2 ^ 64 → sumInputs = sumOutputs + fee →
        ((⟨policy, o, library, checks⟩ : SimpleValidator).validateFee tag sumInputs sumOutputs
            weight = .ok () ∨
          ∃ nonBeneficial, (⟨policy, o, library, checks⟩ : SimpleValidator).validateBeneficialValue
            sumInputs sumOutputs weight = .ok nonBeneficial) →
        feeratePerKw fee weight ≤ policy.maxFeeratePerKw) ↔
      Estimable o fee weight := by
  constructor
  · intro hceiling
    by_contra hlossy
    obtain ⟨r, hr, hlt⟩ := exists_estimate_lt hpos hweight hlossy
    have hr32 : r < 2 ^ 32 := by
      rw [(estimateFeeratePerKw_ok hr).1]
      exact Nat.mod_lt _ (by decide)
    let policy : SimplePolicy := { makeSimplePolicy .bitcoin with maxFeeratePerKw := r }
    have haccepted := validateBeneficialValue_of_le
      (v := ⟨policy, o, library, checks⟩) (Nat.zero_le fee) hr le_rfl
    have hle := hceiling policy rfl rfl hr32 fee 0 "" hfee (Nat.zero_add fee).symm
      (.inr ⟨fee, haccepted⟩)
    exact absurd hle (not_le.mpr hlt)
  · rintro hexact policy hfilter hflags - sumInputs sumOutputs tag - rfl haccepted
    rcases haccepted with h | ⟨nonBeneficial, h⟩
    · obtain ⟨-, r, hr, -, hmax⟩ := validateFee_ok hfilter h
      rw [Nat.add_sub_cancel_left] at hr
      rwa [← hexact.eq_of_estimate hr]
    · obtain ⟨-, rfl, r, hr, hmax⟩ := validateBeneficialValue_ok hfilter hflags h
      rw [Nat.add_sub_cancel_left] at hr
      rwa [← hexact.eq_of_estimate hr]

/-- At an ordinary fee the ceiling holds. -/
theorem feerate_ceiling_iff_thousand :
    1000 < 2 ^ 64 ∧ 1 ≤ 1000 ∧
      ∀ policy : SimplePolicy, policy.filter = .default → policy.devFlags = none →
        policy.maxFeeratePerKw < 2 ^ 32 →
        ∀ sumInputs sumOutputs tag, sumInputs < 2 ^ 64 → sumInputs = sumOutputs + 1000 →
          ((⟨policy, .wrapping, library, checks⟩ : SimpleValidator).validateFee tag
              sumInputs sumOutputs 1000 = .ok () ∨
            ∃ nonBeneficial,
              (⟨policy, .wrapping, library, checks⟩ :
                SimpleValidator).validateBeneficialValue sumInputs sumOutputs 1000 =
                  .ok nonBeneficial) →
          feeratePerKw 1000 1000 ≤ policy.maxFeeratePerKw :=
  ⟨by decide, by decide,
    (feerate_ceiling_iff library checks .wrapping (by decide) (by decide)
      (by decide)).mpr ⟨fun _ => by decide, fun _ => by decide⟩⟩

/-- Both builds accept a fee of nearly 43 bitcoin for a transaction of weight 1000 under the default
policy: its feerate loses its highest bit. -/
theorem feerate_ceiling_lost :
    (makeSimplePolicy .bitcoin).maxFeeratePerKw < feeratePerKw (2 ^ 32 + 1000) 1000 ∧
      ∀ o, (validator o).validateFee "policy-onchain-fee-range" (2 ^ 32 + 1000) 0 1000 =
          .ok () ∧
        (validator o).validateBeneficialValue (2 ^ 32 + 1000) 0 1000 =
          .ok (2 ^ 32 + 1000) := by
  refine ⟨by decide, fun o => ?_⟩
  cases o <;> decide +kernel

/-! ## Commitments -/

/-- The weight a commitment is expected to have. -/
def CommitmentInfo2.weight (setup : ChannelSetup) (info : CommitmentInfo2) : Nat :=
  expectedCommitmentTxWeight setup.isAnchors (info.offeredHtlcs.length + info.receivedHtlcs.length)

/-- The limits on the values of a commitment, as plain numbers. -/
structure ValueLimits (library : Library) (policy : SimplePolicy) (n : Nat) (setup : ChannelSetup)
    (info : CommitmentInfo2) : Prop where
  covered : info.outputValue ≤ setup.channelValueSat
  minFeerate : policy.minFeeratePerKw ≤
    feeratePerKw (setup.channelValueSat - info.outputValue) (info.weight setup)
  maxFeerate : feeratePerKw (setup.channelValueSat - info.outputValue) (info.weight setup) ≤
    policy.maxFeeratePerKw
  broadcaster : info.toBroadcasterValueSat = 0 ∨
    MIN_CHAN_DUST_LIMIT_SATOSHIS ≤ info.toBroadcasterValueSat
  countersigner : info.toCountersignerValueSat = 0 ∨
    MIN_CHAN_DUST_LIMIT_SATOSHIS ≤ info.toCountersignerValueSat
  offered : ∀ htlc ∈ info.offeredHtlcs,
    htlcDustLimit setup info (library.htlcTimeoutTxWeight setup.isAnchors) ≤ htlc.valueSat
  received : ∀ htlc ∈ info.receivedHtlcs,
    htlcDustLimit setup info (library.htlcSuccessTxWeight setup.isAnchors) ≤ htlc.valueSat
  htlcs : htlcValue info.offeredHtlcs + htlcValue info.receivedHtlcs ≤ policy.maxHtlcValueSat
  count : info.offeredHtlcs.length + info.receivedHtlcs.length ≤ policy.maxHtlcs
  initial : n = 0 → setup.isOutbound →
    info.offeredHtlcs = [] ∧ info.receivedHtlcs = [] ∧
      setup.channelValueSat ≤ info.valueToParties.1 + setup.pushValueMsat / 1000 +
        policy.maxFeeratePerKw * info.weight setup / 1000

section Commitments

variable {v : SimpleValidator} {setup : ChannelSetup} {info : CommitmentInfo2} {n : Nat}

theorem CommitmentInfo2.le_weight (setup : ChannelSetup) (info : CommitmentInfo2) :
    724 ≤ info.weight setup := by
  unfold weight expectedCommitmentTxWeight
  split_ifs <;> omega

/-- The feerate of the fee of an accepted commitment is within the policy. -/
theorem feerate_of_limits (hpolicy : v.policy = makeSimplePolicy .bitcoin)
    (hvalue : setup.channelValueSat ≤ v.policy.maxChannelSizeSat)
    (hlimits : Limits v n setup info) :
    info.outputValue ≤ setup.channelValueSat ∧
      253 ≤ feeratePerKw (setup.channelValueSat - info.outputValue) (info.weight setup) ∧
      feeratePerKw (setup.channelValueSat - info.outputValue) (info.weight setup) ≤ 25000 := by
  have hfilter : v.policy.filter = .default := by rw [hpolicy]; rfl
  rw [hpolicy] at hvalue
  obtain ⟨hcovered, r, hr, hmin, hmax⟩ := validateFee_ok hfilter hlimits.fee
  have hexact := (estimable_of_le (o := v.overflow)
    ((Nat.sub_le setup.channelValueSat info.outputValue).trans hvalue)
    (le_trans (by decide) (info.le_weight setup))).eq_of_estimate hr
  rw [hpolicy, hexact] at hmin hmax
  exact ⟨hcovered, hmin, hmax⟩

/-- The first commitment has no HTLCs, and the counterparty of a channel the holder funded gets no
more than what is pushed to it. -/
theorem initial_of_limits (hfilter : v.policy.filter = .default) (hlimits : Limits v 0 setup info) :
    info.offeredHtlcs = [] ∧ info.receivedHtlcs = [] ∧
      (setup.isOutbound → info.valueToParties.2 ≤ setup.pushValueMsat / 1000) := by
  have h := hlimits.initial
  rw [validateInitialCommitment, if_pos rfl] at h
  obtain ⟨u, hnone, hpush⟩ := bind_ok h
  rw [hfilter, PolicyFilter.default_policyErr_eq_ok] at hnone hpush
  refine ⟨List.length_eq_zero_iff.mp (by omega), List.length_eq_zero_iff.mp (by omega), ?_⟩
  exact fun hout => not_lt.mp fun hlt => hpush ⟨hout, hlt⟩

/-- Without HTLCs a commitment pays the two parties only. -/
theorem CommitmentInfo2.outputValue_eq (hoffered : info.offeredHtlcs = [])
    (hreceived : info.receivedHtlcs = []) :
    info.outputValue = info.valueToParties.1 + info.valueToParties.2 := by
  unfold outputValue valueToParties
  rw [hoffered, hreceived]
  split_ifs
  · simp [htlcValue, Nat.add_comm]
  · simp [htlcValue]

/-- The fee of the first commitment is at most that of the highest feerate. -/
theorem fee_le_of_feerate {fee : Nat} {isAnchors : Bool}
    (h : feeratePerKw fee (expectedCommitmentTxWeight isAnchors 0) ≤ 25000) :
    fee ≤ 25000 * expectedCommitmentTxWeight isAnchors 0 / 1000 := by
  unfold feeratePerKw expectedCommitmentTxWeight at *
  cases isAnchors
  · simp only [Bool.false_eq_true, if_false] at *
    omega
  · simp only [if_true] at *
    omega

/-- Every commitment the default policy accepts in a channel of the default size keeps to the limits
on its values. -/
theorem accepted_commitment_limits (hpolicy : v.policy = makeSimplePolicy .bitcoin)
    (hvalue : setup.channelValueSat ≤ v.policy.maxChannelSizeSat) {e : EnforcementState}
    {point : PublicKey} {cstate : ChainState}
    (h : v.validateCounterpartyCommitmentTx e n point setup cstate info = .ok () ∨
      v.validateHolderCommitmentTx e n setup cstate info = .ok ()) :
    ValueLimits v.library (makeSimplePolicy .bitcoin) n setup info := by
  have hfilter : v.policy.filter = .default := by rw [hpolicy]; rfl
  have hcommit : v.validateCommitmentTx n setup cstate info = .ok () := by
    rcases h with h | h
    · exact (validateCounterpartyCommitmentTx_ok hfilter h).1
    · exact (validateHolderCommitmentTx_ok hfilter h).1
  have hlimits := validateCommitmentTx_limits hfilter hcommit
  obtain ⟨hcovered, hmin, hmax⟩ := feerate_of_limits hpolicy hvalue hlimits
  refine {
    covered := hcovered
    minFeerate := hmin
    maxFeerate := hmax
    broadcaster := hlimits.broadcaster
    countersigner := hlimits.countersigner
    offered := hlimits.offered
    received := hlimits.received
    htlcs := by rw [← hpolicy]; exact hlimits.htlcs
    count := by rw [← hpolicy]; exact hlimits.count
    initial := ?_ }
  rintro rfl hout
  obtain ⟨hoffered, hreceived, hpush⟩ := initial_of_limits hfilter hlimits
  have hweight : info.weight setup = expectedCommitmentTxWeight setup.isAnchors 0 := by
    unfold CommitmentInfo2.weight
    rw [hoffered, hreceived]
    rfl
  rw [hweight] at hmax ⊢
  have hfee := fee_le_of_feerate hmax
  have hparties := CommitmentInfo2.outputValue_eq hoffered hreceived
  have hpush := hpush hout
  refine ⟨hoffered, hreceived, ?_⟩
  change setup.channelValueSat ≤ info.valueToParties.1 + setup.pushValueMsat / 1000 +
    25000 * expectedCommitmentTxWeight setup.isAnchors 0 / 1000
  omega

end Commitments

namespace Sample

/-- A holder commitment that pays the holder all but the given fee. -/
def commitmentInfo (fee : Nat) : CommitmentInfo2 :=
  .new false ⟨22⟩ 0 ⟨21⟩ ⟨13⟩ (1000000 - fee) 144 [] [] 253

end Sample

/-- The first commitment of a channel at the least feerate is within the limits. -/
theorem accepted_commitment_limits_initial :
    (validator .wrapping).validateHolderCommitmentTx (.new 0) 0 setup chain
        (commitmentInfo 183) = .ok () ∧
      ValueLimits library (makeSimplePolicy .bitcoin) 0 setup (commitmentInfo 183) :=
  have h : (validator .wrapping).validateHolderCommitmentTx (.new 0) 0 setup
      chain (commitmentInfo 183) = .ok () := by decide +kernel
  ⟨h, @accepted_commitment_limits (validator .wrapping) setup
    (commitmentInfo 183) 0 rfl (by decide) (.new 0) ⟨0⟩ chain (.inr h)⟩

/-- The fee of an accepted commitment can be below the least feerate times the weight: it is the fee
of that feerate, which is rounded down. -/
theorem accepted_fee_below_minimum :
    (validator .wrapping).validateHolderCommitmentTx (.new 0) 0 setup chain
        (commitmentInfo 183) = .ok () ∧
      setup.channelValueSat - (commitmentInfo 183).outputValue = 183 ∧
      183 * 1000 / (commitmentInfo 183).weight setup <
        (makeSimplePolicy .bitcoin).minFeeratePerKw ∧
      183 = (makeSimplePolicy .bitcoin).minFeeratePerKw *
        (commitmentInfo 183).weight setup / 1000 := by
  decide +kernel

end ValidatingSigner
