import Vls.Policy.Decoder
import Vls.Policy.Fees

/-!
# Second-level transactions

A transaction that spends an HTLC of a commitment is checked by recomposing it: its feerate is read
off the fee it pays, the Lightning library builds the transaction at that feerate again, and both
must have the same hash to sign.
-/

namespace ValidatingSigner

open Base

/-- The weight of the transaction that spends an HTLC. -/
def Library.htlcTxWeight (L : Library) (offered isAnchors : Bool) : Nat :=
  if offered then L.htlcTimeoutTxWeight isAnchors else L.htlcSuccessTxWeight isAnchors

/-! ## The check -/

/-- Whether an HTLC is offered by the broadcaster, by its script. -/
def ScriptLibrary.htlcOffered (S : ScriptLibrary) (isAnchors : Bool) (redeemscript : Script) :
    Result Bool :=
  if (S.parse (parseOfferedHtlcScript S isAnchors) redeemscript).isSome then .ok true
  else if (S.parse (parseReceivedHtlcScript S isAnchors) redeemscript).isSome then .ok false
  else .error (.refuse (policyError "invalid redeemscript"))

namespace SimpleValidator

variable (v : SimpleValidator)

/-- The feerate that a second-level transaction is recomposed with. -/
def buildFeerate (setup : ChannelSetup) (offered : Bool) (totalFee : Nat) : Result Nat :=
  if setup.isZeroFeeHtlc then .ok 0
  else estimateFeeratePerKw v.overflow totalFee (v.library.htlcTxWeight offered setup.isAnchors)

/-- The delay that the other side imposes on the output of a second-level transaction. -/
def toSelfDelay (isCounterparty : Bool) (setup : ChannelSetup) : Nat :=
  if isCounterparty then setup.holderSelectedContestDelay
  else setup.counterpartySelectedContestDelay

/-- The second-level transaction of a side of the channel, as the library builds it. -/
def recomposedTx (isCounterparty : Bool) (setup : ChannelSetup) (txkeys : TxCreationKeys)
    (commitmentTxid : Bytes32) (buildFeerate : Nat) (htlc : HTLCOutputInCommitment) : Transaction :=
  v.library.buildHtlcTransaction commitmentTxid buildFeerate (toSelfDelay isCounterparty setup) htlc
    setup.isAnchors (!setup.isZeroFeeHtlc) txkeys.broadcasterDelayedPaymentKey txkeys.revocationKey

/-- How a second-level transaction is signed. -/
def htlcSighashType (isCounterparty : Bool) (setup : ChannelSetup) : EcdsaSighashType :=
  if isCounterparty && setup.isAnchors then .singlePlusAnyoneCanPay else .all

/-- Check a second-level transaction by recomposing it, and return its feerate, its HTLC and what is
signed. -/
def decodeAndValidateHtlcTx (S : ScriptLibrary) (isCounterparty : Bool) (setup : ChannelSetup)
    (txkeys : TxCreationKeys) (tx : Transaction) (redeemscript : Script) (htlcAmountSat : Nat) :
    Result (Nat × HTLCOutputInCommitment × Bytes32 × EcdsaSighashType) := do
  let sighashType := htlcSighashType isCounterparty setup
  let txin ← expect "IndexOutOfInputsBounds" tx.input[0]?
  let originalTxSighash :=
    v.library.segwitSignatureHash tx 0 redeemscript htlcAmountSat sighashType
  let offered ← S.htlcOffered setup.isAnchors redeemscript
  let txout ← expect "index out of bounds" tx.output[0]?
  let totalFee ← v.overflow.sub htlcAmountSat txout.value
  let buildFeerate ← v.buildFeerate setup offered totalFee
  let amountMsat ← v.overflow.u64 (htlcAmountSat * 1000)
  let htlc : HTLCOutputInCommitment :=
    { offered := offered
      amountMsat := amountMsat
      cltvExpiry := if offered then tx.lockTime else 0
      paymentHash := 0
      transactionOutputIndex := some txin.previousOutput.vout }
  let recomposed := v.recomposedTx isCounterparty setup txkeys txin.previousOutput.txid buildFeerate
    htlc
  let recomposedTxSighash :=
    v.library.segwitSignatureHash recomposed 0 redeemscript htlcAmountSat sighashType
  refuseIf (recomposedTxSighash ≠ originalTxSighash) (policyError "sighash mismatch")
  return (buildFeerate, htlc, recomposedTxSighash, sighashType)

/-- The transaction is signed as its recomposition at a feerate is. -/
def SignedAs (isCounterparty : Bool) (setup : ChannelSetup) (txkeys : TxCreationKeys)
    (tx : Transaction) (redeemscript : Script) (htlcAmountSat feerate : Nat)
    (htlc : HTLCOutputInCommitment) (sighash : Bytes32) (sighashType : EcdsaSighashType) : Prop :=
  ∃ txin, tx.input[0]? = some txin ∧
    v.library.segwitSignatureHash tx 0 redeemscript htlcAmountSat sighashType = sighash ∧
    v.library.segwitSignatureHash
      (v.recomposedTx isCounterparty setup txkeys txin.previousOutput.txid feerate htlc) 0
      redeemscript htlcAmountSat sighashType = sighash

/-- What is accepted is signed as its recomposition is. -/
theorem signedAs_of_decodeAndValidateHtlcTx {v : SimpleValidator} {S : ScriptLibrary}
    {isCounterparty : Bool} {setup : ChannelSetup} {txkeys : TxCreationKeys} {tx : Transaction}
    {redeemscript : Script} {htlcAmountSat r : Nat} {htlc : HTLCOutputInCommitment}
    {sighash : Bytes32} {sighashType : EcdsaSighashType}
    (h : v.decodeAndValidateHtlcTx S isCounterparty setup txkeys tx redeemscript htlcAmountSat =
      .ok (r, htlc, sighash, sighashType)) :
    v.SignedAs isCounterparty setup txkeys tx redeemscript htlcAmountSat r htlc sighash
      sighashType := by
  obtain ⟨txin, hin, h⟩ := bind_ok h
  obtain ⟨offered, -, h⟩ := bind_ok h
  obtain ⟨txout, -, h⟩ := bind_ok h
  obtain ⟨totalFee, -, h⟩ := bind_ok h
  obtain ⟨feerate, -, h⟩ := bind_ok h
  obtain ⟨amountMsat, -, h⟩ := bind_ok h
  obtain ⟨u, hsame, h⟩ := bind_ok h
  rw [refuseIf_eq_ok, not_not] at hsame
  cases h
  exact ⟨txin, expect_eq_ok.mp hin, hsame.symm, rfl⟩

end SimpleValidator

/-! ## Transactions the library builds -/

/-- The fee the library takes for the transaction that spends an HTLC. -/
def Library.htlcFee (L : Library) (setup : ChannelSetup) (offered : Bool) (feerate : Nat) : Nat :=
  if setup.isZeroFeeHtlc then 0 else feerate * L.htlcTxWeight offered setup.isAnchors / 1000

/-- What is assumed of the library's builder of second-level transactions: it spends the output of
the HTLC, with the expiry of an offered one as its lock time, for the whole satoshi of the HTLC less
the fee at the feerate, and reads no more than this of the HTLC and the feerate. -/
structure Library.HtlcBuilder (L : Library) where
  make : OutPoint → Nat → Nat → Nat → Bool → PublicKey → PublicKey → Transaction
  input : ∀ outpoint lockTime value delay isAnchors delayed revocation, ∃ txin,
    (make outpoint lockTime value delay isAnchors delayed revocation).input[0]? = some txin ∧
      txin.previousOutput = outpoint
  lockTime : ∀ outpoint lockTime value delay isAnchors delayed revocation,
    (make outpoint lockTime value delay isAnchors delayed revocation).lockTime = lockTime
  output : ∀ outpoint lockTime value delay isAnchors delayed revocation, ∃ txout,
    (make outpoint lockTime value delay isAnchors delayed revocation).output[0]? = some txout ∧
      txout.value = value
  build : ∀ (setup : ChannelSetup) txid feerate delay htlc delayed revocation index,
    htlc.transactionOutputIndex = some index →
    L.htlcFee setup htlc.offered feerate ≤ htlc.amountMsat / 1000 →
    L.buildHtlcTransaction txid feerate delay htlc setup.isAnchors (!setup.isZeroFeeHtlc) delayed
        revocation =
      make ⟨txid, index⟩ (if htlc.offered then htlc.cltvExpiry else 0)
        (htlc.amountMsat / 1000 - L.htlcFee setup htlc.offered feerate) delay setup.isAnchors
        delayed revocation
  weight : ∀ offered isAnchors,
    1 ≤ L.htlcTxWeight offered isAnchors ∧ L.htlcTxWeight offered isAnchors ≤ 1000

namespace SimpleValidator

/-- The transaction that is built for an HTLC at a feerate is accepted, recomposed as it is, at no
lower feerate. -/
def Recomposes (v : SimpleValidator) (S : ScriptLibrary) (isCounterparty : Bool)
    (setup : ChannelSetup) (txkeys : TxCreationKeys) (redeemscript : Script) (txid : Bytes32)
    (feerate : Nat) (htlc : HTLCOutputInCommitment) : Prop :=
  let tx := v.recomposedTx isCounterparty setup txkeys txid feerate htlc
  ∃ r htlc' signed, v.decodeAndValidateHtlcTx S isCounterparty setup txkeys tx redeemscript
      (htlc.amountMsat / 1000) = .ok (r, htlc', signed) ∧
    v.recomposedTx isCounterparty setup txkeys txid r htlc' = tx ∧
    (setup.isZeroFeeHtlc = false → feerate ≤ r)

variable {v : SimpleValidator} {setup : ChannelSetup} {offered : Bool} {feerate : Nat}

/-- The fee of a second-level transaction, if estimated exactly, is taken again. -/
theorem buildFeerate_htlcFee (B : v.library.HtlcBuilder) (hfeerate : feerate < 2 ^ 32)
    (hquotient : feeratePerKw (v.library.htlcFee setup offered feerate)
      (v.library.htlcTxWeight offered setup.isAnchors) < 2 ^ 32) :
    ∃ r, v.buildFeerate setup offered (v.library.htlcFee setup offered feerate) = .ok r ∧
      v.library.htlcFee setup offered r = v.library.htlcFee setup offered feerate ∧
      (setup.isZeroFeeHtlc = false → feerate ≤ r) := by
  unfold buildFeerate Library.htlcFee at *
  cases hzero : setup.isZeroFeeHtlc with
  | true => exact ⟨0, rfl, rfl, nofun⟩
  | false =>
    simp only [hzero, Bool.false_eq_true, if_false] at hquotient ⊢
    obtain ⟨hpos, hle⟩ := B.weight offered setup.isAnchors
    have hfee : feerate * v.library.htlcTxWeight offered setup.isAnchors ≤ feerate * 1000 :=
      Nat.mul_le_mul_left _ hle
    exact ⟨_, estimate_of_fits _ (by omega) hquotient, fee_feeratePerKw hpos,
      fun _ => (le_feeratePerKw_iff hpos).mpr le_rfl⟩

/-- A feerate that is estimated exactly is recomposed. -/
theorem recomposes (B : v.library.HtlcBuilder) {S : ScriptLibrary} {isCounterparty : Bool}
    {txkeys : TxCreationKeys} {redeemscript : Script} {txid : Bytes32}
    {htlc : HTLCOutputInCommitment} {index : Nat}
    (hside : S.htlcOffered setup.isAnchors redeemscript = .ok htlc.offered)
    (hindex : htlc.transactionOutputIndex = some index)
    (hword : htlc.amountMsat < 2 ^ 64) (hfeerate : feerate < 2 ^ 32)
    (hcovered : v.library.htlcFee setup htlc.offered feerate ≤ htlc.amountMsat / 1000)
    (hquotient : feeratePerKw (v.library.htlcFee setup htlc.offered feerate)
      (v.library.htlcTxWeight htlc.offered setup.isAnchors) < 2 ^ 32) :
    v.Recomposes S isCounterparty setup txkeys redeemscript txid feerate htlc := by
  obtain ⟨r, hr, hsame, hle⟩ := buildFeerate_htlcFee B hfeerate hquotient
  have htx := B.build setup txid feerate (toSelfDelay isCounterparty setup) htlc
    txkeys.broadcasterDelayedPaymentKey txkeys.revocationKey index hindex hcovered
  unfold Recomposes
  intro tx
  change tx = _ at htx
  obtain ⟨txin, hin, hout⟩ : ∃ txin, tx.input[0]? = some txin ∧ txin.previousOutput = _ :=
    htx ▸ B.input ..
  obtain ⟨txout, htxout, hvalue⟩ : ∃ txout, tx.output[0]? = some txout ∧ txout.value = _ :=
    htx ▸ B.output ..
  have hlock : tx.lockTime = _ := htx ▸ B.lockTime ..
  have hfee : (v.overflow.sub (htlc.amountMsat / 1000) txout.value : Result Nat) =
      .ok (v.library.htlcFee setup htlc.offered feerate) := by
    rw [hvalue]
    refine (if_pos (Nat.sub_le _ _)).trans ?_
    rw [Nat.sub_sub_self hcovered]
  have hmsat : (v.overflow.u64 (htlc.amountMsat / 1000 * 1000) : Result Nat) = .ok _ :=
    Overflow.uint_of_lt v.overflow (by omega)
  -- What is read off the transaction is the HTLC but for what the builder does not read of it.
  let read : HTLCOutputInCommitment := ⟨htlc.offered, htlc.amountMsat / 1000 * 1000,
    if htlc.offered then tx.lockTime else 0, 0, some txin.previousOutput.vout⟩
  have hread : v.recomposedTx isCounterparty setup txkeys txin.previousOutput.txid r read = tx := by
    have hsat : read.amountMsat / 1000 = htlc.amountMsat / 1000 := by simp [read]
    refine (B.build setup _ r _ read _ _ _ rfl (by rw [hsat, hsame]; exact hcovered)).trans ?_
    rw [hsat, hsame, hout, htx]
    simp only [read, hlock]
    split_ifs <;> rfl
  have hhash := congrArg (v.library.segwitSignatureHash · 0 redeemscript (htlc.amountMsat / 1000)
    (htlcSighashType isCounterparty setup)) hread
  refine ⟨r, read, _, bind_eq_ok.mpr ⟨txin, expect_eq_ok.mpr hin, bind_eq_ok.mpr ⟨_, hside,
    bind_eq_ok.mpr ⟨txout, expect_eq_ok.mpr htxout, bind_eq_ok.mpr ⟨_, hfee, bind_eq_ok.mpr
      ⟨r, hr, bind_eq_ok.mpr ⟨_, hmsat, bind_eq_ok.mpr
        ⟨(), refuseIf_of_not (not_not.mpr hhash), rfl⟩⟩⟩⟩⟩⟩⟩, ?_, hle⟩
  rw [← hread, hout]

end SimpleValidator

end ValidatingSigner
