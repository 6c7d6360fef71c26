import Vls.Channel.Basic

/-!
# Commitments

Signing the counterparty's commitments and taking its secrets, accepting the counterparty's
signatures on holder commitments, which releases the secret of the commitment before, and signing
the holder's own commitment or a closing transaction, which closes the channel.
-/

namespace ValidatingSigner

open Base Effect

namespace Channel

variable (ch : Channel)

/-! ## Counterparty commitments -/

/-- The description of a counterparty commitment that passes every check on it, with the balance and
the incoming payments it brings. -/
def validatedCounterpartyInfo (call : Call) (e : EnforcementState) (node : NodeState)
    (point : PublicKey) (commitmentNumber feeratePerKw toHolderValueSat toCounterpartyValueSat :
    Nat) (offeredHtlcs receivedHtlcs : List HTLCInfo2) :
    Result (CommitmentInfo2 × BalanceDelta × EnforcementState.Summary) := do
  let info ← ch.buildCounterpartyCommitmentInfo point toHolderValueSat toCounterpartyValueSat
    offeredHtlcs receivedHtlcs feeratePerKw
  let delta ← e.claimableBalances ch.overflow node.hasPreimage none (some info) ch.setup
  let incoming ← e.incomingPaymentsSummary ch.overflow none (some info)
  ch.validator.validateCounterpartyCommitmentTx e commitmentNumber point ch.setup call.chain info
  return (info, delta, incoming)

/-- The signatures on a counterparty commitment, once its payments pass too. -/
def signedCounterpartyUpdate (e : EnforcementState) (node : NodeState) (failure : String)
    (tx : CommitmentTransaction) (info : CommitmentInfo2) (delta : BalanceDelta)
    (incoming : EnforcementState.Summary) : Result (SignedCommitment × CommitmentUpdate) := do
  let (sig, htlcSigs) ← orFailed failure (ch.keys.signCounterpartyCommitment tx)
  let outgoing ← e.paymentsSummary ch.overflow none (some info)
  node.validatePayments ch.overflow ch.validator ch.id0 incoming outgoing delta
  return (⟨tx, sig, htlcSigs⟩, ⟨info, delta, incoming, outgoing⟩)

/-- The checks and the signature of `signCounterpartyCommitmentTxPhase2`. -/
def prepareCounterpartyPhase2 (call : Call) (e : EnforcementState) (node : NodeState)
    (point : PublicKey) (commitmentNumber feeratePerKw toHolderValueSat toCounterpartyValueSat :
    Nat) (offeredHtlcs receivedHtlcs : List HTLCInfo2) :
    Result (SignedCommitment × CommitmentUpdate) := do
  ch.validator.validateChannelValue ch.setup
  let (info, delta, incoming) ← ch.validatedCounterpartyInfo call e node point commitmentNumber
    feeratePerKw toHolderValueSat toCounterpartyValueSat offeredHtlcs receivedHtlcs
  let htlcs ← htlcsInfo2ToOic ch.overflow offeredHtlcs receivedHtlcs
  let tx ← ch.makeCounterpartyCommitmentTx point commitmentNumber feeratePerKw toHolderValueSat
    toCounterpartyValueSat htlcs
  ch.signedCounterpartyUpdate e node "failed to sign" tx info delta incoming

/-- The checks and the signature of `signCounterpartyCommitmentTx`. -/
def prepareCounterparty (call : Call) (e : EnforcementState) (node : NodeState) (tx : Transaction)
    (outputWitscripts : List Script) (point : PublicKey) (commitmentNumber feeratePerKw : Nat)
    (offeredHtlcs receivedHtlcs : List HTLCInfo2) :
    Result (SignedCommitment × CommitmentUpdate) := do
  refuseIf (tx.output.length ≠ outputWitscripts.length)
    (invalidArgument "len(tx.output) != len(witscripts)")
  ch.validator.validateChannelValue ch.setup
  let decoded ← ch.validator.decodeCommitmentTx ch.keys ch.setup true tx outputWitscripts
  let (info, delta, incoming) ← ch.validatedCounterpartyInfo call e node point commitmentNumber
    feeratePerKw decoded.toCountersignerValueSat decoded.toBroadcasterValueSat offeredHtlcs
    receivedHtlcs
  let htlcs ← htlcsInfo2ToOic ch.overflow info.offeredHtlcs info.receivedHtlcs
  let recomposed ← ch.makeCounterpartyCommitmentTx point commitmentNumber feeratePerKw
    decoded.toCountersignerValueSat decoded.toBroadcasterValueSat htlcs
  ch.validator.filter.policyErr (ch.library.builtTransaction recomposed ≠ tx) "policy-commitment"
    "sign_counterparty_commitment_tx" "recomposed tx mismatch"
  ch.signedCounterpartyUpdate e node "sign_counterparty_commitment failed" recomposed info delta
    incoming

/-- Advance to counterparty commitment number `num` and apply its payments. -/
def advanceCounterparty (num : Nat) (point : PublicKey) (update : CommitmentUpdate) : Op Unit := do
  let s ← get
  let e ← lift (ch.validator.setNextCounterpartyCommitNum s.estate num point update.info)
  setEstate e
  let node ← lift (s.node.applyPayments ch.overflow ch.validator ch.id0 update.incoming
    update.outgoing update.delta)
  setNode node

/-- Sign a counterparty commitment rebuilt from its values. -/
def signCounterpartyCommitmentTxPhase2 (call : Call) (point : PublicKey)
    (commitmentNumber feeratePerKw toHolderValueSat toCounterpartyValueSat : Nat)
    (offeredHtlcs receivedHtlcs : List HTLCInfo2) : Op SignedCommitment := do
  let s ← get
  let (signed, update) ← lift (ch.prepareCounterpartyPhase2 call s.estate s.node point
    commitmentNumber feeratePerKw toHolderValueSat toCounterpartyValueSat offeredHtlcs
    receivedHtlcs)
  let num ← lift (ch.overflow.u64 (commitmentNumber + 1))
  ch.advanceCounterparty num point update
  persist call
  return signed

/-- Sign a counterparty commitment given as a transaction. -/
def signCounterpartyCommitmentTx (call : Call) (tx : Transaction) (outputWitscripts : List Script)
    (point : PublicKey) (commitmentNumber feeratePerKw : Nat)
    (offeredHtlcs receivedHtlcs : List HTLCInfo2) : Op SignedCommitment := do
  let s ← get
  let (signed, update) ← lift (ch.prepareCounterparty call s.estate s.node tx outputWitscripts
    point commitmentNumber feeratePerKw offeredHtlcs receivedHtlcs)
  let commitNum ← lift (ch.overflow.sub INITIAL_COMMITMENT_NUMBER signed.tx.commitmentNumber)
  let num ← lift (ch.overflow.u64 (commitNum + 1))
  ch.advanceCounterparty num signed.tx.keys.perCommitmentPoint update
  persist call
  return { signed with htlcSignatures := [] }

/-- The state with the counterparty's secret of commitment `revokeNum` stored. -/
def storeSecret (e : EnforcementState) (revokeNum : Nat) (oldSecret : Bytes32) :
    Result EnforcementState :=
  match e.counterpartySecrets with
  | none => .ok e
  | some secrets => do
    let backwardsNum ← ch.overflow.sub INITIAL_COMMITMENT_NUMBER revokeNum
    match secrets.provideSecret ch.library.sha256 backwardsNum oldSecret with
    | .ok secrets => .ok { e with counterpartySecrets := some secrets }
    | .error () => do
      ch.validator.filter.policyErr True "policy-commitment-previous-revoked"
        "validate_counterparty_revocation" "counterparty secret does not chain"
      return e

/-- Accept the counterparty's revocation of a commitment. -/
def validateCounterpartyRevocation (call : Call) (revokeNum : Nat) (oldSecret : Bytes32) :
    Op Unit := do
  let s ← get
  lift (ch.validator.validateCounterpartyRevocation s.estate revokeNum oldSecret)
  let stored ← lift (ch.storeSecret s.estate revokeNum oldSecret)
  setEstate stored
  let num ← lift (ch.overflow.u64 (revokeNum + 1))
  let e ← lift (ch.validator.setNextCounterpartyRevokeNum stored num)
  setEstate e
  persist call

/-! ## Accepting a holder commitment -/

/-- Check the counterparty's signatures on the HTLC transactions of a commitment, from HTLC number
`ndx` on. -/
def checkHtlcSignatures (txid : Bytes32) (txkeys : TxCreationKeys) (feeratePerKw : Nat)
    (htlcPubkey : PublicKey) (sigs : List Signature) :
    Nat → List HTLCOutputInCommitment → Result Unit
  | _, [] => .ok ()
  | ndx, htlc :: htlcs => do
    let redeemscript := ch.library.getHtlcRedeemscript htlc ch.setup.isAnchors txkeys
    let tx := ch.library.buildHtlcTransaction txid
      (if ch.setup.isZeroFeeHtlc then 0 else feeratePerKw)
      ch.setup.counterpartySelectedContestDelay htlc ch.setup.isAnchors (!ch.setup.isZeroFeeHtlc)
      txkeys.broadcasterDelayedPaymentKey txkeys.revocationKey
    let sighash := ch.library.segwitSignatureHash tx 0 redeemscript (htlc.amountMsat / 1000)
      (if ch.setup.isAnchors then .singlePlusAnyoneCanPay else .all)
    let sig ← expect "index out of bounds" sigs[ndx]?
    match ch.library.verifyEcdsa sighash sig htlcPubkey with
    | .ok () => checkHtlcSignatures txid txkeys feeratePerKw htlcPubkey sigs (ndx + 1) htlcs
    | .error m =>
      .error (.refuse (policyError s!"commit sig verify failed for htlc {ndx}: {m}"))

/-- Check the counterparty's signature on a holder commitment. -/
def checkCommitSignature (tx : CommitmentTransaction) (sig : Signature) : Result Unit :=
  let redeemscript := ch.library.makeFundingRedeemscript ch.keys.pubkeys.fundingPubkey
    ch.setup.counterpartyPoints.fundingPubkey
  let sighash := ch.library.segwitSignatureHash (ch.library.builtTransaction tx) 0 redeemscript
    ch.setup.channelValueSat .all
  match ch.library.verifyEcdsa sighash sig ch.setup.counterpartyPoints.fundingPubkey with
  | .ok () => .ok ()
  | .error m => .error (.refuse (policyError s!"commit sig verify failed: {m}"))

/-- Check the counterparty's signatures on a holder commitment and its HTLCs. -/
def checkHolderTxSignatures (point : PublicKey) (txkeys : TxCreationKeys) (feeratePerKw : Nat)
    (signatures : CommitmentSignatures) (tx : CommitmentTransaction) : Result Unit := do
  ch.checkCommitSignature tx signatures.commitment
  let htlcPubkey ← orInternal "derive_public_key failed: "
    (ch.library.derivePublicKey point ch.keys.counterpartyPubkeys.htlcBasepoint)
  ch.checkHtlcSignatures (ch.library.txid (ch.library.builtTransaction tx)) txkeys feeratePerKw
    htlcPubkey signatures.htlcs 0 (ch.library.builtHtlcs tx)

/-- The update a holder commitment brings, once its payments pass. -/
def holderUpdate (e : EnforcementState) (node : NodeState) (info : CommitmentInfo2)
    (delta : BalanceDelta) (incoming : EnforcementState.Summary) : Result CommitmentUpdate := do
  let outgoing ← e.paymentsSummary ch.overflow (some info) none
  node.validatePayments ch.overflow ch.validator ch.id0 incoming outgoing delta
  return ⟨info, delta, incoming, outgoing⟩

/-- The checks of `validateHolderCommitmentTxPhase2`. -/
def prepareHolderPhase2 (call : Call) (e : EnforcementState) (node : NodeState)
    (commitmentNumber feeratePerKw toHolderValueSat toCounterpartyValueSat : Nat)
    (offeredHtlcs receivedHtlcs : List HTLCInfo2) (signatures : CommitmentSignatures) :
    Result CommitmentUpdate := do
  let point ← ch.getPerCommitmentPoint e commitmentNumber
  let info ← ch.buildHolderCommitmentInfo point toHolderValueSat toCounterpartyValueSat
    offeredHtlcs receivedHtlcs feeratePerKw
  let delta ← e.claimableBalances ch.overflow node.hasPreimage (some info) none ch.setup
  let incoming ← e.incomingPaymentsSummary ch.overflow (some info) none
  ch.validator.validateHolderCommitmentTx e commitmentNumber point ch.setup call.chain info
  let htlcs ← htlcsInfo2ToOic ch.overflow info.offeredHtlcs info.receivedHtlcs
  let txkeys := ch.makeHolderTxKeys point
  let recomposed ← ch.makeHolderCommitmentTx commitmentNumber txkeys feeratePerKw
    toHolderValueSat toCounterpartyValueSat htlcs
  ch.checkHolderTxSignatures point txkeys feeratePerKw signatures recomposed
  ch.holderUpdate e node info delta incoming

/-- The holder commitment rebuilt from a transaction that passes every check on it, with its
description and the incoming payments it brings. -/
def makeValidatedRecomposedHolderCommitmentTx (call : Call) (e : EnforcementState)
    (tx : Transaction) (outputWitscripts : List Script) (commitmentNumber : Nat)
    (point : PublicKey) (txkeys : TxCreationKeys) (feeratePerKw : Nat)
    (offeredHtlcs receivedHtlcs : List HTLCInfo2) :
    Result (CommitmentTransaction × CommitmentInfo2 × EnforcementState.Summary) := do
  refuseIf (tx.output.length ≠ outputWitscripts.length)
    (invalidArgument (s!"len(tx.output):{tx.output.length} != " ++
      s!"len(witscripts):{outputWitscripts.length}"))
  ch.validator.validateChannelValue ch.setup
  let decoded ← ch.validator.decodeCommitmentTx ch.keys ch.setup false tx outputWitscripts
  let info ← ch.buildHolderCommitmentInfo point decoded.toBroadcasterValueSat
    decoded.toCountersignerValueSat offeredHtlcs receivedHtlcs feeratePerKw
  let incoming ← e.incomingPaymentsSummary ch.overflow (some info) none
  ch.validator.validateHolderCommitmentTx e commitmentNumber point ch.setup call.chain info
  let htlcs ← htlcsInfo2ToOic ch.overflow info.offeredHtlcs info.receivedHtlcs
  let recomposed ← ch.makeHolderCommitmentTx commitmentNumber txkeys feeratePerKw
    decoded.toBroadcasterValueSat decoded.toCountersignerValueSat htlcs
  ch.validator.filter.policyErr (ch.library.builtTransaction recomposed ≠ tx) "policy-commitment"
    "make_validated_recomposed_holder_commitment_tx" "recomposed tx mismatch"
  return (recomposed, info, incoming)

/-- The checks of `validateHolderCommitmentTx`. -/
def prepareHolder (call : Call) (e : EnforcementState) (node : NodeState) (tx : Transaction)
    (outputWitscripts : List Script) (commitmentNumber feeratePerKw : Nat)
    (offeredHtlcs receivedHtlcs : List HTLCInfo2) (signatures : CommitmentSignatures) :
    Result CommitmentUpdate := do
  let point ← ch.getPerCommitmentPoint e commitmentNumber
  let txkeys := ch.makeHolderTxKeys point
  let (recomposed, info, incoming) ← ch.makeValidatedRecomposedHolderCommitmentTx call e tx
    outputWitscripts commitmentNumber point txkeys feeratePerKw offeredHtlcs receivedHtlcs
  let delta ← e.claimableBalances ch.overflow node.hasPreimage (some info) none ch.setup
  ch.checkHolderTxSignatures point txkeys feeratePerKw signatures recomposed
  ch.holderUpdate e node info delta incoming

/-- The secret of the commitment before `commitmentNumber`, when there is one. -/
def oldSecret (e : EnforcementState) (commitmentNumber : Nat) : Result (Option ReleasedSecret) :=
  if 1 ≤ commitmentNumber then do
    let secret ← unwrap "called unwrap on an Err value"
      (ch.getPerCommitmentSecret e (commitmentNumber - 1))
    return some secret
  else .ok none

/-- Advance past holder commitment `commitmentNumber`, releasing the secret of the one before. -/
def advanceHolderCommitmentState (commitmentNumber : Nat) (info : CommitmentInfo2)
    (signatures : CommitmentSignatures) : Op (PublicKey × Option ReleasedSecret) := do
  let s ← get
  let num ← lift (ch.overflow.u64 (commitmentNumber + 1))
  let e ← lift (ch.validator.setNextHolderCommitNum s.estate num info signatures)
  setEstate e
  let point ← lift (unwrap "called unwrap on an Err value" (ch.getPerCommitmentPoint e num))
  let secret ← lift (ch.oldSecret e commitmentNumber)
  return (point, secret)

/-- Advance past a checked holder commitment, apply its payments and store the state. -/
def acceptHolder (call : Call) (commitmentNumber : Nat) (signatures : CommitmentSignatures)
    (update : CommitmentUpdate) : Op (PublicKey × Option ReleasedSecret) := do
  let s ← get
  let reply ← ch.advanceHolderCommitmentState commitmentNumber update.info signatures
  let node ← lift (s.node.applyPayments ch.overflow ch.validator ch.id0 update.incoming
    update.outgoing update.delta)
  setNode node
  persist call
  return reply

/-- Accept a holder commitment rebuilt from its values. -/
def validateHolderCommitmentTxPhase2 (call : Call) (commitmentNumber feeratePerKw
    toHolderValueSat toCounterpartyValueSat : Nat) (offeredHtlcs receivedHtlcs : List HTLCInfo2)
    (signatures : CommitmentSignatures) : Op (PublicKey × Option ReleasedSecret) := do
  let s ← get
  let update ← lift (ch.prepareHolderPhase2 call s.estate s.node commitmentNumber feeratePerKw
    toHolderValueSat toCounterpartyValueSat offeredHtlcs receivedHtlcs signatures)
  ch.acceptHolder call commitmentNumber signatures update

/-- Accept a holder commitment given as a transaction. -/
def validateHolderCommitmentTx (call : Call) (tx : Transaction) (outputWitscripts : List Script)
    (commitmentNumber feeratePerKw : Nat) (offeredHtlcs receivedHtlcs : List HTLCInfo2)
    (signatures : CommitmentSignatures) : Op (PublicKey × Option ReleasedSecret) := do
  let s ← get
  let update ← lift (ch.prepareHolder call s.estate s.node tx outputWitscripts commitmentNumber
    feeratePerKw offeredHtlcs receivedHtlcs signatures)
  ch.acceptHolder call commitmentNumber signatures update

/-! ## Closing -/

/-- Record that a signature that closes the channel goes out. -/
def closeWith {α : Type} (call : Call) (reply : α) : Op α := do
  modify fun s => { s with estate := { s.estate with channelClosed := true } }
  persist call
  return reply

/-- Sign the holder commitment with a given description. -/
def signHolderInfo (e : EnforcementState) (commitmentNumber : Nat) (info : CommitmentInfo2) :
    Result SignedCommitment := do
  let htlcs ← htlcsInfo2ToOic ch.overflow info.offeredHtlcs info.receivedHtlcs
  let point ← ch.getPerCommitmentPoint e commitmentNumber
  let recomposed ← ch.makeHolderCommitmentTx commitmentNumber (ch.makeHolderTxKeys point)
    (if ch.setup.isZeroFeeHtlc then 0 else info.feeratePerKw) info.toBroadcasterValueSat
    info.toCountersignerValueSat htlcs
  let (sig, htlcSigs) ← orFailed "failed to sign"
    (ch.keys.signHolderCommitmentAndHtlcs recomposed)
  return ⟨recomposed, sig, htlcSigs⟩

/-- Sign the current holder commitment. -/
def signHolderCommitmentTxPhase2 (call : Call) (commitmentNumber : Nat) :
    Op SignedCommitment := do
  let s ← get
  let info ← lift (ch.validator.getCurrentHolderCommitmentInfo s.estate commitmentNumber)
  let signed ← lift (ch.signHolderInfo s.estate commitmentNumber info)
  closeWith call signed

/-- Sign the current holder commitment when recovering from the loss of the node. -/
def signHolderCommitmentTxForRecovery (call : Call) : Op SignedCommitment := do
  let s ← get
  let info ← lift (expect "holder commitment info should be present"
    s.estate.currentHolderCommitInfo)
  let _ ← lift (expect "counterparty signatures should be present"
    s.estate.currentCounterpartySignatures)
  let commitmentNumber ← lift (ch.overflow.sub s.estate.nextHolderCommitNum 1)
  let signed ← lift (ch.signHolderInfo s.estate commitmentNumber info)
  closeWith call signed

/-- Check and sign a holder commitment given by its values. -/
def signHolderRedundant (call : Call) (e : EnforcementState) (commitmentNumber feeratePerKw
    toHolderValueSat toCounterpartyValueSat : Nat) (offeredHtlcs receivedHtlcs : List HTLCInfo2) :
    Result SignedCommitment := do
  let point ← ch.getPerCommitmentPoint e commitmentNumber
  let info ← ch.buildHolderCommitmentInfo point toHolderValueSat toCounterpartyValueSat
    offeredHtlcs receivedHtlcs feeratePerKw
  ch.validator.validateHolderCommitmentTx e commitmentNumber point ch.setup call.chain info
  let htlcs ← htlcsInfo2ToOic ch.overflow offeredHtlcs receivedHtlcs
  let tx ← ch.makeHolderCommitmentTx commitmentNumber (ch.makeHolderTxKeys point)
    (if ch.setup.isZeroFeeHtlc then 0 else feeratePerKw) toHolderValueSat toCounterpartyValueSat
    htlcs
  let (sig, htlcSigs) ← orFailed "failed to sign" (ch.keys.signHolderCommitmentAndHtlcs tx)
  return ⟨tx, sig, htlcSigs⟩

/-- Sign a holder commitment given by its values. -/
def signHolderCommitmentTxPhase2Redundant (call : Call) (commitmentNumber feeratePerKw
    toHolderValueSat toCounterpartyValueSat : Nat) (offeredHtlcs receivedHtlcs : List HTLCInfo2) :
    Op SignedCommitment := do
  let s ← get
  let signed ← lift (ch.signHolderRedundant call s.estate commitmentNumber feeratePerKw
    toHolderValueSat toCounterpartyValueSat offeredHtlcs receivedHtlcs)
  closeWith call signed

/-- Sign a closing transaction rebuilt from its values. -/
def signMutualCloseTxPhase2 (call : Call) (toHolderValueSat toCounterpartyValueSat : Nat)
    (holderScript counterpartyScript : Option Script) (holderWalletPathHint : List Nat) :
    Op SignedClose := do
  let s ← get
  lift (ch.validator.validateMutualCloseTx ch.setup s.estate toHolderValueSat
    toCounterpartyValueSat holderScript counterpartyScript holderWalletPathHint)
  let tx : ClosingTransaction := ⟨toHolderValueSat, toCounterpartyValueSat,
    holderScript.getD [], counterpartyScript.getD [], ch.setup.fundingOutpoint⟩
  let sig ← lift (orFailed "failed to sign" (ch.keys.signClosingTransaction tx))
  closeWith call ⟨tx, sig⟩

/-- Sign a closing transaction given as a transaction. -/
def signMutualCloseTx (call : Call) (tx : Transaction) (opaths : List (List Nat)) :
    Op SignedClose := do
  let s ← get
  lift (refuseIf (opaths.length ≠ tx.output.length)
    (invalidArgument (s!"sign_mutual_close_tx: bad opath len {opaths.length} " ++
      s!"with tx.output len {tx.output.length}")))
  let recomposed ← lift (ch.validator.decodeAndValidateMutualCloseTx ch.setup s.estate tx opaths)
  let sig ← lift (orFailed "failed to sign" (ch.keys.signClosingTransaction recomposed))
  closeWith call ⟨recomposed, sig⟩

end Channel

end ValidatingSigner
