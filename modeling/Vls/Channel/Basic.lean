import Vls.Base.Effect
import Vls.Node.State

/-!
# Channels

The fixed parts of a ready channel, the state its operations work on, and the commitment
transactions and descriptions it builds.
-/

namespace ValidatingSigner

open Base Effect

/-- The number commitment numbers are counted down from. -/
def INITIAL_COMMITMENT_NUMBER : Nat := 2 ^ 48 - 1

/-- A signed commitment transaction. -/
structure SignedCommitment where
  tx : CommitmentTransaction
  signature : Signature
  htlcSignatures : List Signature
  deriving DecidableEq

/-- A per-commitment secret the signer hands out, with the index it belongs to. -/
structure ReleasedSecret where
  index : Nat
  secret : Bytes32
  deriving DecidableEq

/-- A signed closing transaction. -/
structure SignedClose where
  tx : ClosingTransaction
  signature : Signature
  deriving DecidableEq

/-- The parts of a ready channel that do not change. -/
structure Channel where
  library : Library
  validator : Validator
  keys : InMemorySigner
  setup : ChannelSetup
  id0 : ChannelId

/-- What a request finds outside the signer: the chain, and whether storing succeeds. -/
structure Call where
  chain : ChainState
  persistOk : Bool
  deriving DecidableEq

/-- The state an operation of a channel works on. -/
structure Session where
  estate : EnforcementState
  node : NodeState
  stored : EnforcementState

/-- An operation of a channel. -/
abbrev Op := Effect Session Refusal

/-- The payments and the balance a new commitment brings. -/
structure CommitmentUpdate where
  info : CommitmentInfo2
  delta : BalanceDelta
  incoming : EnforcementState.Summary
  outgoing : EnforcementState.Summary

/-- Replace the enforcement state. -/
def setEstate (e : EnforcementState) : Op PUnit := modify fun s => { s with estate := e }

/-- Replace the node state. -/
def setNode (n : NodeState) : Op PUnit := modify fun s => { s with node := n }

/-- Store the enforcement state. -/
def persist (call : Call) : Op Unit := do
  lift (refuseIf (call.persistOk = false) (internalError "persist failed"))
  modify fun s => { s with stored := s.estate }

/-- The error of a fallible library call. -/
def orInternal {α : Type} (text : String) : Except String α → Result α
  | .ok a => .ok a
  | .error e => .error (.refuse (internalError (text ++ e)))

/-- The result of a signing call. -/
def orFailed {α : Type} (message : String) : Option α → Result α
  | some a => .ok a
  | none => .error (.refuse (internalError message))

/-- HTLCs as the commitment builder takes them. -/
def htlcsInfo2ToOic (o : Overflow) (offeredHtlcs receivedHtlcs : List HTLCInfo2) :
    Result (List HTLCOutputInCommitment) := do
  let convert (offered : Bool) (h : HTLCInfo2) : Result HTLCOutputInCommitment := do
    let amountMsat ← o.u64 (h.valueSat * 1000)
    return ⟨offered, amountMsat, h.cltvExpiry, h.paymentHash, none⟩
  let offered ← offeredHtlcs.mapM (convert true)
  let received ← receivedHtlcs.mapM (convert false)
  return offered ++ received

/-- An HTLC as the commitment builder takes it, its amount reduced to a machine word. -/
def HTLCInfo2.toOic (offered : Bool) (h : HTLCInfo2) : HTLCOutputInCommitment :=
  ⟨offered, h.valueSat * 1000 % 2 ^ 64, h.cltvExpiry, h.paymentHash, none⟩

theorem htlcsInfo2ToOic_ok {o : Overflow} {offeredHtlcs receivedHtlcs : List HTLCInfo2}
    {htlcs : List HTLCOutputInCommitment}
    (h : htlcsInfo2ToOic o offeredHtlcs receivedHtlcs = .ok htlcs) :
    htlcs = offeredHtlcs.map (HTLCInfo2.toOic true) ++
      receivedHtlcs.map (HTLCInfo2.toOic false) := by
  obtain ⟨offered, hoffered, h⟩ := bind_ok h
  obtain ⟨received, hreceived, h⟩ := bind_ok h
  rw [← pure_eq_ok.mp h]
  congr 1
  all_goals
    refine mapM_eq_map (fun htlc out hout => ?_) (by assumption)
    obtain ⟨amount, hamount, hout⟩ := bind_ok hout
    rw [← pure_eq_ok.mp hout, Overflow.eq_mod_of_uint hamount]
    rfl

namespace Channel

variable (ch : Channel)

/-- How the channel's build treats overflow. -/
def overflow : Overflow := ch.validator.overflow

/-- Make the channel ready: its checks and its first state. -/
def readyChannel (holderShutdownKeyPath : List Nat) : Result EnforcementState := do
  let toHolderMsat ← ch.setup.toHolderMsat ch.overflow
  ch.validator.validateReadyChannel ch.setup holderShutdownKeyPath
  return .new (ch.validator.minimumInitialBalance toHolderMsat)

/-! ## Points and secrets -/

/-- The holder's per-commitment point of a commitment number. -/
def getPerCommitmentPoint (e : EnforcementState) (commitmentNumber : Nat) : Result PublicKey := do
  let next := e.nextHolderCommitNum
  let limit ← ch.overflow.u64 (next + 1)
  refuseIf (commitmentNumber > limit) (policyError
    (s!"get_per_commitment_point: commitment_number {commitmentNumber} " ++
      s!"invalid when next_holder_commit_num is {next}"))
  let index ← ch.overflow.sub INITIAL_COMMITMENT_NUMBER commitmentNumber
  return ch.keys.getPerCommitmentPoint index

/-- The holder's per-commitment secret of a commitment number, once it has been replaced. -/
def getPerCommitmentSecret (e : EnforcementState) (commitmentNumber : Nat) :
    Result ReleasedSecret := do
  let next := e.nextHolderCommitNum
  let needed ← ch.overflow.u64 (commitmentNumber + 2)
  ch.validator.filter.policyErr (needed > next) "policy-revoke-new-commitment-signed"
    "get_per_commitment_secret"
    (s!"cannot revoke commitment_number {commitmentNumber} " ++
      s!"when next_holder_commit_num is {next}")
  let index ← ch.overflow.sub INITIAL_COMMITMENT_NUMBER commitmentNumber
  let secret := ch.keys.releaseCommitmentSecret index
  assert (ch.library.isSecretKey secret) "called unwrap on an Err value"
  return ⟨index, secret⟩

/-! ## Building commitments -/

/-- The keys of a commitment broadcast by the side with points `a`. -/
def makeTxKeys (point : PublicKey) (a b : ChannelPublicKeys) : TxCreationKeys :=
  { ch.library.txCreationKeys point a.delayedPaymentBasepoint a.htlcBasepoint
      b.revocationBasepoint b.htlcBasepoint with perCommitmentPoint := point }

/-- The keys of a counterparty commitment. -/
def makeCounterpartyTxKeys (point : PublicKey) : TxCreationKeys :=
  ch.makeTxKeys point ch.keys.counterpartyPubkeys ch.keys.pubkeys

/-- The keys of a holder commitment. -/
def makeHolderTxKeys (point : PublicKey) : TxCreationKeys :=
  ch.makeTxKeys point ch.keys.pubkeys ch.keys.counterpartyPubkeys

/-- The channel parameters given to the commitment builder. -/
def makeChannelParameters : ChannelTransactionParameters where
  holderPubkeys := ch.keys.pubkeys
  holderSelectedContestDelay := ch.setup.holderSelectedContestDelay
  isOutboundFromHolder := ch.setup.isOutbound
  counterpartyPubkeys := ch.setup.counterpartyPoints
  counterpartySelectedContestDelay := ch.setup.counterpartySelectedContestDelay
  fundingOutpoint := ⟨ch.setup.fundingOutpoint.txid, ch.setup.fundingOutpoint.vout % 2 ^ 16⟩
  optAnchors := ch.setup.isAnchors
  optNonZeroFeeAnchors := ch.setup.isZeroFeeHtlc

/-- The counterparty's commitment transaction. -/
def makeCounterpartyCommitmentTx (point : PublicKey) (commitmentNumber feeratePerKw
    toHolderValueSat toCounterpartyValueSat : Nat) (htlcs : List HTLCOutputInCommitment) :
    Result CommitmentTransaction := do
  let index ← ch.overflow.sub INITIAL_COMMITMENT_NUMBER commitmentNumber
  return {
    isHolder := false
    commitmentNumber := index
    toBroadcasterValueSat := toCounterpartyValueSat
    toCountersignatoryValueSat := toHolderValueSat
    isAnchors := ch.setup.isAnchors
    broadcasterFundingKey := ch.keys.counterpartyPubkeys.fundingPubkey
    countersignatoryFundingKey := ch.keys.pubkeys.fundingPubkey
    keys := ch.makeCounterpartyTxKeys point
    feeratePerKw := feeratePerKw
    htlcs := htlcs
    parameters := ch.makeChannelParameters
    nonZeroFeeAnchors := false }

/-- The holder's commitment transaction. -/
def makeHolderCommitmentTx (commitmentNumber : Nat) (keys : TxCreationKeys) (feeratePerKw
    toHolderValueSat toCounterpartyValueSat : Nat) (htlcs : List HTLCOutputInCommitment) :
    Result CommitmentTransaction := do
  let index ← ch.overflow.sub INITIAL_COMMITMENT_NUMBER commitmentNumber
  return {
    isHolder := true
    commitmentNumber := index
    toBroadcasterValueSat := toHolderValueSat
    toCountersignatoryValueSat := toCounterpartyValueSat
    isAnchors := ch.setup.isAnchors
    broadcasterFundingKey := ch.keys.pubkeys.fundingPubkey
    countersignatoryFundingKey := ch.keys.counterpartyPubkeys.fundingPubkey
    keys := keys
    feeratePerKw := feeratePerKw
    htlcs := htlcs
    parameters := ch.makeChannelParameters
    nonZeroFeeAnchors := ch.setup.isAnchors }

/-- The key the countersigner's output of a commitment pays. -/
def derivePaymentPubkey (text : String) (point base : PublicKey) : Result PublicKey :=
  if ch.setup.isStaticRemotekey then .ok base
  else orInternal text (ch.library.derivePublicKey point base)

/-- The description of a counterparty commitment. -/
def buildCounterpartyCommitmentInfo (point : PublicKey) (toHolderValueSat toCounterpartyValueSat :
    Nat) (offeredHtlcs receivedHtlcs : List HTLCInfo2) (feeratePerKw : Nat) :
    Result CommitmentInfo2 := do
  let delayed ← orInternal "could not derive to_holder_delayed_key: "
    (ch.library.derivePublicKey point ch.setup.counterpartyPoints.delayedPaymentBasepoint)
  let payment ← ch.derivePaymentPubkey "could not derive counterparty_key: " point
    ch.keys.pubkeys.paymentPoint
  let revocation :=
    ch.library.derivePublicRevocationKey point ch.keys.pubkeys.revocationBasepoint
  return .new true payment toHolderValueSat revocation delayed toCounterpartyValueSat
    ch.setup.holderSelectedContestDelay offeredHtlcs receivedHtlcs feeratePerKw

/-- The description of a holder commitment. -/
def buildHolderCommitmentInfo (point : PublicKey) (toHolderValueSat toCounterpartyValueSat : Nat)
    (offeredHtlcs receivedHtlcs : List HTLCInfo2) (feeratePerKw : Nat) :
    Result CommitmentInfo2 := do
  let delayed ← orInternal "could not derive to_holder_delayed_pubkey: "
    (ch.library.derivePublicKey point ch.keys.pubkeys.delayedPaymentBasepoint)
  let payment ← ch.derivePaymentPubkey "could not derive counterparty_pubkey: " point
    ch.keys.counterpartyPubkeys.paymentPoint
  let revocation :=
    ch.library.derivePublicRevocationKey point ch.keys.counterpartyPubkeys.revocationBasepoint
  return .new false payment toCounterpartyValueSat revocation delayed toHolderValueSat
    ch.setup.counterpartySelectedContestDelay offeredHtlcs receivedHtlcs feeratePerKw

end Channel

end ValidatingSigner
