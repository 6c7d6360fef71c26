import Vls.Channel.Basic
import Vls.Policy.Decoder
import Vls.Policy.Wallet

/-!
# Sweeps

Signing the transactions that take the outputs of a closed channel home: the holder's delayed
output, the HTLCs of a commitment the counterparty broadcast, and the outputs of a revoked one.  The
index of the signed input is given with the request; the checks read the sequence of the first.
-/

namespace ValidatingSigner

open Base Effect

/-- How far the signer may lag behind the chain. -/
def MAX_CHAIN_LAG : Nat := 2

/-- The sequences of a sweep of a channel with anchors. -/
def ANCHOR_SEQS : List Nat := [1]

/-- The sequences of a sweep of a channel without anchors. -/
def NON_ANCHOR_SEQS : List Nat := [0, 0xfffffffd, 0xffffffff]

/-- A channel with what signing a sweep needs besides: the validator, the wallet of the node, the
script library, the text of a script, and signing with the keys derived from the base keys. -/
structure Sweeper where
  channel : Channel
  validator : SimpleValidator
  wallet : Wallet
  scripts : ScriptLibrary
  scriptText : Script → String
  signDelayed : PublicKey → Bytes32 → Signature
  signHtlc : PublicKey → Bytes32 → Signature
  signRevocation : Bytes32 → Bytes32 → Signature

namespace Sweeper

variable (sw : Sweeper)

/-! ## The checks -/

/-- Whether a script is the wallet's or on the allowlist. -/
def isKnown (walletPath : List Nat) (script : Script) : Result Bool := do
  let ours ← orWalletError "wallet can_spend error: " (sw.wallet.canSpend walletPath script)
  if ours then .ok true else Asserted.lift (sw.wallet.allowlistContains script walletPath)

/-- Check that outputs go to the wallet or the allowlist. -/
def validateDestinations (walletPath : List Nat) : List TxOut → Result Unit
  | [] => .ok ()
  | out :: outs => do
    let known ← sw.isKnown walletPath out.scriptPubkey
    sw.validator.policy.filter.policyErr (known = false) "policy-sweep-destination-allowlisted"
      "validate_sweep" "destination is not in wallet or allowlist"
    validateDestinations walletPath outs

/-- The checks all sweeps have in common. -/
def validateSweep (tx : Transaction) (walletPath : List Nat) : Result Unit := do
  refuseIf (tx.version ≠ 2)
    (transactionFormatError s!"validate_sweep: bad version: {tx.version}")
  sw.validateDestinations walletPath tx.output

/-- Check that the locktime is not past the chain. -/
def checkLocktime (function : String) (chain : ChainState) (tx : Transaction) : Result Unit := do
  let latest ← sw.validator.overflow.u32 (chain.currentHeight + MAX_CHAIN_LAG)
  refuseIf (latest < tx.lockTime)
    (transactionFormatError s!"{function}: bad locktime: {tx.lockTime} > {latest}")

/-- Check the sequence of the first input. -/
def checkSequence (function : String) (tx : Transaction) (validSeqs : List Nat)
    (expected : String) : Result Unit := do
  let txin ← expect "index out of bounds" tx.input[0]?
  refuseIf (txin.sequence ∉ validSeqs)
    (transactionFormatError s!"{function}: bad sequence: {txin.sequence} {expected}")

/-- Check the sweep of the holder's delayed output. -/
def validateDelayedSweep (chain : ChainState) (tx : Transaction) (walletPath : List Nat) :
    Result Unit := do
  withFunction "validate_delayed_sweep" (sw.validateSweep tx walletPath)
  sw.checkLocktime "validate_delayed_sweep" chain tx
  let delay := sw.channel.setup.counterpartySelectedContestDelay
  checkSequence "validate_delayed_sweep" tx [delay] s!"!= {delay}"

/-- Check the locktime of the sweep of an HTLC: one the counterparty has received must not be swept
later than it expires. -/
def checkHtlcLocktime (function : String) (chain : ChainState) (tx : Transaction)
    (redeemscript : Script) : Result Unit :=
  let isAnchors := sw.channel.setup.isAnchors
  match sw.scripts.parse (parseReceivedHtlcScript sw.scripts isAnchors) redeemscript with
  | some (_, _, _, _, cltvExpiry) => do
    refuseIf (cltvExpiry < 0 ∨ 2 ^ 32 ≤ cltvExpiry)
      (transactionFormatError s!"{function}: bad cltv_expiry: {cltvExpiry}")
    refuseIf (cltvExpiry.toNat < tx.lockTime)
      (transactionFormatError s!"{function}: bad locktime: {tx.lockTime} > {cltvExpiry}")
  | none =>
    match sw.scripts.parse (parseOfferedHtlcScript sw.scripts isAnchors) redeemscript with
    | some _ => sw.checkLocktime function chain tx
    | none => .error (.refuse (transactionFormatError
        s!"{function}: bad redeemscript: {sw.scriptText redeemscript}"))

/-- Check the sweep of an HTLC of the counterparty's commitment. -/
def validateCounterpartyHtlcSweep (chain : ChainState) (tx : Transaction) (redeemscript : Script)
    (walletPath : List Nat) : Result Unit := do
  let function := "validate_counterparty_htlc_sweep"
  withFunction function (sw.validateSweep tx walletPath)
  sw.checkHtlcLocktime function chain tx redeemscript
  let validSeqs := if sw.channel.setup.isAnchors then ANCHOR_SEQS else NON_ANCHOR_SEQS
  checkSequence function tx validSeqs s!"not in {validSeqs}"

/-- Check the sweep of an output of a revoked commitment. -/
def validateJusticeSweep (chain : ChainState) (tx : Transaction) (walletPath : List Nat) :
    Result Unit := do
  withFunction "validate_justice_sweep" (sw.validateSweep tx walletPath)
  sw.checkLocktime "validate_justice_sweep" chain tx
  checkSequence "validate_justice_sweep" tx NON_ANCHOR_SEQS s!"not in {NON_ANCHOR_SEQS}"

/-! ## Signing -/

/-- Sign input `input` of a sweep that passes `validate`, which yields what to sign with. -/
def signSweep (function : String) (call : Call) (tx : Transaction) (input : Nat)
    (redeemscript : Script) (amountSat : Nat)
    (validate : EnforcementState → Result (Bytes32 → Signature)) : Op Signature := do
  let s ← get
  lift (refuseIf (tx.input.length ≤ input)
    (invalidArgument s!"{function}: bad input index: {input} >= {tx.input.length}"))
  let sign ← lift (validate s.estate)
  persist call
  return sign (sw.channel.library.segwitSignatureHash tx input redeemscript amountSat .all)

/-- Sign the sweep of the holder's delayed output. -/
def signDelayedSweep (call : Call) (tx : Transaction) (input commitmentNumber : Nat)
    (redeemscript : Script) (amountSat : Nat) (walletPath : List Nat) : Op Signature :=
  sw.signSweep "sign_delayed_sweep" call tx input redeemscript amountSat fun e => do
    let point ← sw.channel.getPerCommitmentPoint e commitmentNumber
    sw.validateDelayedSweep call.chain tx walletPath
    return sw.signDelayed point

/-- Sign the sweep of an HTLC of the counterparty's commitment. -/
def signCounterpartyHtlcSweep (call : Call) (tx : Transaction) (input : Nat)
    (remotePoint : PublicKey) (redeemscript : Script) (amountSat : Nat) (walletPath : List Nat) :
    Op Signature :=
  sw.signSweep "sign_counterparty_htlc_sweep" call tx input redeemscript amountSat fun _ => do
    sw.validateCounterpartyHtlcSweep call.chain tx redeemscript walletPath
    return sw.signHtlc remotePoint

/-- Sign the sweep of an output of a revoked commitment. -/
def signJusticeSweep (call : Call) (tx : Transaction) (input : Nat) (revocationSecret : Bytes32)
    (redeemscript : Script) (amountSat : Nat) (walletPath : List Nat) : Op Signature :=
  sw.signSweep "sign_justice_sweep" call tx input redeemscript amountSat fun _ => do
    sw.validateJusticeSweep call.chain tx walletPath
    return sw.signRevocation revocationSecret

end Sweeper

end ValidatingSigner
