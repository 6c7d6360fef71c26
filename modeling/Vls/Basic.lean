import Mathlib.Data.BitVec
import Mathlib.Data.Finmap
import Vls.Base.Fault

/-!
# Values the signer exchanges

Keys, scripts, transactions and channel parameters as the signer reads them, and the functions of
the Lightning, Bitcoin and secp256k1 libraries it calls.  Amounts are unsigned 64-bit numbers kept
as natural numbers; a 32-byte value is read as a big-endian number, so that its byte order is the
numeric one.
-/

namespace ValidatingSigner

open Base

/-- A 32-byte value. -/
abbrev Bytes32 := BitVec 256

/-- The hash that identifies a payment. -/
abbrev PaymentHash := Bytes32

/-- The value whose hash is a payment hash. -/
abbrev PaymentPreimage := Bytes32

/-- A script or a witness element. -/
abbrev Script := List UInt8

/-- A serialized public key. -/
structure PublicKey where
  bytes : Nat
  deriving DecidableEq

/-- The hexadecimal text of a public key. -/
def PublicKey.hex (key : PublicKey) : String :=
  String.ofList ((List.range 66).reverse.map fun i => Nat.digitChar (key.bytes / 16 ^ i % 16))

instance : ToString PublicKey := ⟨PublicKey.hex⟩

/-- A serialized signature. -/
structure Signature where
  bytes : Nat
  deriving DecidableEq

/-- The identifier of a channel slot. -/
structure ChannelId where
  bytes : List UInt8
  deriving DecidableEq

/-- The hexadecimal text of a list of bytes. -/
def bytesToHex (bytes : List UInt8) : String :=
  String.ofList (bytes.flatMap fun b =>
    [Nat.digitChar (b.toNat / 16), Nat.digitChar (b.toNat % 16)])

instance : ToString ChannelId := ⟨fun id => bytesToHex id.bytes⟩

/-- The hexadecimal text of a 32-byte value. -/
def Bytes32.toHex (bytes : Bytes32) : String :=
  String.ofList ((List.range 64).reverse.map fun i => Nat.digitChar (bytes.toNat / 16 ^ i % 16))

/-- A transaction output that a transaction spends. -/
structure OutPoint where
  txid : Bytes32
  vout : Nat
  deriving DecidableEq

/-- A transaction input. -/
structure TxIn where
  previousOutput : OutPoint
  scriptSig : Script
  sequence : Nat
  witness : List Script
  deriving DecidableEq

/-- A transaction output. -/
structure TxOut where
  value : Nat
  scriptPubkey : Script
  deriving DecidableEq

/-- A Bitcoin transaction. -/
structure Transaction where
  version : Int
  lockTime : Nat
  input : List TxIn
  output : List TxOut
  deriving DecidableEq

/-- The base points of one side of a channel. -/
structure ChannelPublicKeys where
  fundingPubkey : PublicKey
  revocationBasepoint : PublicKey
  paymentPoint : PublicKey
  delayedPaymentBasepoint : PublicKey
  htlcBasepoint : PublicKey
  deriving DecidableEq

/-- The negotiated commitment format. -/
inductive CommitmentType where
  | legacy
  | staticRemoteKey
  | anchors
  | anchorsZeroFeeHtlc
  deriving DecidableEq

/-- The negotiated parameters of a channel. -/
structure ChannelSetup where
  isOutbound : Bool
  channelValueSat : Nat
  pushValueMsat : Nat
  fundingOutpoint : OutPoint
  holderSelectedContestDelay : Nat
  holderShutdownScript : Option Script
  counterpartyPoints : ChannelPublicKeys
  counterpartySelectedContestDelay : Nat
  counterpartyShutdownScript : Option Script
  commitmentType : CommitmentType
  deriving DecidableEq

namespace ChannelSetup

/-- Whether the output to the countersigner pays a static key. -/
def isStaticRemotekey (setup : ChannelSetup) : Bool := setup.commitmentType != .legacy

/-- Whether the commitments of the channel carry anchors. -/
def isAnchors (setup : ChannelSetup) : Bool :=
  setup.commitmentType == .anchors || setup.commitmentType == .anchorsZeroFeeHtlc

/-- Whether second-level HTLC transactions pay no fee. -/
def isZeroFeeHtlc (setup : ChannelSetup) : Bool := setup.commitmentType == .anchorsZeroFeeHtlc

end ChannelSetup

/-- What the channel monitor knows of the chain. -/
structure ChainState where
  currentHeight : Nat
  fundingDepth : Nat
  fundingDoubleSpentDepth : Nat
  closingDepth : Nat
  deriving DecidableEq

/-- The keys a commitment transaction is built with. -/
structure TxCreationKeys where
  perCommitmentPoint : PublicKey
  revocationKey : PublicKey
  broadcasterHtlcKey : PublicKey
  countersignatoryHtlcKey : PublicKey
  broadcasterDelayedPaymentKey : PublicKey
  deriving DecidableEq

/-- An HTLC as the commitment builder takes it. -/
structure HTLCOutputInCommitment where
  offered : Bool
  amountMsat : Nat
  cltvExpiry : Nat
  paymentHash : PaymentHash
  transactionOutputIndex : Option Nat
  deriving DecidableEq

/-- The channel parameters the commitment builder reads. -/
structure ChannelTransactionParameters where
  holderPubkeys : ChannelPublicKeys
  holderSelectedContestDelay : Nat
  isOutboundFromHolder : Bool
  counterpartyPubkeys : ChannelPublicKeys
  counterpartySelectedContestDelay : Nat
  fundingOutpoint : OutPoint
  optAnchors : Bool
  optNonZeroFeeAnchors : Bool
  deriving DecidableEq

/-- A commitment transaction before signing, as the arguments of its builder.  `isHolder` says whose
broadcast it is built for, and `commitmentNumber` counts down from `INITIAL_COMMITMENT_NUMBER`. -/
structure CommitmentTransaction where
  isHolder : Bool
  commitmentNumber : Nat
  toBroadcasterValueSat : Nat
  toCountersignatoryValueSat : Nat
  isAnchors : Bool
  broadcasterFundingKey : PublicKey
  countersignatoryFundingKey : PublicKey
  keys : TxCreationKeys
  feeratePerKw : Nat
  htlcs : List HTLCOutputInCommitment
  parameters : ChannelTransactionParameters
  nonZeroFeeAnchors : Bool
  deriving DecidableEq

/-- A cooperative closing transaction, as the arguments of its builder. -/
structure ClosingTransaction where
  toHolderValueSat : Nat
  toCounterpartyValueSat : Nat
  toHolderScript : Script
  toCounterpartyScript : Script
  fundingOutpoint : OutPoint
  deriving DecidableEq

/-- The signature hash types the signer uses. -/
inductive EcdsaSighashType where
  | all
  | singlePlusAnyoneCanPay
  deriving DecidableEq

/-- The functions of the Lightning, Bitcoin and secp256k1 libraries the signer calls. -/
structure Library where
  sha256 : Bytes32 → Bytes32
  /-- Whether the bytes are a secret key. -/
  isSecretKey : Bytes32 → Bool
  /-- The public key of a secret key. -/
  publicKey : Bytes32 → PublicKey
  derivePublicKey : PublicKey → PublicKey → Except String PublicKey
  derivePublicRevocationKey : PublicKey → PublicKey → PublicKey
  /-- The keys of a commitment, from its point, the broadcaster's delayed and HTLC base points and
  the countersigner's revocation and HTLC base points. -/
  txCreationKeys : PublicKey → PublicKey → PublicKey → PublicKey → PublicKey → TxCreationKeys
  makeFundingRedeemscript : PublicKey → PublicKey → Script
  builtTransaction : CommitmentTransaction → Transaction
  /-- The HTLCs of a built commitment, in the order of its outputs. -/
  builtHtlcs : CommitmentTransaction → List HTLCOutputInCommitment
  txid : Transaction → Bytes32
  getHtlcRedeemscript : HTLCOutputInCommitment → Bool → TxCreationKeys → Script
  buildHtlcTransaction : Bytes32 → Nat → Nat → HTLCOutputInCommitment → Bool → Bool →
    PublicKey → PublicKey → Transaction
  htlcTimeoutTxWeight : Bool → Nat
  htlcSuccessTxWeight : Bool → Nat
  segwitSignatureHash : Transaction → Nat → Script → Nat → EcdsaSighashType → Bytes32
  verifyEcdsa : Bytes32 → Signature → PublicKey → Except String Unit

/-- The keys of one channel, and what is signed with them. -/
structure InMemorySigner where
  pubkeys : ChannelPublicKeys
  counterpartyPubkeys : ChannelPublicKeys
  getPerCommitmentPoint : Nat → PublicKey
  releaseCommitmentSecret : Nat → Bytes32
  signCounterpartyCommitment : CommitmentTransaction → Option (Signature × List Signature)
  signHolderCommitmentAndHtlcs : CommitmentTransaction → Option (Signature × List Signature)
  signClosingTransaction : ClosingTransaction → Option Signature

end ValidatingSigner
