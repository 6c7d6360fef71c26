import Vls.Base.Machine
import Vls.Channel.Commitments
import Vls.Policy.SimpleValidator

/-!
# A channel as a machine

The requests a ready channel serves, its answers, and the machine that serves them one after the
other.  The payment state of the node may be anything at each request, since other channels and
requests change it in between.  An operation that aborts ends the process; after a restart the
channel continues from the state stored last.  The library of the sample accepts every signature and
derives every key from its base point, and its policy is the default one.
-/

namespace ValidatingSigner

open Base Effect

/-- A request to a ready channel. -/
inductive Request where
  | getPerCommitmentPoint (commitmentNumber : UInt64)
  | getPerCommitmentSecret (commitmentNumber : UInt64)
  | signCounterpartyCommitmentTx (tx : Transaction) (outputWitscripts : List Script)
      (point : PublicKey) (commitmentNumber : UInt64) (feeratePerKw : Nat)
      (offeredHtlcs receivedHtlcs : List HTLCInfo2)
  | signCounterpartyCommitmentTxPhase2 (point : PublicKey) (commitmentNumber : UInt64)
      (feeratePerKw toHolderValueSat toCounterpartyValueSat : Nat)
      (offeredHtlcs receivedHtlcs : List HTLCInfo2)
  | validateHolderCommitmentTx (tx : Transaction) (outputWitscripts : List Script)
      (commitmentNumber : UInt64) (feeratePerKw : Nat)
      (offeredHtlcs receivedHtlcs : List HTLCInfo2) (signatures : CommitmentSignatures)
  | validateHolderCommitmentTxPhase2 (commitmentNumber : UInt64)
      (feeratePerKw toHolderValueSat toCounterpartyValueSat : Nat)
      (offeredHtlcs receivedHtlcs : List HTLCInfo2) (signatures : CommitmentSignatures)
  | validateCounterpartyRevocation (revokeNum : UInt64) (oldSecret : Bytes32)
  | signHolderCommitmentTxPhase2 (commitmentNumber : UInt64)
  | signHolderCommitmentTxForRecovery
  | signHolderCommitmentTxPhase2Redundant (commitmentNumber : UInt64)
      (feeratePerKw toHolderValueSat toCounterpartyValueSat : Nat)
      (offeredHtlcs receivedHtlcs : List HTLCInfo2)
  | signMutualCloseTx (tx : Transaction) (opaths : List (List Nat))
  | signMutualCloseTxPhase2 (toHolderValueSat toCounterpartyValueSat : Nat)
      (holderScript counterpartyScript : Option Script) (holderWalletPathHint : List Nat)
  deriving DecidableEq

/-- What a channel answers. -/
inductive Reply where
  | point (point : PublicKey)
  | secret (secret : ReleasedSecret)
  | counterpartySigned (signed : SignedCommitment)
  | holderAccepted (nextPoint : PublicKey) (oldSecret : Option ReleasedSecret)
  | revocationAccepted
  | holderSigned (signed : SignedCommitment)
  | closeSigned (signed : SignedClose)
  deriving DecidableEq

namespace Channel

variable (ch : Channel)

/-- Serve a request. -/
def execute (call : Call) : Request → Op Reply
  | .getPerCommitmentPoint n => do
    let s ← get
    let point ← lift (ch.getPerCommitmentPoint s.estate n.toNat)
    return .point point
  | .getPerCommitmentSecret n => do
    let s ← get
    let secret ← lift (ch.getPerCommitmentSecret s.estate n.toNat)
    return .secret secret
  | .signCounterpartyCommitmentTx tx witscripts point n feerate offered received => do
    let signed ← ch.signCounterpartyCommitmentTx call tx witscripts point n.toNat feerate offered
      received
    return .counterpartySigned signed
  | .signCounterpartyCommitmentTxPhase2 point n feerate toHolder toCounterparty offered received =>
    do
    let signed ← ch.signCounterpartyCommitmentTxPhase2 call point n.toNat feerate toHolder
      toCounterparty offered received
    return .counterpartySigned signed
  | .validateHolderCommitmentTx tx witscripts n feerate offered received signatures => do
    let (point, secret) ← ch.validateHolderCommitmentTx call tx witscripts n.toNat feerate offered
      received signatures
    return .holderAccepted point secret
  | .validateHolderCommitmentTxPhase2 n feerate toHolder toCounterparty offered received
      signatures => do
    let (point, secret) ← ch.validateHolderCommitmentTxPhase2 call n.toNat feerate toHolder
      toCounterparty offered received signatures
    return .holderAccepted point secret
  | .validateCounterpartyRevocation revokeNum oldSecret => do
    ch.validateCounterpartyRevocation call revokeNum.toNat oldSecret
    return .revocationAccepted
  | .signHolderCommitmentTxPhase2 n => do
    let signed ← ch.signHolderCommitmentTxPhase2 call n.toNat
    return .holderSigned signed
  | .signHolderCommitmentTxForRecovery => do
    let signed ← ch.signHolderCommitmentTxForRecovery call
    return .holderSigned signed
  | .signHolderCommitmentTxPhase2Redundant n feerate toHolder toCounterparty offered received => do
    let signed ← ch.signHolderCommitmentTxPhase2Redundant call n.toNat feerate toHolder
      toCounterparty offered received
    return .holderSigned signed
  | .signMutualCloseTx tx opaths => do
    let signed ← ch.signMutualCloseTx call tx opaths
    return .closeSigned signed
  | .signMutualCloseTxPhase2 toHolder toCounterparty holderScript counterpartyScript path => do
    let signed ← ch.signMutualCloseTxPhase2 call toHolder toCounterparty holderScript
      counterpartyScript path
    return .closeSigned signed

end Channel

/-! ## The machine -/

/-- A channel between requests: the state in memory, absent while the process is down, and the state
stored last. -/
structure Slot where
  live : Option EnforcementState
  stored : EnforcementState
  deriving DecidableEq

/-- What can happen to a channel. -/
inductive ChannelEvent where
  /-- A request arrives while the node's payment state is `node`. -/
  | request (node : NodeState) (call : Call) (request : Request)
  /-- The signer is started again and reads the stored state. -/
  | restart

namespace Channel

variable (ch : Channel)

/-- The slot of a channel that has just been made ready. -/
def initial (initialHolderValue : Nat) : Slot :=
  ⟨some (.new initialHolderValue), .new initialHolderValue⟩

/-- The slot after an operation has ended. -/
def settle : Result Reply × Session → Slot × Option (Result Reply)
  | (.error (.abort m), s) => (⟨none, s.stored⟩, some (.error (.abort m)))
  | (r, s) => (⟨some s.estate, s.stored⟩, some r)

/-- One event in the life of a channel. -/
def step (slot : Slot) : ChannelEvent → Slot × Option (Result Reply)
  | .restart => (⟨some slot.stored, slot.stored⟩, none)
  | .request node call request =>
    match slot.live with
    | none => (slot, some (.error (.abort "the signer is not running")))
    | some e => settle ((ch.execute call request).exec ⟨e, node, slot.stored⟩)

/-- The channel as a machine. -/
def machine : Machine Slot ChannelEvent (Option (Result Reply)) := ⟨ch.step⟩

end Channel

/-! ## Records of runs -/

/-- A recorded step of a channel. -/
abbrev ChannelEntry := Entry Slot ChannelEvent (Option (Result Reply))

/-- The request was answered with a reply that satisfies `P`. -/
def Answers (P : Reply → Prop) : Option (Result Reply) → Prop
  | some (.ok reply) => P reply
  | _ => False

instance {P : Reply → Prop} [DecidablePred P] : DecidablePred (Answers P)
  | some (.ok reply) => inferInstanceAs (Decidable (P reply))
  | some (.error _) => inferInstanceAs (Decidable False)
  | none => inferInstanceAs (Decidable False)

theorem Answers.exists {P : Reply → Prop} {answer : Option (Result Reply)} (h : Answers P answer) :
    ∃ reply, answer = some (.ok reply) ∧ P reply := by
  match answer, h with
  | some (.ok reply), h => exact ⟨reply, rfl, h⟩

/-- The memory or the store holds `e`. -/
def Slot.Holds (slot : Slot) (e : EnforcementState) : Prop :=
  slot.live = some e ∨ slot.stored = e

/-! ## A channel to run -/

namespace Sample

/-- A library whose functions are as simple as their types allow. -/
def library : Library where
  sha256 := fun _ => 0
  isSecretKey := fun _ => true
  publicKey := fun secret => ⟨secret.toNat⟩
  derivePublicKey := fun _ base => .ok base
  derivePublicRevocationKey := fun _ base => base
  txCreationKeys := fun point delayed htlc revocation countersignerHtlc =>
    ⟨point, revocation, htlc, countersignerHtlc, delayed⟩
  makeFundingRedeemscript := fun _ _ => []
  builtTransaction := fun tx =>
    ⟨2, 0, [], [⟨tx.toBroadcasterValueSat, []⟩, ⟨tx.toCountersignatoryValueSat, []⟩]⟩
  builtHtlcs := fun tx => tx.htlcs
  txid := fun _ => 0
  getHtlcRedeemscript := fun _ _ _ => []
  buildHtlcTransaction := fun _ _ _ htlc _ _ _ _ => ⟨2, htlc.cltvExpiry, [], []⟩
  htlcTimeoutTxWeight := fun isAnchors => if isAnchors then 666 else 663
  htlcSuccessTxWeight := fun isAnchors => if isAnchors then 706 else 703
  segwitSignatureHash := fun _ _ _ _ _ => 0
  verifyEcdsa := fun _ _ _ => .ok ()

/-- The base points of one side. -/
def points (side : Nat) : ChannelPublicKeys :=
  ⟨⟨side⟩, ⟨side + 1⟩, ⟨side + 2⟩, ⟨side + 3⟩, ⟨side + 4⟩⟩

/-- Keys that sign everything. -/
def keys : InMemorySigner where
  pubkeys := points 10
  counterpartyPubkeys := points 20
  getPerCommitmentPoint := fun index => ⟨index⟩
  releaseCommitmentSecret := fun index => index
  signCounterpartyCommitment := fun tx => some (⟨1⟩, tx.htlcs.map fun _ => ⟨1⟩)
  signHolderCommitmentAndHtlcs := fun tx => some (⟨1⟩, tx.htlcs.map fun _ => ⟨1⟩)
  signClosingTransaction := fun _ => some ⟨1⟩

/-- An outbound channel of one million satoshi. -/
def setup : ChannelSetup where
  isOutbound := true
  channelValueSat := 1000000
  pushValueMsat := 0
  fundingOutpoint := ⟨0, 0⟩
  holderSelectedContestDelay := 144
  holderShutdownScript := none
  counterpartyPoints := points 20
  counterpartySelectedContestDelay := 144
  counterpartyShutdownScript := none
  commitmentType := .staticRemoteKey

/-- Checks that read no transaction. -/
def checks : TransactionChecks where
  validateReadyChannel := fun _ _ => .ok ()
  decodeCommitmentTx := fun _ _ _ _ _ =>
    .error (.refuse (.validation (.transactionFormat "not a commitment")))
  decodeAndValidateMutualCloseTx := fun _ _ _ _ =>
    .error (.refuse (.validation (.transactionFormat "not a close")))
  validateMutualCloseTx := fun _ _ _ _ _ _ _ => .ok ()

/-- The validator of the default policy in a build that treats overflow as given. -/
def validator (o : Overflow) : SimpleValidator := ⟨makeSimplePolicy .bitcoin, o, library, checks⟩

/-- The channel. -/
def channel (o : Overflow) : Channel := ⟨library, (validator o).toValidator, keys, setup, ⟨[0]⟩⟩

/-- A node with no payments. -/
def node : NodeState := .new (.new ⟨0, .unlimited⟩) (.new ⟨0, .unlimited⟩)

/-- The chain at some height, with the funding buried. -/
def chain : ChainState := ⟨700000, 6, 0, 0⟩

/-- A request during which storing ends as given. -/
def ask (persistOk : Bool) (request : Request) : ChannelEvent :=
  .request node ⟨chain, persistOk⟩ request

/-- Hand over the counterparty's signature on holder commitment `n` without HTLCs. -/
def validateHolder (n : UInt64) : Request :=
  .validateHolderCommitmentTxPhase2 n 1000 999000 0 [] [] ⟨⟨1⟩, []⟩

/-- Ask for a signature on counterparty commitment `n` without HTLCs. -/
def signCounterparty (n : UInt64) (point : PublicKey) : Request :=
  .signCounterpartyCommitmentTxPhase2 point n 1000 999000 0 [] []

/-- What the outputs of a transaction are sorted by. -/
def outputKey (out : TxOut) : ℕ ×ₗ List ℕ := toLex (out.value, out.scriptPubkey.map UInt8.toNat)

/-- The order of the outputs of a transaction. -/
def OutputBefore (a b : TxOut) : Prop := outputKey a ≤ outputKey b

instance : DecidableRel OutputBefore := fun a b =>
  inferInstanceAs (Decidable (outputKey a ≤ outputKey b))

instance : Std.Total OutputBefore := ⟨fun a b => le_total (outputKey a) (outputKey b)⟩

instance : IsTrans TxOut OutputBefore := ⟨fun _ _ _ h₁ h₂ => le_trans h₁ h₂⟩

instance : Std.Antisymm OutputBefore := ⟨by
  rintro ⟨value, script⟩ ⟨value', script'⟩ h₁ h₂
  obtain ⟨hvalue, hscript⟩ := Prod.mk.inj (toLex.injective (le_antisymm h₁ h₂))
  exact TxOut.mk.injEq .. ▸
    ⟨hvalue, List.map_injective_iff.mpr (fun _ _ => UInt8.toNat_inj.mp) hscript⟩⟩

/-- Outputs sort to the same list in whatever order they come. -/
theorem insertionSort_eq_of_perm {xs ys : List TxOut} (h : xs.Perm ys) :
    xs.insertionSort OutputBefore = ys.insertionSort OutputBefore :=
  List.Perm.eq_of_pairwise (fun _ _ _ _ => antisymm_of OutputBefore)
    (List.pairwise_insertionSort OutputBefore xs) (List.pairwise_insertionSort OutputBefore ys)
    (((List.perm_insertionSort OutputBefore xs).trans h).trans
      (List.perm_insertionSort OutputBefore ys).symm)

end Sample

end ValidatingSigner
