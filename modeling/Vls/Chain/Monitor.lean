import Mathlib.Data.Finset.Basic
import Vls.Policy.Policy

/-!
# The channel monitor

A monitor follows one channel on chain.  While a block is read, transaction by transaction, it
collects the changes it detects; the changes are applied to its heights when the block is added or
removed, and the outpoints to watch and to stop watching are handed back.
-/

namespace ValidatingSigner

open Base

/-! ## Blocks, proofs and the chain libraries -/

/-- The hash of a block header. -/
abbrev BlockHash := Bytes32

/-- The identifier of a transaction. -/
abbrev Txid := Bytes32

/-- A header of the TXOO filter chain. -/
abbrev FilterHeader := Bytes32

/-- A target of the proof of work. -/
abbrev Uint256 := BitVec 256

/-- A block header. -/
structure BlockHeader where
  version : Int
  prevBlockhash : BlockHash
  merkleRoot : Bytes32
  time : Nat
  bits : Nat
  nonce : Nat
  deriving DecidableEq

/-- How a proof shows what a block does to the watched outputs. -/
inductive ProofType where
  /-- A compact filter, and the transactions of the block that match it. -/
  | filter (content : List UInt8) (txs : List Transaction)
  /-- The whole block. -/
  | block (blockHash : BlockHash)
  /-- The block was streamed before. -/
  | externalBlock
  deriving DecidableEq

/-- Whether the block was streamed. -/
def ProofType.isExternal : ProofType → Bool
  | .externalBlock => true
  | _ => false

/-- A TXOO proof. -/
structure TxoProof where
  attestations : List UInt8
  proof : ProofType
  deriving DecidableEq

/-- Why a TXOO proof does not verify. -/
inductive VerifyError where
  | invalidAttestation
  | other (debug : String)
  deriving DecidableEq

/-- Why the tracker refuses a block. -/
inductive ChainError where
  | invalidChain
  | invalidBlock
  | reorgTooDeep
  | invalidProof
  deriving DecidableEq

/-- The result of a step of the tracker. -/
abbrev ChainResult := Except (Fault ChainError)

/-- What the push decoder reports while it reads a block. -/
inductive PushEvent where
  | blockStart (header : BlockHeader)
  | transactionStart (version : Int)
  | transactionInput (input : TxIn)
  | transactionOutput (output : TxOut)
  | transactionEnd (lockTime : Nat) (txid : Txid)
  | blockEnd
  deriving DecidableEq

/-- The build, its policy filter, and the functions of the Bitcoin, TXOO and push-decoder libraries
the tracker calls. -/
structure ChainEnv where
  overflow : Overflow
  filter : PolicyFilter
  txid : Transaction → Txid
  blockHash : BlockHeader → BlockHash
  target : BlockHeader → Uint256
  /-- Whether the hash of a header is under the target it states. -/
  validatePow : BlockHeader → Bool
  compactTargetFromU256 : Uint256 → Nat
  u256FromCompactTarget : Nat → Uint256
  /-- The filter header a proof commits to. -/
  filterHeader : TxoProof → FilterHeader
  /-- The verification of a proof at a height, for a header, the hash of the streamed block, the
  previous filter header and the watched outpoints. -/
  verify : TxoProof → Nat → BlockHeader → Option BlockHash → FilterHeader → Finset OutPoint →
    Except VerifyError Unit
  /-- The events the push decoder has reported once it has read the given bytes, or a decode
  failure. -/
  decoded : List UInt8 → Option (List PushEvent)
  /-- Whether the bytes read are a whole block. -/
  finished : List UInt8 → Bool

/-- The events of a transaction. -/
def transactionEvents (txid : Transaction → Txid) (tx : Transaction) : List PushEvent :=
  .transactionStart tx.version :: tx.input.map .transactionInput ++
    tx.output.map .transactionOutput ++ [.transactionEnd tx.lockTime (txid tx)]

/-- The events of a block. -/
def blockEvents (txid : Transaction → Txid) (header : BlockHeader) (txs : List Transaction) :
    List PushEvent :=
  .blockStart header :: txs.flatMap (transactionEvents txid) ++ [.blockEnd]

/-! ## The state of a monitor -/

namespace Monitor

/-- A change detected in a block. -/
inductive StateChange where
  /-- The funding transaction was confirmed, with this funding outpoint. -/
  | fundingConfirmed (outpoint : OutPoint)
  /-- This input of the funding transaction was spent. -/
  | fundingDoubleSpent (outpoint : OutPoint)
  /-- This transaction closed the channel. -/
  | closingConfirmed (txid : Txid) (tx : Transaction)
  deriving DecidableEq

/-- How far the current block has been read. -/
structure BlockDecodeState where
  changes : List StateChange
  version : Int
  inputNum : Nat
  outputNum : Nat
  closingTx : Option Transaction
  blockHash : BlockHash
  deriving DecidableEq

/-- The most outputs a closing transaction may have. -/
def maxCommitmentOutputs : Nat := 600

/-- What a monitor knows of its channel. -/
structure State where
  height : Nat
  fundingTxids : List Txid
  /-- The funding output index of each funding transaction. -/
  fundingVouts : List Nat
  fundingInputs : Finset OutPoint
  fundingHeight : Option Nat
  /-- The funding outpoint, once it is on chain. -/
  fundingOutpoint : Option OutPoint
  fundingDoubleSpentHeight : Option Nat
  closingHeight : Option Nat
  sawBlock : Bool
  decodeState : Option BlockDecodeState
  deriving DecidableEq

namespace State

/-! ## Reading a block -/

/-- Whether no beginning of a block was ever seen, so that the events of the current one have to be
ignored. -/
def isNotReadyForPush (s : State) : Bool := s.decodeState.isNone && !s.sawBlock

/-- A block begins. -/
def onBlockStart (s : State) (blockHash : BlockHash) : State :=
  { s with sawBlock := true, decodeState := some ⟨[], 0, 0, 0, none, blockHash⟩ }

/-- Update the decode state, unless the events of this block are ignored. -/
def decode (s : State) (f : BlockDecodeState → Asserted BlockDecodeState) :
    Asserted State :=
  if s.isNotReadyForPush then .ok s
  else do
    let state ← expect "decode state" s.decodeState
    let state ← f state
    return { s with decodeState := some state }

/-- The decode state when a transaction begins. -/
def startTransaction (version : Int) (state : BlockDecodeState) : BlockDecodeState :=
  { state with version := version, inputNum := 0, outputNum := 0, closingTx := none }

/-- The decode state after an input of the current transaction. -/
def readInput (s : State) (input : TxIn) (state : BlockDecodeState) :
    Asserted BlockDecodeState := do
  let changes := if input.previousOutput ∈ s.fundingInputs then
      state.changes ++ [.fundingDoubleSpent input.previousOutput]
    else state.changes
  let closingTx := if some input.previousOutput = s.fundingOutpoint then
      some { version := state.version, lockTime := 0, input := [input], output := [] }
    else state.closingTx
  assert (closingTx.isSome → state.inputNum = 0) "closing tx must have only one input"
  return { state with
    changes := changes, closingTx := closingTx, inputNum := state.inputNum + 1 }

/-- The decode state after an output of the current transaction. -/
def readOutput (output : TxOut) (state : BlockDecodeState) : Asserted BlockDecodeState := do
  let closingTx := state.closingTx.map fun tx => { tx with output := tx.output ++ [output] }
  assert (closingTx.isSome → state.outputNum < maxCommitmentOutputs)
    s!"more than {maxCommitmentOutputs} commitment outputs"
  return { state with closingTx := closingTx, outputNum := state.outputNum + 1 }

/-- The closing to report at the end of a transaction. -/
def closingChange (lockTime : Nat) (txid : Txid) : Option Transaction → List StateChange
  | some tx => [.closingConfirmed txid { tx with lockTime := lockTime }]
  | none => []

/-- The decode state when the current transaction ends. -/
def endTransaction (s : State) (lockTime : Nat) (txid : Txid) (state : BlockDecodeState) :
    Asserted BlockDecodeState := do
  let confirmed ← match s.fundingTxids.idxOf? txid with
    | some ind => do
      let vout ← expect "index out of bounds" s.fundingVouts[ind]?
      assert (vout < state.outputNum)
        ("tx " ++ txid.toHex ++ s!" doesn't have funding output index {vout}")
      pure [.fundingConfirmed ⟨txid, vout⟩]
    | none => pure []
  return { state with
    changes := state.changes ++ confirmed ++ closingChange lockTime txid state.closingTx
    closingTx := none }

/-- A transaction begins. -/
def onTransactionStart (s : State) (version : Int) : Asserted State :=
  s.decode fun state => .ok (startTransaction version state)

/-- An input of the current transaction was read. -/
def onTransactionInput (s : State) (input : TxIn) : Asserted State := s.decode (s.readInput input)

/-- An output of the current transaction was read. -/
def onTransactionOutput (s : State) (output : TxOut) : Asserted State :=
  s.decode (readOutput output)

/-- The current transaction ends. -/
def onTransactionEnd (s : State) (lockTime : Nat) (txid : Txid) : Asserted State :=
  s.decode (s.endTransaction lockTime txid)

/-- The block ends; the changes wait for the block to be added or removed. -/
def onBlockEnd (s : State) : State := s

/-- An event of the push decoder. -/
def push (blockHash : BlockHeader → BlockHash) (s : State) : PushEvent → Asserted State
  | .blockStart header => .ok (s.onBlockStart (blockHash header))
  | .transactionStart version => s.onTransactionStart version
  | .transactionInput input => s.onTransactionInput input
  | .transactionOutput output => s.onTransactionOutput output
  | .transactionEnd lockTime txid => s.onTransactionEnd lockTime txid
  | .blockEnd => .ok s.onBlockEnd

/-- Events of the push decoder, in turn. -/
def pushAll (blockHash : BlockHeader → BlockHash) (s : State) (events : List PushEvent) :
    Asserted State :=
  events.foldlM (push blockHash) s

end State

/-! ## Applying the changes -/

/-- Whether the change is a confirmation of the funding transaction. -/
def StateChange.isFundingConfirmed : StateChange → Bool
  | .fundingConfirmed _ => true
  | _ => false

/-- A monitor state after a block, the outpoints to watch and those to stop watching. -/
abbrev Applied := State × List OutPoint × List OutPoint

/-- The outpoint a closing transaction spends, its only input. -/
def closingInput (tx : Transaction) : Asserted OutPoint :=
  match tx.input with
  | [input] => .ok input.previousOutput
  | _ => .error (.abort "assertion failed: closing_tx.input.len() == 1")

namespace State

/-- Apply a change of a block that is added. -/
def addChange (haveFundingConfirmed : Bool) (s : State) : StateChange → Asserted Applied
  | .fundingConfirmed outpoint => do
    assert (s.fundingDoubleSpentHeight = none)
      "assertion failed: self.funding_double_spent_height.is_none()"
    return ({ s with fundingHeight := some s.height, fundingOutpoint := some outpoint },
      [outpoint], [])
  | .fundingDoubleSpent outpoint =>
    if haveFundingConfirmed then return (s, [], [outpoint])
    else do
      assert (s.fundingHeight = none) "assertion failed: self.funding_height.is_none()"
      return ({ s with
        fundingDoubleSpentHeight := some (s.fundingDoubleSpentHeight.getD s.height) },
        [], [outpoint])
  | .closingConfirmed _ tx => do
    let input ← closingInput tx
    return ({ s with closingHeight := some s.height }, [], [input])

/-- Apply a change of a block that is removed. -/
def removeChange (haveFundingConfirmed : Bool) (s : State) : StateChange → Asserted Applied
  | .fundingConfirmed outpoint => do
    assert (s.fundingHeight = some s.height)
      "assertion failed: self.funding_height == Some(self.height)"
    return ({ s with fundingHeight := none, fundingOutpoint := none }, [outpoint], [])
  | .fundingDoubleSpent outpoint =>
    if haveFundingConfirmed then return (s, [], [outpoint])
    else do
      assert (s.fundingDoubleSpentHeight.isSome)
        "assertion failed: self.funding_double_spent_height.is_some()"
      return ({ s with fundingDoubleSpentHeight :=
        if s.fundingDoubleSpentHeight = some s.height then none else s.fundingDoubleSpentHeight },
        [], [outpoint])
  | .closingConfirmed _ tx => do
    assert (s.closingHeight = some s.height)
      "assertion failed: self.closing_height == Some(self.height)"
    let input ← closingInput tx
    return ({ s with closingHeight := none }, [], [input])

/-- Apply changes in turn, collecting the outpoints. -/
def applyChanges (apply : State → StateChange → Asserted Applied) (s : State) :
    List StateChange → Asserted Applied
  | [] => .ok (s, [], [])
  | change :: changes => do
    let (s, adds, removes) ← apply s change
    let (s, adds', removes') ← applyChanges apply s changes
    return (s, adds ++ adds', removes ++ removes')

/-- The block that was read is added. -/
def onAddBlockEnd (o : Overflow) (s : State) (blockHash : BlockHash) : Asserted Applied :=
  if s.isNotReadyForPush then .ok (s, [], [])
  else do
    let state ← expect "decode state" s.decodeState
    assert (state.blockHash = blockHash) "assertion failed: state.block_hash == *block_hash"
    let height ← o.u32 (s.height + 1)
    applyChanges (addChange (state.changes.any StateChange.isFundingConfirmed))
      { s with decodeState := none, sawBlock := true, height := height } state.changes

/-- The block that was read is removed. -/
def onRemoveBlockEnd (o : Overflow) (s : State) (blockHash : BlockHash) : Asserted Applied :=
  if s.isNotReadyForPush then .ok (s, [], [])
  else do
    let state ← expect "decode state" s.decodeState
    assert (state.blockHash = blockHash) "assertion failed: state.block_hash == *block_hash"
    let (s, adds, removes) ←
      applyChanges (removeChange (state.changes.any StateChange.isFundingConfirmed))
        { s with decodeState := none } state.changes
    let height ← o.sub32 s.height 1
    return ({ s with height := height }, adds, removes)

end State

end Monitor

/-! ## Monitors -/

/-- The monitor of a channel, identified by its funding outpoint. -/
structure ChainMonitor where
  fundingOutpoint : OutPoint
  state : Monitor.State
  deriving DecidableEq

namespace ChainMonitor

/-- A monitor that has seen nothing yet, at a height. -/
def new (fundingOutpoint : OutPoint) (height : Nat) : ChainMonitor where
  fundingOutpoint := fundingOutpoint
  state :=
    { height := height, fundingTxids := [], fundingVouts := [], fundingInputs := ∅
      fundingHeight := none, fundingOutpoint := none, fundingDoubleSpentHeight := none
      closingHeight := none, sawBlock := false, decodeState := none }

/-- Follow the funding transaction of an outpoint. -/
def addFundingOutpoint (monitor : ChainMonitor) (outpoint : OutPoint) :
    Asserted ChainMonitor := do
  assert (monitor.state.fundingTxids = []) "only a single funding tx currently supported"
  assert (monitor.state.fundingTxids.length = monitor.state.fundingVouts.length)
    "assertion failed: state.funding_txids.len() == state.funding_vouts.len()"
  return { monitor with state := { monitor.state with
    fundingTxids := monitor.state.fundingTxids ++ [outpoint.txid]
    fundingVouts := monitor.state.fundingVouts ++ [outpoint.vout] } }

/-- Follow the inputs of the funding transaction. -/
def addFundingInputs (monitor : ChainMonitor) (tx : Transaction) : ChainMonitor :=
  { monitor with state := { monitor.state with
    fundingInputs :=
      monitor.state.fundingInputs ∪ (tx.input.map TxIn.previousOutput).toFinset } }

/-- The confirmations of something recorded at a height, zero when it is not recorded. -/
def depth (o : Overflow) (height : Nat) : Option Nat → Asserted Nat
  | some h => do
    let next ← o.u32 (height + 1)
    o.sub32 next h
  | none => .ok 0

/-- What the validator is told of the chain. -/
def asChainState (o : Overflow) (monitor : ChainMonitor) : Asserted ChainState := do
  let fundingDepth ← depth o monitor.state.height monitor.state.fundingHeight
  let fundingDoubleSpentDepth ← depth o monitor.state.height monitor.state.fundingDoubleSpentHeight
  let closingDepth ← depth o monitor.state.height monitor.state.closingHeight
  return ⟨monitor.state.height, fundingDepth, fundingDoubleSpentDepth, closingDepth⟩

/-- Read a list of transactions. -/
def readTransactions (txid : Transaction → Txid) (blockHash : BlockHeader → BlockHash)
    (s : Monitor.State) (txs : List Transaction) : Asserted Monitor.State :=
  s.pushAll blockHash (txs.flatMap (transactionEvents txid))

/-- A block was added, with the transactions of its proof. -/
def onAddBlock (E : ChainEnv) (monitor : ChainMonitor) (txs : List Transaction)
    (blockHash : BlockHash) : Asserted (ChainMonitor × List OutPoint × List OutPoint) := do
  let state ← readTransactions E.txid E.blockHash (monitor.state.onBlockStart blockHash) txs
  let (state, adds, removes) ← state.onAddBlockEnd E.overflow blockHash
  return ({ monitor with state := state }, adds, removes)

/-- A block was added that has been streamed. -/
def onAddStreamedBlock (E : ChainEnv) (monitor : ChainMonitor) (blockHash : BlockHash) :
    Asserted (ChainMonitor × List OutPoint × List OutPoint) := do
  let (state, adds, removes) ← monitor.state.onAddBlockEnd E.overflow blockHash
  return ({ monitor with state := state }, adds, removes)

/-- A block was removed, with the transactions of its proof. -/
def onRemoveBlock (E : ChainEnv) (monitor : ChainMonitor) (txs : List Transaction)
    (blockHash : BlockHash) : Asserted (ChainMonitor × List OutPoint × List OutPoint) := do
  let state ← readTransactions E.txid E.blockHash (monitor.state.onBlockStart blockHash) txs
  let (state, adds, removes) ← state.onRemoveBlockEnd E.overflow blockHash
  return ({ monitor with state := state }, adds, removes)

/-- A block was removed that has been streamed. -/
def onRemoveStreamedBlock (E : ChainEnv) (monitor : ChainMonitor) (blockHash : BlockHash) :
    Asserted (ChainMonitor × List OutPoint × List OutPoint) := do
  let (state, adds, removes) ← monitor.state.onRemoveBlockEnd E.overflow blockHash
  return ({ monitor with state := state }, adds, removes)

/-- An event of the push decoder. -/
def onPush (E : ChainEnv) (monitor : ChainMonitor) (event : PushEvent) :
    Asserted ChainMonitor := do
  let state ← monitor.state.push E.blockHash event
  return { monitor with state := state }

end ChainMonitor

end ValidatingSigner
