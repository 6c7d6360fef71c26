import Vls.Base.Effect
import Vls.Base.Machine
import Vls.Base.Table
import Vls.Chain.Monitor

/-!
# The chain tracker

The tracker follows the tip of the chain through added and removed blocks, checks headers and
proofs, and tells its listeners what happens in each block.  A block is either proved by a compact
filter with the matching transactions, or streamed in chunks and pushed to the listeners while it is
decoded.
-/

namespace ValidatingSigner

open Base ChainMonitor Effect Asserted

/-- What a listener does when blocks are added, removed and streamed.  The notifications return the
outpoints to watch and those to stop watching. -/
structure ChainListener (κ L : Type) where
  key : L → κ
  onAddBlock : L → List Transaction → BlockHash → Asserted (L × List OutPoint × List OutPoint)
  onAddStreamedBlock : L → BlockHash → Asserted (L × List OutPoint × List OutPoint)
  onRemoveBlock : L → List Transaction → BlockHash →
    Asserted (L × List OutPoint × List OutPoint)
  onRemoveStreamedBlock : L → BlockHash → Asserted (L × List OutPoint × List OutPoint)
  onPush : L → PushEvent → Asserted L

/-- Channel monitors as listeners. -/
def ChainMonitor.listener (E : ChainEnv) : ChainListener OutPoint ChainMonitor where
  key := fundingOutpoint
  onAddBlock := onAddBlock E
  onAddStreamedBlock := onAddStreamedBlock E
  onRemoveBlock := onRemoveBlock E
  onRemoveStreamedBlock := onRemoveStreamedBlock E
  onPush := onPush E

/-- What a listener watches. -/
structure ListenSlot where
  /-- The transactions to be confirmed. -/
  txidWatches : Finset Txid
  /-- The outpoints to be spent. -/
  watches : Finset OutPoint
  /-- The outpoints that were already seen spent. -/
  seen : Finset OutPoint
  deriving DecidableEq

/-- What a listener's slot watches after a block was added. -/
def ListenSlot.added (slot : ListenSlot) (adds removes : List OutPoint) : ListenSlot :=
  { slot with
    watches := (slot.watches ∪ adds.toFinset) \ removes.toFinset
    seen := slot.seen ∪ removes.toFinset }

/-- What a listener's slot watches after a block was removed. -/
def ListenSlot.removed (slot : ListenSlot) (adds removes : List OutPoint) : ListenSlot :=
  { slot with
    watches := (slot.watches ∪ removes.toFinset) \ adds.toFinset
    seen := slot.seen \ removes.toFinset }

/-- A block header with its filter header. -/
structure Headers where
  header : BlockHeader
  filterHeader : FilterHeader
  deriving DecidableEq

namespace ChainTracker

/-- The block being streamed: the bytes the decoder has read, and the offset of the next chunk. -/
structure BlockDecodeState where
  bytes : List UInt8
  offset : Nat
  blockHash : BlockHash
  deriving DecidableEq

/-- The longest reorganization the tracker accepts. -/
def maxReorgSize : Nat := 100

/-- The number of blocks between two changes of the difficulty. -/
def diffchangeInterval : Nat := 2016

/-- The easiest target of a network. -/
def maxTarget : Network → Uint256
  | .regtest => (0x7fffff : BitVec 256) <<< (256 - 24)
  | _ => (0xFFFF : BitVec 256) <<< 208

/-- A target as its compact form gives it back. -/
def roundTripTarget (E : ChainEnv) (target : Uint256) : Uint256 :=
  E.u256FromCompactTarget (E.compactTargetFromU256 target)

/-- Check a change of the difficulty. -/
def validateRetarget (E : ChainEnv) (prevTarget target : Uint256) (network : Network) :
    ChainResult Unit := do
  let min := roundTripTarget E (prevTarget >>> 2)
  let max := roundTripTarget E (prevTarget <<< 2)
  refuseIf (target > maxTarget network) .invalidBlock
  refuseIf (target < min) .invalidChain
  refuseIf (target > max) .invalidChain

/-- Whether a block may be mined at the easiest target because none came for 20 minutes. -/
def twentyMinuteRule (E : ChainEnv) (network : Network) (prevHeader header : BlockHeader) :
    ChainResult Bool :=
  if network = .testnet ∧ E.target header = maxTarget network then do
    let limit ← E.overflow.u32 (prevHeader.time + 60 * 20)
    return decide (header.time > limit)
  else return false

/-- The header checks of a block on top of `prevHeader`, which is at `height`. -/
def validateHeader (E : ChainEnv) (network : Network) (height : Nat)
    (prevHeader header : BlockHeader) : ChainResult Unit := do
  refuseIf (header.prevBlockhash ≠ E.blockHash prevHeader) .invalidChain
  refuseIf (¬ E.validatePow header) .invalidBlock
  if ← twentyMinuteRule E network prevHeader header then return ()
  else do
    let next ← E.overflow.u32 (height + 1)
    if next % diffchangeInterval = 0 then
      validateRetarget E (E.target prevHeader) (E.target header) network
    else refuseIf (header.bits ≠ prevHeader.bits ∧ network ≠ .testnet) .invalidChain

/-- The validator's check of a proof that has been verified with this result. -/
def validateBlockProof (filter : PolicyFilter) : Except VerifyError Unit → Result Unit
  | .ok () => .ok ()
  | .error .invalidAttestation =>
    filter.policyErr True "policy-chain-validated" "validate_block" "invalid attestation"
  | .error (.other debug) =>
    filter.policyErr True "policy-chain-validated" "validate_block" ("invalid proof " ++ debug)

/-- The proof check of a block on top of `prevHeaders`, which is at `height`.  A missing previous
filter header is bypassed. -/
def validateProof (E : ChainEnv) (height : Nat) (externalBlockHash : Option BlockHash)
    (prevHeaders : Headers) (header : BlockHeader) (proof : TxoProof)
    (outpointWatches : Finset OutPoint) : ChainResult Unit :=
  if prevHeaders.filterHeader = 0 then .ok ()
  else do
    let next ← E.overflow.u32 (height + 1)
    match validateBlockProof E.filter
      (E.verify proof next header externalBlockHash prevHeaders.filterHeader outpointWatches) with
    | .ok () => .ok ()
    | .error (.refuse _) => .error (.refuse .invalidProof)
    | .error (.abort message) => .error (.abort message)

end ChainTracker

/-- The tracker of a chain, with listeners `L`. -/
structure ChainTracker (κ L : Type) where
  /-- The headers below the tip, newest first. -/
  headers : List Headers
  tip : Headers
  height : Nat
  network : Network
  listeners : Table κ (L × ListenSlot)
  /-- The block that is being streamed. -/
  decodeState : Option ChainTracker.BlockDecodeState

namespace ChainTracker

variable {κ L : Type} [DecidableEq κ] (E : ChainEnv) (I : ChainListener κ L)

/-- A tracker that starts at a tip. -/
def new (network : Network) (height : Nat) (tip : Headers) : ChainResult (ChainTracker κ L) := do
  refuseIf (¬ E.validatePow tip.header) .invalidBlock
  return { headers := [], tip := tip, height := height, network := network, listeners := ∅,
           decodeState := none }

/-! ## Listeners -/

/-- Add a listener that watches for transactions. -/
def addListener (T : ChainTracker κ L) (listener : L) (initialTxidWatches : Finset Txid) :
    ChainTracker κ L :=
  { T with listeners := T.listeners.insert (I.key listener) (listener, ⟨initialTxidWatches, ∅, ∅⟩) }

/-- Add outpoints to watch for a listener. -/
def addListenerWatches (T : ChainTracker κ L) (key : κ) (watches : Finset OutPoint) :
    Asserted (ChainTracker κ L) := do
  let (listener, slot) ← expect "trying to add watches to non-existent listener"
    (T.listeners.lookup key)
  return { T with listeners :=
    T.listeners.insert key (listener, { slot with watches := slot.watches ∪ watches }) }

/-- The outpoints that matter in a block that is added, or removed. -/
def outpointWatches (T : ChainTracker κ L) (includeReverse : Bool) : Finset OutPoint :=
  T.listeners.entries.foldl (fun watches entry =>
    watches ∪ entry.2.2.watches ∪ (if includeReverse then entry.2.2.seen else ∅)) ∅

/-- The transactions that matter in a block. -/
def txidWatches (T : ChainTracker κ L) : Finset Txid :=
  T.listeners.entries.foldl (fun watches entry => watches ∪ entry.2.2.txidWatches) ∅

/-! ## Blocks -/

/-- Check the headers and the proof of a block on top of `prevHeaders`, which is at `height`. -/
def validateBlock (T : ChainTracker κ L) (height : Nat) (externalBlockHash : Option BlockHash)
    (prevHeaders headers : Headers) (proof : TxoProof) (isRemove : Bool) : ChainResult Unit := do
  validateHeader E T.network height prevHeaders.header headers.header
  validateProof E height externalBlockHash prevHeaders headers.header proof
    (T.outpointWatches isRemove)

/-- Close the stream of a block, which must be there exactly when the proof refers to it. -/
def maybeFinishDecodingBlock (T : ChainTracker κ L) (proof : TxoProof)
    (expectedBlockHash : BlockHash) : Asserted (ChainTracker κ L) := do
  assert (proof.proof.isExternal = T.decodeState.isSome) "is_external != decode_state"
  match T.decodeState with
  | some state => do
    assert (E.finished state.bytes) "decode finish failure"
    assert (state.blockHash = expectedBlockHash)
      ("wrong block was sent " ++ state.blockHash.toHex ++ " != " ++ expectedBlockHash.toHex)
    return { T with decodeState := none }
  | none => return T

/-- Tell a listener of an added block, with the transactions of its proof or `none` when it was
streamed. -/
def notifyAdd (txs : Option (List Transaction)) (blockHash : BlockHash) (entry : L × ListenSlot) :
    Asserted (L × ListenSlot) := do
  let (listener, adds, removes) ← match txs with
    | some txs => I.onAddBlock entry.1 txs blockHash
    | none => I.onAddStreamedBlock entry.1 blockHash
  return (listener, entry.2.added adds removes)

/-- Tell a listener of a removed block, with the transactions of its proof or `none` when it was
streamed. -/
def notifyRemove (txs : Option (List Transaction)) (blockHash : BlockHash)
    (entry : L × ListenSlot) : Asserted (L × ListenSlot) := do
  let (listener, adds, removes) ← match txs with
    | some txs => I.onRemoveBlock entry.1 txs blockHash
    | none => I.onRemoveStreamedBlock entry.1 blockHash
  return (listener, entry.2.removed adds removes)

/-- Tell the listeners of an added block. -/
def notifyListenersAdd (T : ChainTracker κ L) (txs : Option (List Transaction))
    (blockHash : BlockHash) : Asserted (ChainTracker κ L) := do
  let listeners ← T.listeners.traverse fun _ => notifyAdd I txs blockHash
  return { T with listeners := listeners }

/-- Tell the listeners of a removed block. -/
def notifyListenersRemove (T : ChainTracker κ L) (txs : Option (List Transaction))
    (blockHash : BlockHash) : Asserted (ChainTracker κ L) := do
  let listeners ← T.listeners.traverse fun _ => notifyRemove I txs blockHash
  return { T with listeners := listeners }

/-- The transactions a proof brings along; a whole block is not supported. -/
def proofTransactions : ProofType → Asserted (Option (List Transaction))
  | .filter _ txs => .ok (some txs)
  | .block blockHash => .error (.abort ("non-streamed block not supported " ++ blockHash.toHex))
  | .externalBlock => .ok none

/-- The hash a streamed block is expected to have. -/
def externalBlockHash (proof : TxoProof) (blockHash : BlockHash) : Option BlockHash :=
  if proof.proof.isExternal then some blockHash else none

/-- Add a block, which becomes the new tip. -/
def addBlock (header : BlockHeader) (proof : TxoProof) :
    Effect (ChainTracker κ L) ChainError Unit := do
  let messageBlockHash := E.blockHash header
  let T ← get
  let T ← lift (T.maybeFinishDecodingBlock E proof messageBlockHash).lift
  set T
  let headers : Headers := ⟨header, E.filterHeader proof⟩
  lift (T.validateBlock E T.height (externalBlockHash proof messageBlockHash) T.tip headers
    proof false)
  let txs ← lift (proofTransactions proof.proof).lift
  let notified ← lift (T.notifyListenersAdd I txs messageBlockHash).lift
  let height ← lift (E.overflow.u32 (T.height + 1))
  set { notified with
    headers := T.tip :: T.headers.take (maxReorgSize - 1), tip := headers, height := height }

/-- Remove the block at the tip, and return its header.  The block hash used throughout is that of
the block below the tip. -/
def removeBlock (proof : TxoProof) : Effect (ChainTracker κ L) ChainError BlockHeader := do
  let T ← get
  match T.headers with
  | [] => lift (.error (.refuse .reorgTooDeep))
  | prevHeaders :: headers => do
    let tipBlockHash := E.blockHash prevHeaders.header
    let T ← lift (T.maybeFinishDecodingBlock E proof tipBlockHash).lift
    set T
    let height ← lift (E.overflow.sub32 T.height 1)
    lift (T.validateBlock E height (externalBlockHash proof tipBlockHash) prevHeaders T.tip
      proof true)
    let txs ← lift (proofTransactions proof.proof).lift
    let notified ← lift (T.notifyListenersRemove I txs tipBlockHash).lift
    let height ← lift (E.overflow.sub32 T.height 1)
    set { notified with headers := headers, tip := prevHeaders, height := height }
    return T.tip.header

/-! ## Streamed blocks -/

/-- The header of a streamed block has to be the one its chunks announce. -/
def checkStreamedHash (hash : BlockHash) : PushEvent → Asserted Unit
  | .blockStart header =>
    assert (E.blockHash header = hash) ("streamed block hash does not match header " ++
      (E.blockHash header).toHex ++ " != " ++ hash.toHex)
  | _ => .ok ()

/-- Broadcast an event of the decoder to the listeners. -/
def pushEvent (hash : BlockHash) (T : ChainTracker κ L) (event : PushEvent) :
    Asserted (ChainTracker κ L) := do
  checkStreamedHash E hash event
  let listeners ← T.listeners.traverse fun _ entry => do
    let listener ← I.onPush entry.1 event
    return (listener, entry.2)
  return { T with listeners := listeners }

/-- Read a chunk of the block that is being streamed. -/
def decodeNext (T : ChainTracker κ L) (state : BlockDecodeState) (hash : BlockHash) (offset : Nat)
    (chunk : List UInt8) : Asserted (ChainTracker κ L) := do
  assert (state.blockHash = hash)
    ("got chunk for wrong block " ++ hash.toHex ++ " != " ++ state.blockHash.toHex)
  assert (state.offset = offset)
    ("got chunk for wrong offset " ++ toString offset ++ " != " ++ toString state.offset)
  let reported := (E.decoded state.bytes).getD []
  let events ← expect "decode failure" (E.decoded (state.bytes ++ chunk))
  let T ← (events.drop reported.length).foldlM (pushEvent E I hash) T
  let offset ← E.overflow.u32 (state.offset + chunk.length % 2 ^ 32)
  return { T with decodeState := some ⟨state.bytes ++ chunk, offset, state.blockHash⟩ }

/-- A chunk of a streamed block. -/
def blockChunk (T : ChainTracker κ L) (hash : BlockHash) (offset : Nat) (chunk : List UInt8) :
    Asserted (ChainTracker κ L) := do
  let T ← if offset = 0 then do
      assert (T.decodeState = none) "already decoding, and got chunk at offset 0"
      pure { T with decodeState := some ⟨[], 0, hash⟩ }
    else pure T
  match T.decodeState with
  | some state => T.decodeNext E I state hash offset chunk
  | none => .error (.abort ("got chunk at offset " ++ toString offset ++ " without decoder"))

end ChainTracker

/-! ## The tracker of channel monitors as a machine -/

/-- The tracker of a node. -/
abbrev MonitorTracker := ChainTracker OutPoint ChainMonitor

namespace ChainTracker

/-- Register a channel that becomes ready: its monitor starts at the height of the tracker and
watches for the funding transaction. -/
def readyChannel (E : ChainEnv) (T : MonitorTracker) (fundingOutpoint : OutPoint) :
    Asserted MonitorTracker := do
  let monitor ← (ChainMonitor.new fundingOutpoint T.height).addFundingOutpoint fundingOutpoint
  return T.addListener (ChainMonitor.listener E) monitor {fundingOutpoint.txid}

/-- Watch the inputs of a signed transaction for the channel that one of its outputs funds. -/
def signOutput (E : ChainEnv) (tx : Transaction) (T : MonitorTracker) (vout : Nat) :
    MonitorTracker :=
  match T.listeners.lookup ⟨E.txid tx, vout⟩ with
  | some (monitor, slot) =>
    { T with listeners := T.listeners.insert ⟨E.txid tx, vout⟩ (monitor.addFundingInputs tx,
        { slot with
          watches := slot.watches ∪ (tx.input.map TxIn.previousOutput).toFinset }) }
  | none => T

/-- The node has signed a transaction that may fund channels. -/
def fundingSigned (E : ChainEnv) (T : MonitorTracker) (tx : Transaction) : MonitorTracker :=
  (List.range tx.output.length).foldl (signOutput E tx) T

/-- What happens to the tracker. -/
inductive ChainEvent where
  | readyChannel (fundingOutpoint : OutPoint)
  | fundingSigned (tx : Transaction)
  | blockChunk (hash : BlockHash) (offset : Nat) (chunk : List UInt8)
  | addBlock (header : BlockHeader) (proof : TxoProof)
  | removeBlock (proof : TxoProof)

/-- The tracker after an operation that may abort, and its answer. -/
def settle (T : MonitorTracker) : Asserted MonitorTracker → MonitorTracker × ChainResult Unit
  | .ok T' => (T', .ok ())
  | .error (.abort message) => (T, .error (.abort message))

/-- The tracker as a machine. -/
def chainMachine (E : ChainEnv) : Machine MonitorTracker ChainEvent (ChainResult Unit) where
  step T
    | .readyChannel fundingOutpoint => T.settle (T.readyChannel E fundingOutpoint)
    | .fundingSigned tx => (T.fundingSigned E tx, .ok ())
    | .blockChunk hash offset chunk =>
      T.settle (T.blockChunk E (ChainMonitor.listener E) hash offset chunk)
    | .addBlock header proof =>
      let (r, T') := exec (addBlock E (ChainMonitor.listener E) header proof) T
      (T', r)
    | .removeBlock proof =>
      let (r, T') := exec (removeBlock E (ChainMonitor.listener E) proof) T
      (T', r.map fun _ => ())

/-- What the push decoder promises: it reports the events of a block in order, more of them the more
it has read, and all of them when it has read the whole block. -/
structure LawfulDecoder (E : ChainEnv) : Prop where
  empty : E.decoded [] = some []
  prefixes : ∀ bytes events, E.decoded bytes = some events →
    ∃ header txs, events <+: blockEvents E.txid header txs
  grows : ∀ bytes chunk before after, E.decoded bytes = some before →
    E.decoded (bytes ++ chunk) = some after → before <+: after
  finished : ∀ bytes events, E.finished bytes = true → E.decoded bytes = some events →
    ∃ header txs, events = blockEvents E.txid header txs

end ChainTracker

/-! ## What a call to the tracker can do -/

namespace ChainTracker

variable {κ L : Type} {E : ChainEnv} {T T' : ChainTracker κ L} {proof : TxoProof} {height : Nat}

/-- The proof refers to the stream that is open, and that stream is the whole expected block. -/
structure StreamMatches (E : ChainEnv) (T : ChainTracker κ L) (proof : TxoProof)
    (hash : BlockHash) : Prop where
  external : proof.proof.isExternal = T.decodeState.isSome
  finished : ∀ state, T.decodeState = some state →
    E.finished state.bytes = true ∧ state.blockHash = hash

/-- Finishing the stream closes it. -/
theorem maybeFinishDecodingBlock_eq_ok {hash : BlockHash} :
    T.maybeFinishDecodingBlock E proof hash = .ok T' ↔
      StreamMatches E T proof hash ∧ T' = { T with decodeState := none } := by
  unfold maybeFinishDecodingBlock
  obtain ⟨headers, tip, height, network, listeners, decodeState⟩ := T
  cases decodeState with
  | none =>
    simp only [bind_eq_ok, assert_eq_ok, pure_eq_ok, exists_const]
    constructor
    · rintro ⟨hexternal, rfl⟩
      refine ⟨⟨hexternal, fun state h => ?_⟩, rfl⟩
      cases h
    · rintro ⟨hmatches, rfl⟩
      exact ⟨hmatches.external, rfl⟩
  | some state =>
    simp only [bind_eq_ok, assert_eq_ok, pure_eq_ok, exists_const]
    constructor
    · rintro ⟨hexternal, hfinished, hhash, rfl⟩
      refine ⟨⟨hexternal, fun state' h => ?_⟩, rfl⟩
      cases h
      exact ⟨hfinished, hhash⟩
    · rintro ⟨hmatches, rfl⟩
      obtain ⟨hfinished, hhash⟩ := hmatches.finished state rfl
      exact ⟨hmatches.external, hfinished, hhash, rfl⟩

theorem prevBlockhash_of_validateHeader {network : Network} {prev header : BlockHeader} {u : Unit}
    (h : validateHeader E network height prev header = .ok u) :
    header.prevBlockhash = E.blockHash prev := by
  obtain ⟨_, hprev, -⟩ := bind_ok h
  exact not_not.mp (refuseIf_eq_ok.mp hprev)

theorem validateBlock_eq_ok {external : Option BlockHash} {prev headers : Headers} {isRemove : Bool}
    {u : Unit} :
    validateBlock E T height external prev headers proof isRemove = .ok u ↔
      validateHeader E T.network height prev.header headers.header = .ok () ∧
      validateProof E height external prev headers.header proof (T.outpointWatches isRemove) =
        .ok () := by
  simp only [validateBlock, bind_eq_ok]
  exact ⟨fun ⟨_, hheader, hproof⟩ => ⟨hheader, hproof⟩,
    fun ⟨hheader, hproof⟩ => ⟨(), hheader, hproof⟩⟩

variable [DecidableEq κ] {I : ChainListener κ L}

/-- What has been checked, and what the listeners have become, when a block is added. -/
structure Adds (E : ChainEnv) (I : ChainListener κ L) (T : ChainTracker κ L)
    (header : BlockHeader) (proof : TxoProof) (T' : ChainTracker κ L) : Prop where
  stream : StreamMatches E T proof (E.blockHash header)
  validHeader : validateHeader E T.network T.height T.tip.header header = .ok ()
  validProof : validateProof E T.height
    (externalBlockHash proof (E.blockHash header)) T.tip header proof
    (T.outpointWatches false) = .ok ()
  listeners : ∃ txs, proofTransactions proof.proof = .ok txs ∧
    T.listeners.traverse (fun _ => notifyAdd I txs (E.blockHash header)) = .ok T'.listeners
  height : (E.overflow.u32 (T.height + 1) : ChainResult Nat) = .ok T'.height
  headers : T'.headers = T.tip :: T.headers.take (maxReorgSize - 1)
  tip : T'.tip = ⟨header, E.filterHeader proof⟩
  network : T'.network = T.network
  decodeState : T'.decodeState = none

/-- What has been checked, and what the listeners have become, when the tip is removed. -/
structure Removes (E : ChainEnv) (I : ChainListener κ L) (T : ChainTracker κ L)
    (proof : TxoProof) (T' : ChainTracker κ L) : Prop where
  headers : T.headers = T'.tip :: T'.headers
  stream : StreamMatches E T proof (E.blockHash T'.tip.header)
  height : (E.overflow.sub32 T.height 1 : ChainResult Nat) = .ok T'.height
  validHeader : validateHeader E T.network T'.height T'.tip.header T.tip.header = .ok ()
  validProof : validateProof E T'.height
    (externalBlockHash proof (E.blockHash T'.tip.header)) T'.tip
    T.tip.header proof (T.outpointWatches true) = .ok ()
  listeners : ∃ txs, proofTransactions proof.proof = .ok txs ∧
    T.listeners.traverse (fun _ => notifyRemove I txs (E.blockHash T'.tip.header)) =
      .ok T'.listeners
  network : T'.network = T.network
  decodeState : T'.decodeState = none

/-- Adding a block aborts, is refused with only the stream closed, or succeeds. -/
theorem exec_addBlock {header : BlockHeader} {r : ChainResult Unit}
    (h : exec (addBlock E I header proof) T = (r, T')) :
    (∃ message, r = .error (.abort message)) ∨
      (∃ e, r = .error (.refuse e) ∧ StreamMatches E T proof (E.blockHash header) ∧
        T' = { T with decodeState := none }) ∨
      (r = .ok () ∧ Adds E I T header proof T') := by
  unfold addBlock at h
  rw [exec_get_bind] at h
  rcases exec_noRefusal_bind (.lift _) h with habort | ⟨T₁, hfinish, h⟩
  · exact .inl habort
  obtain ⟨hstream, rfl⟩ := maybeFinishDecodingBlock_eq_ok.mp (lift_eq_ok.mp hfinish)
  rw [exec_set_bind] at h
  rcases exec_lift_bind_iff.mp h with ⟨e, hx, rfl, rfl⟩ | ⟨u, hvalid, h⟩
  · cases e with
    | abort message => exact .inl ⟨message, rfl⟩
    | refuse e => exact .inr (.inl ⟨e, rfl, hstream, rfl⟩)
  rcases exec_noRefusal_bind (.lift _) h with habort | ⟨txs, htxs, h⟩
  · exact .inl habort
  rcases exec_noRefusal_bind (.lift _) h with habort | ⟨T₂, hnotify, h⟩
  · exact .inl habort
  rcases exec_noRefusal_bind (.uint _ _ _) h with habort | ⟨height, hheight, h⟩
  · exact .inl habort
  obtain ⟨hheader, hproof⟩ := validateBlock_eq_ok.mp hvalid
  obtain ⟨listeners, hlisteners, hT₂⟩ := bind_ok (lift_eq_ok.mp hnotify)
  obtain rfl := pure_eq_ok.mp hT₂
  cases h
  exact .inr (.inr ⟨rfl, {
    stream := hstream
    validHeader := hheader
    validProof := hproof
    listeners := ⟨txs, lift_eq_ok.mp htxs, hlisteners⟩
    height := hheight
    headers := rfl
    tip := rfl
    network := rfl
    decodeState := rfl }⟩)

/-- Removing the tip aborts, is refused with at most the stream closed, or succeeds. -/
theorem exec_removeBlock {r : ChainResult BlockHeader}
    (h : exec (removeBlock E I proof) T = (r, T')) :
    (∃ message, r = .error (.abort message)) ∨
      (∃ e, r = .error (.refuse e) ∧
        ((T.headers = [] ∧ e = .reorgTooDeep ∧ T' = T) ∨
          ∃ prev rest height, T.headers = prev :: rest ∧
            StreamMatches E T proof (E.blockHash prev.header) ∧
            (E.overflow.sub32 T.height 1 : ChainResult Nat) = .ok height ∧
            validateBlock E T height (externalBlockHash proof (E.blockHash prev.header)) prev T.tip
              proof true = .error (.refuse e) ∧ T' = { T with decodeState := none })) ∨
      (r = .ok T.tip.header ∧ Removes E I T proof T') := by
  unfold removeBlock at h
  rw [exec_get_bind] at h
  by_cases hnil : T.headers = []
  · simp only [hnil] at h
    cases h
    exact .inr (.inl ⟨_, rfl, .inl ⟨hnil, rfl, rfl⟩⟩)
  obtain ⟨prev, rest, hheaders⟩ := List.exists_cons_of_ne_nil hnil
  simp only [hheaders] at h
  rcases exec_noRefusal_bind (.lift _) h with habort | ⟨T₁, hfinish, h⟩
  · exact .inl habort
  obtain ⟨hstream, rfl⟩ := maybeFinishDecodingBlock_eq_ok.mp (lift_eq_ok.mp hfinish)
  rw [exec_set_bind] at h
  rcases exec_noRefusal_bind (.sub32 _ _ _) h with habort | ⟨height, hheight, h⟩
  · exact .inl habort
  rcases exec_lift_bind_iff.mp h with ⟨e, hx, rfl, rfl⟩ | ⟨u, hvalid, h⟩
  · cases e with
    | abort message => exact .inl ⟨message, rfl⟩
    | refuse e =>
      exact .inr (.inl ⟨e, rfl,
        .inr ⟨prev, rest, height, hheaders, hstream, hheight, hx, rfl⟩⟩)
  rcases exec_noRefusal_bind (.lift _) h with habort | ⟨txs, htxs, h⟩
  · exact .inl habort
  rcases exec_noRefusal_bind (.lift _) h with habort | ⟨T₂, hnotify, h⟩
  · exact .inl habort
  rcases exec_noRefusal_bind (.sub32 _ _ _) h with habort | ⟨height', hheight', h⟩
  · exact .inl habort
  obtain ⟨hheader, hproof⟩ := validateBlock_eq_ok.mp hvalid
  obtain ⟨listeners, hlisteners, hT₂⟩ := bind_ok (lift_eq_ok.mp hnotify)
  obtain rfl := pure_eq_ok.mp hT₂
  obtain rfl : height = height' := Except.ok.inj (hheight.symm.trans hheight')
  rw [exec_set_bind, exec_pure] at h
  cases h
  exact .inr (.inr ⟨rfl, {
    headers := hheaders
    stream := hstream
    height := hheight
    validHeader := hheader
    validProof := hproof
    listeners := ⟨txs, lift_eq_ok.mp htxs, hlisteners⟩
    network := rfl
    decodeState := rfl }⟩)

/-- The tip is removed when every check passes and every listener takes notice. -/
theorem exec_removeBlock_ok {prev : Headers} {rest : List Headers} {txs : Option (List Transaction)}
    {listeners : Table κ (L × ListenSlot)} (hheaders : T.headers = prev :: rest)
    (hstream : StreamMatches E T proof (E.blockHash prev.header))
    (hheight : (E.overflow.sub32 T.height 1 : ChainResult Nat) = .ok height)
    (hvalid : validateBlock E T height
      (externalBlockHash proof (E.blockHash prev.header)) prev T.tip
      proof true = .ok ()) (htxs : proofTransactions proof.proof = .ok txs)
    (hlisteners : T.listeners.traverse (fun _ => notifyRemove I txs (E.blockHash prev.header)) =
      .ok listeners) :
    exec (removeBlock E I proof) T = (.ok T.tip.header, { T with
      headers := rest
      tip := prev
      height := height
      listeners := listeners
      decodeState := none }) := by
  unfold removeBlock
  rw [exec_get_bind]
  simp only [hheaders]
  refine exec_lift_bind_iff.mpr (.inr ⟨_, lift_eq_ok.mpr
    (maybeFinishDecodingBlock_eq_ok.mpr ⟨hstream, rfl⟩), ?_⟩)
  rw [exec_set_bind]
  refine exec_lift_bind_iff.mpr (.inr ⟨_, hheight, ?_⟩)
  refine exec_lift_bind_iff.mpr (.inr ⟨(), hvalid, ?_⟩)
  refine exec_lift_bind_iff.mpr (.inr ⟨_, lift_eq_ok.mpr htxs, ?_⟩)
  refine exec_lift_bind_iff.mpr (.inr ⟨_, lift_eq_ok.mpr
    (bind_eq_ok.mpr ⟨listeners, hlisteners, rfl⟩), ?_⟩)
  refine exec_lift_bind_iff.mpr (.inr ⟨_, hheight, ?_⟩)
  rw [exec_set_bind]
  rfl

end ChainTracker

end ValidatingSigner
