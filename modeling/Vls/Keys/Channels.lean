import Mathlib.Data.List.Sort
import Vls.Base.Effect
import Vls.Base.Machine
import Vls.Base.Table
import Vls.Keys.Manager

/-!
# The channels of a node and their keys

A channel starts as a stub, which gets its keys; the keys move on to the ready channel.  The store
keeps no keys: after a restart every stored channel gets its keys again, in the order of the store.
-/

namespace ValidatingSigner

open Base

/-- How many blocks a stub is kept. -/
def CHANNEL_STUB_PRUNE_BLOCKS : Nat := 6

/-- A channel, before and after it is ready. -/
inductive ChannelSlot where
  | stub (id0 : ChannelId) (signer : KeyedSigner) (blockheight : Nat)
  | ready (id0 : ChannelId) (id : Option ChannelId) (signer : KeyedSigner) (setup : ChannelSetup)
  deriving DecidableEq

namespace ChannelSlot

/-- The identifier the channel was created with. -/
def id0 : ChannelSlot → ChannelId
  | stub id0 _ _ => id0
  | ready id0 _ _ _ => id0

/-- The signer of the channel. -/
def signer : ChannelSlot → KeyedSigner
  | stub _ signer _ => signer
  | ready _ _ signer _ => signer

/-- Whether the channel is a stub that has not become ready for some blocks. -/
def isPrunable (currentBlockheight : Nat) : ChannelSlot → Bool
  | stub _ _ blockheight => currentBlockheight - blockheight > CHANNEL_STUB_PRUNE_BLOCKS
  | ready _ _ _ _ => false

end ChannelSlot

/-- A channel as it is stored. -/
structure StoredChannel where
  channelValueSatoshis : Nat
  channelSetup : Option ChannelSetup
  id : Option ChannelId
  blockheight : Option Nat
  deriving DecidableEq

/-- The stored channels of a node. -/
abbrev ChannelStore := Table ChannelId StoredChannel

namespace ChannelStore

/-- Store a new stub. -/
def newChannel (store : ChannelStore) (id0 : ChannelId) (blockheight : Nat) : Result ChannelStore :=
  do
    assert (id0 ∉ store) "new transaction"
    return store.insert id0 ⟨0, none, none, some blockheight⟩

/-- Store a channel that has become ready. -/
def updateChannel (store : ChannelStore) (id0 : ChannelId) (id : Option ChannelId)
    (setup : ChannelSetup) : Result ChannelStore := do
  assert (id0 ∈ store) "update transaction"
  return store.insert id0 ⟨setup.channelValueSat, some setup, id, none⟩

/-- The stored channels in the order of the bytes of their identifiers. -/
def getNodeChannels (store : ChannelStore) : List (ChannelId × StoredChannel) :=
  (store.entries.map fun s => (s.1, s.2)).insertionSort fun a b => a.1.bytes ≤ b.1.bytes

end ChannelStore

/-- The channels of a running node, by all their identifiers, and its keys manager. -/
structure KeyMemory (ξ : Type) where
  manager : KeysManager ξ
  channels : Table ChannelId ChannelSlot

/-- A running node and its store. -/
structure KeyState (ξ : Type) where
  memory : KeyMemory ξ
  store : ChannelStore

namespace KeyNode

variable {ξ : Type} (N : KeyNode ξ)

/-- The identifier of a new channel: the given one, or one that the manager makes up. -/
def chooseChannelId (manager : KeysManager ξ) :
    Option ChannelId → Result (ChannelId × KeysManager ξ)
  | some channelId => .ok (channelId, manager)
  | none => N.getChannelId manager

/-- Create a stub, unless there is a channel with the identifier. -/
def newChannel (optChannelId : Option ChannelId) (blockheight : Nat) :
    Effect (KeyState ξ) Refusal (ChannelId × ChannelSlot) := do
  let s ← get
  let (channelId, manager) ← Effect.lift (N.chooseChannelId s.memory.manager optChannelId)
  set { s with memory := { s.memory with manager := manager } }
  let count := s.memory.channels.keys.length
  let max := N.maxChannels
  Effect.lift (refuseIf (count ≥ max) (failedPrecondition s!"too many channels ({count} >= {max})"))
  match s.memory.channels.lookup channelId with
  | some slot => return (channelId, slot)
  | none =>
    let (signer, manager) ← Effect.lift (N.getChannelKeysWithId manager channelId 0)
    let stub := ChannelSlot.stub channelId signer blockheight
    let store ← Effect.lift (ChannelStore.newChannel s.store channelId blockheight)
    set (⟨⟨manager, s.memory.channels.insert channelId stub⟩, store⟩ : KeyState ξ)
    return (channelId, stub)

/-- The keys of a stub for a channel of a value. -/
def channelKeysWithChannelValue (signer : KeyedSigner) (channelValueSat : Nat) : KeyedSigner :=
  { signer with channelValueSat := channelValueSat }

/-- The channels after one of them has become ready, under its first identifier and under the
permanent one if it has one. -/
def insertReady (channels : Table ChannelId ChannelSlot) (channelId0 : ChannelId)
    (optChannelId : Option ChannelId) (slot : ChannelSlot) : Table ChannelId ChannelSlot :=
  let chanId := optChannelId.getD channelId0
  let channels := channels.insert chanId slot
  if channelId0 ≠ chanId then channels.insert channelId0 slot else channels

/-- Make a stub a ready channel. -/
def readyChannel (channelId0 : ChannelId) (optChannelId : Option ChannelId) (setup : ChannelSetup)
    (holderShutdownKeyPath : List Nat) : Effect (KeyState ξ) Refusal ChannelSlot := do
  let s ← get
  match s.memory.channels.lookup channelId0 with
  | none =>
    Effect.lift (.error (.refuse (invalidArgument s!"channel does not exist: {channelId0}")))
  | some (.ready id0 id signer oldSetup) =>
    Effect.lift (refuseIf (oldSetup ≠ setup)
      (invalidArgument s!"channel already ready with different setup: {channelId0}"))
    return .ready id0 id signer oldSetup
  | some (.stub _ signer _) =>
    let signer := channelKeysWithChannelValue signer setup.channelValueSat
    let _ ← Effect.lift (setup.toHolderMsat N.overflow)
    Effect.lift (N.validateReadyChannel setup holderShutdownKeyPath)
    let slot := ChannelSlot.ready channelId0 optChannelId signer setup
    let store ← Effect.lift (ChannelStore.updateChannel s.store channelId0 optChannelId setup)
    set (⟨{ s.memory with
      channels := insertReady s.memory.channels channelId0 optChannelId slot }, store⟩ : KeyState ξ)
    return slot

/-- Drop the stubs that have not become ready for some blocks, and what is stored of them. -/
def pruneChannels (currentBlockheight : Nat) (s : KeyState ξ) : KeyState ξ where
  memory := { s.memory with
    channels := s.memory.channels.retain fun _ slot => !slot.isPrunable currentBlockheight }
  store := s.store.retain fun id _ =>
    !(s.memory.channels.lookup id).any (ChannelSlot.isPrunable currentBlockheight)

/-! ## Restarts -/

/-- The channel that a stored entry becomes, a stub or a ready channel. -/
def restoredSlot (blockheight : Nat) (channelId0 : ChannelId) (entry : StoredChannel)
    (signer : KeyedSigner) : ChannelSlot :=
  match entry.channelSetup with
  | none => .stub channelId0 signer (entry.blockheight.getD blockheight)
  | some setup => .ready channelId0 entry.id signer setup

/-- Bring a stored channel back, with keys that are derived for it. -/
def restoreChannel (blockheight : Nat) (memory : KeyMemory ξ) (channelId0 : ChannelId)
    (entry : StoredChannel) : Result (KeyMemory ξ) := do
  assert (channelId0 ∉ memory.channels) "assertion failed: !channels.contains_key(&channel_id0)"
  let (signer, manager) ←
    N.getChannelKeysWithId memory.manager channelId0 entry.channelValueSatoshis
  let slot := restoredSlot blockheight channelId0 entry signer
  let channels := memory.channels.insert channelId0 slot
  let channels := match entry.id with
    | some id => channels.insert id slot
    | none => channels
  return ⟨manager.incrementChannelIdChildIndex, channels⟩

/-- Bring stored channels back one after the other. -/
def restoreChannels (blockheight : Nat) :
    List (ChannelId × StoredChannel) → KeyMemory ξ → Result (KeyMemory ξ)
  | [], memory => .ok memory
  | stored :: rest, memory => do
    let memory ← N.restoreChannel blockheight memory stored.1 stored.2
    restoreChannels blockheight rest memory

/-- Start a node with what is stored. -/
def restoreNode (startingTimeSecs startingTimeNanos blockheight : Nat) (store : ChannelStore) :
    Result (KeyMemory ξ) := do
  let manager ← N.newManager startingTimeSecs startingTimeNanos
  N.restoreChannels blockheight store.getNodeChannels ⟨manager, ∅⟩

end KeyNode

/-! ## Runs -/

/-- What can happen to a node: calls of its methods, and restarts at a time with the chain at a
height. -/
inductive KeyEvent where
  | newChannel (optChannelId : Option ChannelId) (blockheight : Nat)
  | readyChannel (channelId0 : ChannelId) (optChannelId : Option ChannelId) (setup : ChannelSetup)
      (holderShutdownKeyPath : List Nat)
  | pruneChannels (currentBlockheight : Nat)
  | spendOutputs (descriptors : List SpendableOutputDescriptor) (affordable : Bool)
  | restart (startingTimeSecs startingTimeNanos blockheight : Nat)

/-- What an event is answered with. -/
inductive KeyReply where
  | channel (result : Result (ChannelId × ChannelSlot))
  | ready (result : Result ChannelSlot)
  | spent (result : Result (List (Option KeyedSigner)))
  | done
  | down

/-- The signers that an answer hands out or is signed with. -/
def KeyReply.signers : KeyReply → List KeyedSigner
  | channel (.ok (_, slot)) => [slot.signer]
  | ready (.ok slot) => [slot.signer]
  | spent (.ok signers) => signers.reduceOption
  | _ => []

/-- A node that runs or has stopped, and its store. -/
structure KeyHost (ξ : Type) where
  memory : Option (KeyMemory ξ)
  store : ChannelStore

namespace KeyHost

variable {ξ : Type}

/-- The signers in the memory of the node. -/
def signers (host : KeyHost ξ) : List KeyedSigner :=
  match host.memory with
  | none => []
  | some memory => memory.channels.entries.map fun s => s.2.signer

/-- Run an operation; the node stops when it aborts. -/
def serve {α : Type} (host : KeyHost ξ) (reply : Result α → KeyReply)
    (operation : Effect (KeyState ξ) Refusal α) : KeyHost ξ × KeyReply :=
  match host.memory with
  | none => (host, .down)
  | some memory => match Effect.exec operation ⟨memory, host.store⟩ with
    | (.error (.abort message), s) => (⟨none, s.store⟩, reply (.error (.abort message)))
    | (result, s) => (⟨some s.memory, s.store⟩, reply result)

end KeyHost

namespace KeyNode

variable {ξ : Type} (N : KeyNode ξ)

/-- The signers of a transaction that spends outputs. -/
def spendOutputs (descriptors : List SpendableOutputDescriptor) (affordable : Bool) :
    Effect (KeyState ξ) Refusal (List (Option KeyedSigner)) := do
  let s ← get
  let (signers, manager) ←
    Effect.lift (N.spendSpendableOutputs s.memory.manager descriptors affordable)
  set { s with memory := { s.memory with manager := manager } }
  return signers

/-- What an event does. -/
def keyStep (host : KeyHost ξ) : KeyEvent → KeyHost ξ × KeyReply
  | .newChannel optChannelId blockheight =>
    host.serve .channel (N.newChannel optChannelId blockheight)
  | .readyChannel channelId0 optChannelId setup path =>
    host.serve .ready (N.readyChannel channelId0 optChannelId setup path)
  | .pruneChannels currentBlockheight =>
    host.serve (fun _ => .done) (modify (pruneChannels currentBlockheight))
  | .spendOutputs descriptors affordable =>
    host.serve .spent (N.spendOutputs descriptors affordable)
  | .restart secs nanos blockheight => match N.restoreNode secs nanos blockheight host.store with
    | .ok memory => (⟨some memory, host.store⟩, .done)
    | .error _ => (⟨none, host.store⟩, .down)

/-- The machine of a node whose process may end and start again. -/
def keyMachine : Machine (KeyHost ξ) KeyEvent KeyReply := ⟨N.keyStep⟩

/-- A node that has just been set up. -/
def newKeyHost (manager : KeysManager ξ) : KeyHost ξ := ⟨some ⟨manager, ∅⟩, ∅⟩

/-! ## What is derived -/

/-- Where the manager derives the keys of stored channels: the identifiers and the indices. -/
def restoreDerivations : List (ChannelId × StoredChannel) → Nat → List (Bytes32 × Nat)
  | [], _ => []
  | stored :: rest, index =>
    (N.keysId stored.1, index) :: restoreDerivations rest ((index + 1) % 2 ^ 32)

/-- Where a call on a running node derives channel keys. -/
def callDerivations (memory : KeyMemory ξ) : KeyEvent → List (Bytes32 × Nat)
  | .newChannel optChannelId _ => match N.chooseChannelId memory.manager optChannelId with
    | .ok (channelId, _) =>
      if memory.channels.keys.length < N.maxChannels ∧ channelId ∉ memory.channels then
        [(N.keysId channelId, memory.manager.lndBasepointIndex)]
      else []
    | .error _ => []
  | .spendOutputs descriptors affordable => match N.sumInputs descriptors [] 0 with
    | .ok _ =>
      if affordable then inputDerivations descriptors none memory.manager.lndBasepointIndex else []
    | .error _ => []
  | _ => []

/-- Where an event derives channel keys: the identifiers of the keys and the indices that the
manager has then. -/
def derivations (host : KeyHost ξ) (event : KeyEvent) : List (Bytes32 × Nat) :=
  match event with
  | .restart _ _ _ => N.restoreDerivations host.store.getNodeChannels 0
  | event => match host.memory with
    | some memory => N.callDerivations memory event
    | none => []

end KeyNode

end ValidatingSigner

/-! ## A node to evaluate

Its extended keys are their derivation paths and its hashes are polynomials in the bytes. -/

namespace ValidatingSigner.Keys.Sample

open Base

/-- The value of a byte string as a polynomial. -/
def polynomial (bytes : List UInt8) : Bytes32 :=
  BitVec.ofNat 256 (bytes.foldl (fun value byte => value * 257 + byte.toNat + 1) 0)

/-- Functions in the place of those of the Bitcoin library. -/
def library : KeyLibrary (List Nat) where
  sha256 := polynomial
  hmac key message := polynomial (key ++ message)
  newMaster _ _ := some []
  ckdPriv path number := match number with
    | .normal index => some ((2 * index) :: path)
    | .hardened index => some ((2 * index + 1) :: path)
  privateKey path := BitVec.ofNat 256 (path.foldr (fun index value => value * 4096 + index + 1) 0)
  isSecretKey _ := true

/-- A node that derives keys in a style and accepts every setup. -/
def node (style : KeyDerivationStyle) : KeyNode (List Nat) where
  library := library
  style := style
  network := .testnet
  seed := List.replicate 32 7
  overflow := .checked
  maxChannels := 100
  validateReadyChannel _ _ := .ok ()

/-- The manager of the node in the first second. -/
def manager : KeysManager (List Nat) where
  masterKey := []
  channelSeedBase := channelsSeed library (List.replicate 32 7)
  channelIdMasterKey := [11]
  channelIdChildIndex := 0
  lndBasepointIndex := 0
  uniqueStart := beBytes 8 0 ++ beBytes 4 0 ++ List.replicate 32 7

theorem newManager_node (style : KeyDerivationStyle) :
    (node style).newManager 0 0 = .ok manager := by
  cases style with
  | native => rfl
  | ldk => rfl
  | lnd => rfl

/-- The identifier of one byte. -/
def channel (byte : UInt8) : ChannelId := ⟨[byte]⟩

/-- The setup of a channel. -/
def setup : ChannelSetup where
  isOutbound := true
  channelValueSat := 1000000
  pushValueMsat := 0
  fundingOutpoint := ⟨0, 0⟩
  holderSelectedContestDelay := 144
  holderShutdownScript := none
  counterpartyPoints := ⟨⟨20⟩, ⟨21⟩, ⟨22⟩, ⟨23⟩, ⟨24⟩⟩
  counterpartySelectedContestDelay := 144
  counterpartyShutdownScript := none
  commitmentType := .staticRemoteKey

end ValidatingSigner.Keys.Sample
