import Mathlib.Logic.Function.Basic
import Vls.Chain.Tracker
import Vls.Keys.Manager
import Vls.Node.Restore

/-!
# What persisters store

The entries for a node, its payment state, its allowlist, its tracker and its channels, and the
errors a persister can return.  The same entries are written by every persister; each of them
serializes them as JSON.
-/

namespace ValidatingSigner

open Base

/-- The error of a persister. -/
inductive PersistError where
  | unavailable (message : String)
  | notFound (message : String)
  | alreadyExists (message : String)
  | internal (message : String)
  deriving DecidableEq

/-- An operation of a persister on its store. -/
abbrev PersistOp (σ : Type) := Effect σ PersistError

/-- The bytes of a public key. -/
def PublicKey.serialize (key : PublicKey) : List UInt8 := beBytes 33 key.bytes

/-! ## Nodes -/

/-- The number of a key derivation style. -/
def KeyDerivationStyle.toByte : KeyDerivationStyle → Nat
  | native => 1
  | ldk => 2
  | lnd => 3

/-- The name of a network. -/
def Network.toName : Network → String
  | bitcoin => "bitcoin"
  | testnet => "testnet"
  | signet => "signet"
  | regtest => "regtest"

/-- How a node is configured. -/
structure NodeConfig where
  network : Network
  keyDerivationStyle : KeyDerivationStyle
  useCheckpoints : Bool
  deriving DecidableEq

/-- A node as it is stored. -/
structure Persist.NodeEntry where
  keyDerivationStyle : Nat
  network : String
  deriving DecidableEq

/-- The entry of a node. -/
def Persist.NodeEntry.ofConfig (config : NodeConfig) : Persist.NodeEntry where
  keyDerivationStyle := config.keyDerivationStyle.toByte
  network := config.network.toName

/-- A node as it is read back, with its payment state. -/
structure Persist.CoreNodeEntry where
  keyDerivationStyle : Nat
  network : String
  state : NodeState

/-- What is read back of a node. -/
def Persist.NodeEntry.withState (entry : Persist.NodeEntry) (sha256 : Bytes32 → Bytes32)
    (state : NodeStateEntry) : Persist.CoreNodeEntry where
  keyDerivationStyle := entry.keyDerivationStyle
  network := entry.network
  state := .restore sha256 state 0

/-! ## Channels -/

/-- A channel that is not ready yet. -/
structure ChannelStub where
  id0 : ChannelId
  blockheight : Nat
  deriving DecidableEq

/-- What changes of a ready channel, and what is stored with it. -/
structure ReadyChannel where
  id0 : ChannelId
  id : Option ChannelId
  setup : ChannelSetup
  enforcementState : EnforcementState
  deriving DecidableEq

namespace Persist

/-- A channel as it is stored, under its first identifier. -/
structure ChannelEntry where
  channelValueSatoshis : Nat
  channelSetup : Option ChannelSetup
  id : Option ChannelId
  enforcementState : EnforcementState
  blockheight : Option Nat
  deriving DecidableEq

/-- The entry of a stub. -/
def ChannelEntry.ofStub (stub : ChannelStub) : ChannelEntry where
  channelValueSatoshis := 0
  channelSetup := none
  id := none
  enforcementState := .new 0
  blockheight := some stub.blockheight

/-- The entry of a ready channel. -/
def ChannelEntry.ofChannel (channel : ReadyChannel) : ChannelEntry where
  channelValueSatoshis := channel.setup.channelValueSat
  channelSetup := some channel.setup
  id := channel.id
  enforcementState := channel.enforcementState
  blockheight := none

end Persist

/-! ## Trackers -/

/-- A tracker as it is stored. -/
structure ChainTrackerEntry where
  headers : List Headers
  tip : Headers
  height : Nat
  network : Network
  listeners : Table OutPoint (Monitor.State × ListenSlot)

namespace ChainTrackerEntry

/-- The state of a monitor as it is stored, without the block it is reading. -/
def storedState (s : Monitor.State) : Monitor.State := { s with decodeState := none }

/-- The entry of a tracker, without the block that is being streamed. -/
def ofTracker (T : MonitorTracker) : ChainTrackerEntry where
  headers := T.headers
  tip := T.tip
  height := T.height
  network := T.network
  listeners := T.listeners.mapValues fun _ entry => (storedState entry.1.state, entry.2)

/-- The tracker of an entry. -/
def intoTracker (entry : ChainTrackerEntry) : MonitorTracker where
  headers := entry.headers
  tip := entry.tip
  height := entry.height
  network := entry.network
  listeners := entry.listeners.mapValues fun outpoint stored => (⟨outpoint, stored.1⟩, stored.2)
  decodeState := none

end ChainTrackerEntry

/-! ## Formats -/

/-- The serialization of the entries. -/
structure Json where
  node : Codec Persist.NodeEntry
  state : Codec NodeStateEntry
  tracker : Codec ChainTrackerEntry
  allowlist : Codec (List String)
  channel : Codec Persist.ChannelEntry

/-- Every entry is read back as it was written. -/
structure Json.Lawful (J : Json) : Prop where
  node : J.node.Lawful
  state : J.state.Lawful
  tracker : J.tracker.Lawful
  allowlist : J.allowlist.Lawful
  channel : J.channel.Lawful

/-! ## What a store is for

A store remembers the last entry of every kind that was written for a node.  No call on it fails. -/

namespace Persist

/-- A call of a persister that writes, for one node. -/
inductive PersistCall where
  | newNode (config : NodeConfig) (state : NodeState)
  | updateNode (state : NodeState)
  | newChannel (stub : ChannelStub)
  | deleteChannel (channelId : ChannelId)
  | newChainTracker (tracker : MonitorTracker)
  | updateTracker (tracker : MonitorTracker)
  | updateChannel (channel : ReadyChannel)
  | updateNodeAllowlist (allowlist : List String)

/-- What is stored for a node. -/
structure Contents where
  node : Option NodeEntry
  state : Option NodeStateEntry
  tracker : Option ChainTrackerEntry
  allowlist : Option (List String)
  channels : ChannelId → Option ChannelEntry

namespace Contents

/-- Nothing is stored. -/
def empty : Contents := ⟨none, none, none, none, fun _ => none⟩

/-- What is stored after a call. -/
def apply (c : Contents) : PersistCall → Contents
  | .newNode config state =>
    { c with node := some (.ofConfig config), state := some (.ofState state) }
  | .updateNode state => { c with state := some (.ofState state) }
  | .newChannel stub =>
    { c with channels := Function.update c.channels stub.id0 (some (.ofStub stub)) }
  | .deleteChannel channelId =>
    { c with channels := Function.update c.channels channelId none }
  | .newChainTracker tracker => { c with tracker := some (.ofTracker tracker) }
  | .updateTracker tracker => { c with tracker := some (.ofTracker tracker) }
  | .updateChannel channel =>
    { c with channels := Function.update c.channels channel.id0 (some (.ofChannel channel)) }
  | .updateNodeAllowlist allowlist => { c with allowlist := some allowlist }

end Contents

end Persist

end ValidatingSigner
