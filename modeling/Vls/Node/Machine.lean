import Mathlib.Data.Fintype.Basic
import Vls.Channel.Machine

/-!
# A node as a machine

A node serves requests to its channels and requests about payments, one after the other.  All
channels share the payment state of the node.  A call that aborts ends the process.  A sample has
like channels and all its parts given, so that runs can be evaluated.
-/

namespace ValidatingSigner

open Base

/-- A node with its ready channels.  Channels have different identifiers, share the node's validator
and library, and are no more than the policy allows. -/
structure Node where
  library : Library
  policy : SimplePolicy
  validator : Validator
  size : Nat
  channels : Fin size → Channel
  ids_injective : Function.Injective fun i => (channels i).id0
  validator_eq : ∀ i, (channels i).validator = validator
  library_eq : ∀ i, (channels i).library = library
  size_le : size ≤ policy.maxChannels

/-- What a running node holds: its payment state, and the state of each channel in memory and as
stored last. -/
structure NodeMemory (size : Nat) where
  node : NodeState
  estates : Fin size → EnforcementState
  stored : Fin size → EnforcementState

/-- A request to a node. -/
inductive NodeEvent (size : Nat) where
  /-- A request to a channel. -/
  | request (i : Fin size) (call : Call) (request : Request)
  /-- Preimages reported on a channel. -/
  | htlcsFulfilled (i : Fin size) (preimages : List PaymentPreimage)
  | addInvoice (persistOk : Bool) (now : Nat) (invoice : Invoice)
  | addKeysend (persistOk : Bool) (now : Nat) (payee : PublicKey) (paymentHash : PaymentHash)
      (amountMsat : Nat)
  | signInvoice (invoice : Invoice)
  /-- A heartbeat, which prunes payments. -/
  | heartbeat (now : Nat)
  deriving DecidableEq

/-- What a node answers. -/
inductive NodeReply where
  | channel (reply : Reply)
  | fulfilled
  | added (added : Bool)
  | invoiceSigned
  | heartbeat
  deriving DecidableEq

namespace NodeMemory

variable {size : Nat}

/-- The memory after an operation of channel `i`. -/
def write (m : NodeMemory size) (i : Fin size) (s : Session) : NodeMemory size where
  node := s.node
  estates := Function.update m.estates i s.estate
  stored := Function.update m.stored i s.stored

/-- The memory after an operation on the payments, which writes nothing when it fails. -/
def settle {α : Type} (m : NodeMemory size) (reply : α → NodeReply) :
    Result (α × NodeState) → Result NodeReply × NodeMemory size
  | .ok (a, s) => (.ok (reply a), { m with node := s })
  | .error fault => (.error fault, m)

end NodeMemory

namespace Node

variable (N : Node)

/-- How the node's build treats overflow. -/
def overflow : Overflow := N.validator.overflow

/-- The memory of a node whose channels have just been made ready. -/
def initial (s : NodeState) (initialHolderValue : Fin N.size → Nat) : NodeMemory N.size where
  node := s
  estates i := .new (initialHolderValue i)
  stored i := .new (initialHolderValue i)

/-- The session in which channel `i` serves a request. -/
def session (m : NodeMemory N.size) (i : Fin N.size) : Session := ⟨m.estates i, m.node, m.stored i⟩

/-- Serve a request. -/
def serve (m : NodeMemory N.size) : NodeEvent N.size → Result NodeReply × NodeMemory N.size
  | .request i call request =>
    let (r, s) := ((N.channels i).execute call request).exec (N.session m i)
    (r.map .channel, m.write i s)
  | .htlcsFulfilled i preimages =>
    m.settle (fun _ => .fulfilled) (do
      let s ← m.node.htlcsFulfilled N.overflow N.validator (N.channels i).library.sha256 preimages
      return ((), s))
  | .addInvoice persistOk now invoice =>
    m.settle .added (m.node.addInvoice N.overflow N.validator N.policy.maxInvoices persistOk now
      invoice)
  | .addKeysend persistOk now payee paymentHash amountMsat =>
    m.settle .added (m.node.addKeysend N.overflow N.policy.maxInvoices persistOk now payee
      paymentHash amountMsat)
  | .signInvoice invoice =>
    m.settle (fun _ => .invoiceSigned) (do
      let s ← m.node.signInvoice N.policy.maxInvoices invoice
      return ((), s))
  | .heartbeat now =>
    m.settle (fun _ => .heartbeat) (do
      let s ← m.node.prune N.overflow now
      return ((), s))

/-- One request to a node; it has no memory once a call has aborted. -/
def step : Option (NodeMemory N.size) → NodeEvent N.size →
    Option (NodeMemory N.size) × Result NodeReply
  | none, _ => (none, .error (.abort "the signer is not running"))
  | some m, event =>
    match N.serve m event with
    | (.error (.abort text), _) => (none, .error (.abort text))
    | (r, m') => (some m', r)

/-- The node as a machine. -/
def machine : Machine (Option (NodeMemory N.size)) (NodeEvent N.size) (Result NodeReply) := ⟨N.step⟩

end Node

/-- A recorded step of a node. -/
abbrev NodeEntry (size : Nat) :=
  Entry (Option (NodeMemory size)) (NodeEvent size) (Result NodeReply)

/-! ## A node to run -/

namespace Sample

/-- A node whose channels share a validator and a setup. -/
def signer (v : SimpleValidator) (setup : ChannelSetup) (size : Nat)
    (hsize : size ≤ v.policy.maxChannels) : Node where
  library := library
  policy := v.policy
  validator := v.toValidator
  size := size
  channels i := ⟨library, v.toValidator, keys, setup, ⟨List.replicate i.val 0⟩⟩
  ids_injective i j h := Fin.ext (by simpa using congrArg (·.bytes.length) h)
  validator_eq _ := rfl
  library_eq _ := rfl
  size_le := hsize

/-- A node with one channel and the default policy. -/
def oneChannel : Node := signer (validator .wrapping) setup 1 (by decide)

/-- A validator that enforces the balance. -/
def balanceValidator : SimpleValidator :=
  ⟨{ makeSimplePolicy .bitcoin with enforceBalance := true }, .checked, library, checks⟩

/-- A node with one channel that enforces the balance. -/
def balanceSigner : Node := signer balanceValidator setup 1 (by decide)

/-- A node that starts with every channel holding `value` for the holder. -/
def start (N : Node) (value : Nat) : Option (NodeMemory N.size) :=
  some (N.initial node fun _ => value)

/-- An invoice for payment hash 0, the hash of every preimage. -/
def invoice (amountMsat : Nat) : Invoice := ⟨0, 1, amountMsat, ⟨5⟩, 0, durationFromSecs 3600⟩

/-- An HTLC for payment hash 0. -/
def htlc (valueSat : Nat) : HTLCInfo2 := ⟨valueSat, 0, 700100⟩

-- Named, so that the first channel is written alike wherever a run names it.
instance neZeroOne : NeZero 1 := ⟨Nat.one_ne_zero⟩

instance neZeroTwo : NeZero 2 := ⟨Nat.succ_ne_zero 1⟩

/-- Hand over the counterparty's signatures on holder commitment `n` to channel `i`. -/
def holder {size : Nat} (i : Fin size) (n : UInt64) (toHolder toCounterparty : Nat)
    (offered received : List HTLCInfo2) : NodeEvent size :=
  .request i ⟨chain, true⟩ (.validateHolderCommitmentTxPhase2 n 1000 toHolder toCounterparty
    offered received ⟨⟨1⟩, (offered ++ received).map fun _ => ⟨1⟩⟩)

/-- Ask channel `i` for a signature on counterparty commitment `n` under `point`. -/
def counterparty {size : Nat} (i : Fin size) (n : UInt64) (point : PublicKey)
    (toHolder toCounterparty : Nat) (offered received : List HTLCInfo2) : NodeEvent size :=
  .request i ⟨chain, true⟩ (.signCounterpartyCommitmentTxPhase2 point n 1000 toHolder toCounterparty
    offered received)

/-- Hand over the counterparty's secret for commitment `n` to channel `i`. -/
def revoke {size : Nat} (i : Fin size) (n : UInt64) (secret : Bytes32) : NodeEvent size :=
  .request i ⟨chain, true⟩ (.validateCounterpartyRevocation n secret)

/-- The library with another hash function, under which hash 0 has the preimage 1 only. -/
def hashingLibrary : Library := { library with sha256 := fun preimage => preimage - 1 }

/-- A node that uses this library. -/
def hashing (N : Node) : Node where
  library := hashingLibrary
  policy := N.policy
  validator := N.validator
  size := N.size
  channels i := { N.channels i with library := hashingLibrary }
  ids_injective := N.ids_injective
  validator_eq := N.validator_eq
  library_eq _ := rfl
  size_le := N.size_le

end Sample

end ValidatingSigner
