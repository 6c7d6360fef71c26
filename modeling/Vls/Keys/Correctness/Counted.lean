import Vls.Enforcement.State
import Vls.Keys.Correctness.Stability

/-!
# The balance of a node

The node sums the balances of its channels entry by entry.  A channel that becomes ready under
another identifier has two entries and is counted twice; in a run in which none does, every channel
is counted once.
-/

namespace ValidatingSigner

open Base

/-- Sum channel balances. -/
def ChannelBalance.accumulate (o : Overflow) (sum other : ChannelBalance) :
    Result ChannelBalance := do
  let claimable ← o.u64 (sum.claimable + other.claimable)
  let receivedHtlc ← o.u64 (sum.receivedHtlc + other.receivedHtlc)
  let offeredHtlc ← o.u64 (sum.offeredHtlc + other.offeredHtlc)
  let sweeping ← o.u64 (sum.sweeping + other.sweeping)
  let channelCount ← o.u32 (sum.channelCount + other.channelCount)
  let receivedHtlcCount ← o.u32 (sum.receivedHtlcCount + other.receivedHtlcCount)
  let offeredHtlcCount ← o.u32 (sum.offeredHtlcCount + other.offeredHtlcCount)
  return ⟨claimable, receivedHtlc, offeredHtlc, sweeping, channelCount, receivedHtlcCount,
    offeredHtlcCount⟩

section Balance

variable {ξ : Type} (o : Overflow) (hasPreimage : PaymentHash → Bool)
  (states : ChannelId → EnforcementState)

/-- Add the balances of the ready channels of a list, each in the state its channel has. -/
def sumBalances (sum : ChannelBalance) : List ChannelSlot → Result ChannelBalance
  | [] => .ok sum
  | .stub _ _ _ :: slots => sumBalances sum slots
  | .ready id0 _ _ setup :: slots => do
    let balance ← (states id0).balance o hasPreimage setup
    let sum ← sum.accumulate o balance
    sumBalances sum slots

/-- The entries of the map of channels, in the order of their identifiers. -/
def KeyMemory.slots (memory : KeyMemory ξ) : List (ChannelId × ChannelSlot) :=
  (memory.channels.entries.map fun s => (s.1, s.2)).insertionSort fun a b => a.1.bytes ≤ b.1.bytes

/-- The balance that a node reports. -/
def KeyMemory.channelBalance (memory : KeyMemory ξ) : Result ChannelBalance :=
  sumBalances o hasPreimage states .zero (memory.slots.map Prod.snd)

end Balance

/-- The list has every channel in memory once. -/
structure KeyMemory.EachOnce {ξ : Type} (memory : KeyMemory ξ) (slots : List ChannelSlot) :
    Prop where
  once : (slots.map ChannelSlot.id0).Nodup
  all : ∀ slot, slot ∈ slots ↔ ∃ id, memory.channels.lookup id = some slot

/-- A channel does not become ready under an identifier other than its first. -/
def KeyEvent.KeepsId : KeyEvent → Prop
  | .readyChannel channelId0 optChannelId _ _ => optChannelId.getD channelId0 = channelId0
  | _ => True

/-! ## Channels under one identifier -/

namespace KeyNode

variable {ξ : Type} {N : KeyNode ξ} {s s' : KeyState ξ} {memory memory' : KeyMemory ξ}

/-- Channels in memory are found under their first identifier only. -/
def Plain (channels : Table ChannelId ChannelSlot) : Prop :=
  ∀ id slot, channels.lookup id = some slot → slot.id0 = id

/-- No stored channel has an identifier other than its first. -/
def PlainStore (store : ChannelStore) : Prop :=
  ∀ id0 entry id, store.lookup id0 = some entry → entry.id = some id → id = id0

theorem Plain.insert {channels : Table ChannelId ChannelSlot} (h : Plain channels)
    {id0 : ChannelId} {slot : ChannelSlot} (hslot : slot.id0 = id0) :
    Plain (channels.insert id0 slot) := by
  intro id found hfound
  rw [Table.lookup_insert_eq] at hfound
  split_ifs at hfound with hid
  · rw [← Option.some.inj hfound, hslot, hid]
  · exact h id found hfound

theorem PlainStore.insert {store : ChannelStore} (h : PlainStore store) {id0 : ChannelId}
    {entry : StoredChannel} (hentry : ∀ id, entry.id = some id → id = id0) :
    PlainStore (store.insert id0 entry) := by
  intro first entry' id hlookup hid
  rcases stored_insert hlookup with ⟨rfl, rfl⟩ | ⟨-, hold⟩
  · exact hentry id hid
  · exact h first entry' id hold hid

/-- Every channel of such a memory has one entry. -/
theorem Plain.eachOnce (h : Plain memory.channels) :
    memory.EachOnce (memory.slots.map Prod.snd) := by
  constructor
  · have hids : (memory.slots.map Prod.snd).map ChannelSlot.id0 = memory.slots.map Prod.fst := by
      rw [List.map_map]
      exact List.map_congr_left fun x hx => h x.1 x.2 (Table.mem_sorted.mp hx)
    rw [hids]
    exact Table.nodup_sorted memory.channels
  · intro slot
    simp only [KeyMemory.slots, List.mem_map, Prod.exists, exists_eq_right, Table.mem_sorted]

/-! ## Steps -/

theorem restoreChannels_plain {blockheight : Nat} {stored : List (ChannelId × StoredChannel)}
    (hstored : ∀ x ∈ stored, ∀ id, x.2.id = some id → id = x.1) (h : Plain memory.channels)
    (hrestore : N.restoreChannels blockheight stored memory = .ok memory') :
    Plain memory'.channels := by
  induction stored generalizing memory with
  | nil => exact Except.ok.inj hrestore ▸ h
  | cons x rest ih =>
    obtain ⟨id0, entry⟩ := x
    obtain ⟨next, hnext, hrestore⟩ := bind_ok hrestore
    refine ih (fun x hx => hstored x (List.mem_cons_of_mem _ hx)) ?_ hrestore
    obtain ⟨_, -, hnext⟩ := bind_ok hnext
    obtain ⟨⟨signer, manager⟩, -, hnext⟩ := bind_ok hnext
    rw [← pure_eq_ok.mp hnext]
    have hslot : (restoredSlot blockheight id0 entry signer).id0 = id0 := by
      rw [restoredSlot]
      split <;> rfl
    cases hid : entry.id with
    | none => exact h.insert hslot
    | some id =>
      obtain rfl := hstored _ List.mem_cons_self id hid
      exact (h.insert hslot).insert hslot

/-- The node runs with such a memory, or is down, and its store is such a store. -/
structure PlainHost (host : KeyHost ξ) : Prop where
  memory : ∀ memory ∈ host.memory, Plain memory.channels
  store : PlainStore host.store

theorem PlainHost.serve {α : Type} {host : KeyHost ξ} {reply : Result α → KeyReply}
    {operation : Effect (KeyState ξ) Refusal α} (h : PlainHost host)
    (hcall : ∀ memory r s', Plain memory.channels →
      Effect.exec operation ⟨memory, host.store⟩ = (r, s') →
      Plain s'.memory.channels ∧ PlainStore s'.store) :
    PlainHost (host.serve reply operation).1 := by
  obtain ⟨-, hserve⟩ | ⟨memory, r, s', hmemory, hexec, -, hstore, hafter⟩ :=
    serve_cases host reply operation
  · rw [hserve]
    exact h
  · obtain ⟨hchannels, hplain⟩ := hcall memory r s' (h.memory memory hmemory) hexec
    exact ⟨fun m hm => hafter m hm ▸ hchannels, hstore ▸ hplain⟩

theorem PlainHost.keyStep {host : KeyHost ξ} {event : KeyEvent} (h : PlainHost host)
    (hevent : event.KeepsId) : PlainHost (N.keyStep host event).1 := by
  cases event with
  | newChannel optChannelId blockheight =>
    refine h.serve fun memory r s' hmemory hexec => ?_
    cases exec_newChannel hexec with
    | failed huntouched => exact ⟨huntouched.channels ▸ hmemory, huntouched.store ▸ h.store⟩
    | found huntouched hold => exact ⟨huntouched.channels ▸ hmemory, huntouched.store ▸ h.store⟩
    | made hchosen hroom hnew hderived hstate =>
      rw [hstate]
      exact ⟨hmemory.insert rfl, h.store.insert (by rintro id ⟨⟩)⟩
  | readyChannel channelId0 optChannelId setup path =>
    refine h.serve fun memory r s' hmemory hexec => ?_
    cases exec_readyChannel hexec with
    | failed huntouched => exact ⟨huntouched.channels ▸ hmemory, huntouched.store ▸ h.store⟩
    | found huntouched hold => exact ⟨huntouched.channels ▸ hmemory, huntouched.store ▸ h.store⟩
    | made hold hstored hstate =>
      have hchanId := hevent
      rw [hstate]
      constructor
      · rw [insertReady, hchanId, if_neg (not_not_intro rfl)]
        exact hmemory.insert rfl
      · refine h.store.insert fun id hid => ?_
        rw [show optChannelId = some id from hid] at hchanId
        exact hchanId
  | pruneChannels currentBlockheight =>
    rw [KeyNode.keyStep]
    refine h.serve fun memory r s' hmemory hexec => ?_
    obtain ⟨-, rfl⟩ := Prod.mk.inj hexec
    constructor
    · intro id slot hlookup
      rw [pruneChannels, Table.lookup_retain, Option.filter_eq_some_iff] at hlookup
      exact hmemory id slot hlookup.1
    · intro id0 entry id hlookup
      rw [pruneChannels, Table.lookup_retain, Option.filter_eq_some_iff] at hlookup
      exact h.store id0 entry id hlookup.1
  | spendOutputs descriptors affordable =>
    refine h.serve fun memory r s' hmemory hexec => ?_
    rw [spendOutputs, Effect.exec_get_bind, Effect.exec_lift_bind_iff] at hexec
    obtain ⟨e, -, -, rfl⟩ | ⟨⟨signers, manager⟩, -, hexec⟩ := hexec
    · exact ⟨hmemory, h.store⟩
    · obtain ⟨-, rfl⟩ := Prod.mk.inj hexec
      exact ⟨hmemory, h.store⟩
  | restart secs nanos blockheight =>
    rw [KeyNode.keyStep]
    split
    · rename_i memory hrestore
      refine ⟨fun m hm => ?_, h.store⟩
      cases hm
      obtain ⟨manager, -, hrestore⟩ := bind_ok hrestore
      refine restoreChannels_plain (fun x hx id => ?_) ?_ hrestore
      · exact h.store x.1 x.2 id (ChannelStore.mem_getNodeChannels.mp hx)
      · rintro id slot ⟨⟩
    · exact ⟨by rintro m ⟨⟩, h.store⟩

end KeyNode

/-! ## Runs -/

/-- In every run in which no channel becomes ready under an identifier other than its first, the
balance that the node reports is the sum over its channels, each counted once. -/
theorem channel_balance_counted_once {ξ : Type} (N : KeyNode ξ) (manager : KeysManager ξ)
    (events : List KeyEvent) (hevents : ∀ event ∈ events, event.KeepsId) (o : Overflow)
    (hasPreimage : PaymentHash → Bool) (states : ChannelId → EnforcementState) :
    ∀ memory ∈ (N.keyMachine.final (KeyNode.newKeyHost manager) events).memory,
      ∃ slots, memory.EachOnce slots ∧ memory.channelBalance o hasPreimage states =
        sumBalances o hasPreimage states .zero slots := by
  intro memory hmemory
  have hplain : KeyNode.PlainHost (N.keyMachine.final (KeyNode.newKeyHost manager) events) := by
    refine N.keyMachine.final_induction (C := fun x => x.event.KeepsId) ⟨fun m hm => ?_, nofun⟩
      (fun host event h hevent => h.keyStep hevent) events
      fun x hx => hevents _ (N.keyMachine.event_mem_of_mem_trace hx)
    rw [← Option.some.inj hm]
    exact nofun
  exact ⟨_, (hplain.memory memory hmemory).eachOnce, rfl⟩

namespace Keys.Sample

/-- A channel is created and becomes ready, with an identifier or without. -/
def createReady (optChannelId : Option ChannelId) : List KeyEvent :=
  [.newChannel (some (channel 1)) 0, .readyChannel (channel 1) optChannelId setup []]

/-- A state with both commitments. -/
def committed : EnforcementState :=
  { EnforcementState.new 0 with
    currentHolderCommitInfo := some ⟨false, ⟨0⟩, 300000, ⟨0⟩, ⟨0⟩, 600000, 144, [], [], 1000⟩
    currentCounterpartyCommitInfo := some ⟨true, ⟨0⟩, 600000, ⟨0⟩, ⟨0⟩, 300000, 144, [], [], 1000⟩ }

/-- The balance that a node reports, its channels being in this state. -/
def reported (optChannelId : Option ChannelId) : Option (Result ChannelBalance) :=
  ((node .native).keyMachine.final (KeyNode.newKeyHost manager)
    (createReady optChannelId)).memory.map fun memory =>
      memory.channelBalance .checked (fun _ => false) fun _ => committed

end Keys.Sample

open Keys.Sample in
/-- A channel without a permanent identifier is counted once. -/
theorem channel_balance_counted_once_sample :
    reported none = some (committed.balance .checked (fun _ => false) setup) ∧
      ∀ memory ∈ ((node .native).keyMachine.final (KeyNode.newKeyHost manager)
        (createReady none)).memory, ∃ slots, memory.EachOnce slots :=
  ⟨by decide +kernel, fun memory hmemory =>
    let ⟨slots, honce, _⟩ := channel_balance_counted_once (node .native) manager
      (createReady none)
      (List.forall_mem_cons.mpr ⟨trivial, List.forall_mem_cons.mpr ⟨rfl, nofun⟩⟩) .checked
      (fun _ => false) (fun _ => committed) memory hmemory
    ⟨slots, honce⟩⟩

open Keys.Sample in
/-- A channel with a permanent identifier is counted twice. -/
theorem channel_balance_counted_twice :
    committed.balance .checked (fun _ => false) setup =
        .ok ⟨700000, 0, 0, 0, 1, 0, 0⟩ ∧
      reported (some (channel 2)) = some (.ok ⟨1400000, 0, 0, 0, 2, 0, 0⟩) := by
  decide +kernel

end ValidatingSigner
