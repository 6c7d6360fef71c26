import Mathlib.Data.List.TakeWhile
import Vls.Chain.Correctness.Heights
import Vls.Chain.Tracked

/-!
# Closings are detected

The closing depth a channel's monitor reports is that of the transaction that spends the funding
outpoint, through all blocks and reorganizations.  The exceptions are a block that both funds and
closes the channel, since the monitor learns the funding outpoint only at the end of that block, and
a second channel with the same funding outpoint, whose monitor takes the place of the first one's.
-/

namespace ValidatingSigner

open Base Monitor

namespace ChainTracker

variable {E : ChainEnv} {W : World E} {T T' : MonitorTracker}

/-! ## Fundings and closings -/

variable {key : OutPoint} {entry : ChainMonitor × ListenSlot} {event : ChainEvent}

/-- An added block does not both fund and close a channel. -/
def Apart (W : World E) (T : MonitorTracker) : ChainEvent → Prop
  | .addBlock header _ => ∀ key entry, T.listeners.lookup key = some entry →
    ¬ ((∃ tx ∈ W.body header, Funds E key tx) ∧ ∃ tx ∈ W.body header, Spends tx key)
  | _ => True

instance (W : World E) (T : MonitorTracker) : (event : ChainEvent) → Decidable (Apart W T event)
  | .addBlock _ _ => decidable_of_iff _ (Table.forall_lookup _ _).symm
  | .removeBlock _ => inferInstanceAs (Decidable True)
  | .readyChannel _ => inferInstanceAs (Decidable True)
  | .fundingSigned _ => inferInstanceAs (Decidable True)
  | .blockChunk _ _ _ => inferInstanceAs (Decidable True)

/-- A channel is registered before its funding transaction confirms. -/
def RegisteredBefore (W : World E) (T : MonitorTracker) : ChainEvent → Prop
  | .readyChannel fundingOutpoint => ∀ depth, ¬ At (Funds E fundingOutpoint) (chainOf W T) depth
  | _ => True

instance (W : World E) (T : MonitorTracker) :
    (event : ChainEvent) → Decidable (RegisteredBefore W T event)
  | .readyChannel fundingOutpoint =>
    decidable_of_iff (¬ ∃ tx ∈ history (chainOf W T), Funds E fundingOutpoint tx) (by
      rw [← exists_at, not_exists]
      rfl)
  | .addBlock _ _ => inferInstanceAs (Decidable True)
  | .removeBlock _ => inferInstanceAs (Decidable True)
  | .fundingSigned _ => inferInstanceAs (Decidable True)
  | .blockChunk _ _ _ => inferInstanceAs (Decidable True)

/-- No channel has been funded or closed without its monitor knowing it. -/
def Known (W : World E) (T : MonitorTracker) : Prop :=
  ∀ key entry, T.listeners.lookup key = some entry →
    KnowsFunding E key (chainOf W T) entry.1.state ∧ KnowsClosing key (chainOf W T) entry.1.state

/-- A monitor in step does not ignore the block that is added. -/
theorem InStep.not_ignored (hlaw : LawfulDecoder E) (h : InStep E T) {header : BlockHeader}
    {proof : TxoProof} (hadds : Adds E (ChainMonitor.listener E) T header proof T')
    (hstreamed : proof.proof.isExternal = true) (hentry : T.listeners.lookup key = some entry) :
    entry.1.state.isNotReadyForPush = false := by
  have htxs : proofTransactions proof.proof = .ok none := by
    rcases hproof : proof.proof with _ | _ | _
    · rw [hproof] at hstreamed
      cases hstreamed
    · rw [hproof] at hstreamed
      cases hstreamed
    · rfl
  obtain ⟨-, d, hd⟩ := h.reading hlaw hadds.stream htxs hentry rfl
  exact State.isNotReadyForPush_eq_false hd

theorem InStep.idle (h : InStep E T) : InStep E { T with decodeState := none } :=
  ⟨h.heights, fun _ hstate => nomatch hstate⟩

theorem InStep.proper (hlaw : LawfulDecoder E) (h : InStep E T)
    (hproper : Proper W ((chainMachine E).entry T event)) (hintime : RegisteredInTime E T event) :
    InStep E ((chainMachine E).step T event).1 := by
  rcases stepped_or_refused hproper.answered with hstepped | heq | heq
  · exact h.stepped hlaw hstepped hintime
  · rw [heq]
    exact h
  · rw [heq]
    exact h.idle

/-- After a proper step every funding and closing is known, if channels are registered in time and
no block both funds and closes one. -/
theorem Known.step (hlaw : LawfulDecoder E) (htracks : Tracks W T) (hinstep : InStep E T)
    (h : Known W T) (hproper : Proper W ((chainMachine E).entry T event))
    (hregistered : RegisteredBefore W T event) (hapart : Apart W T event) :
    Known W ((chainMachine E).step T event).1 := by
  have hconsensus := consensus_step htracks.consensus hproper
  have hfits := hproper.fits
  intro key entry' hentry'
  cases hproper.origin htracks.stream hentry' with
  | registered hevent hchain =>
    subst hevent
    rw [hchain]
    exact ⟨fun _ => hregistered, fun hfunded => nomatch hfunded⟩
  | kept hentry hchain =>
    rw [hchain]
    exact h key _ hentry
  | signed hevent hfunds hentry hchain =>
    rw [hchain]
    have hknown := h key _ hentry
    exact hknown
  | read hentry hread hchain =>
    rw [hchain]
    obtain ⟨state, hstate, rfl⟩ := hread
    rw [State.pushAll_frame hstate]
    have hknown := h key _ hentry
    exact hknown
  | @added entry _ header proof hevent hadds hentry hnotice hchain =>
    subst hevent
    rw [hchain] at hconsensus ⊢
    have hfollows := (htracks.listeners key entry hentry).follows
    obtain ⟨hfunding, hclosing⟩ := h key entry hentry
    have hapart := hapart key entry hentry
    cases hnotice with
    | ignored hstreamed hready =>
      -- A monitor that is in step has read the start of the block.
      rw [hinstep.not_ignored hlaw hadds hstreamed hentry] at hready
      cases hready
    | noticed hcovers hdetected _ _ hsafe hheight =>
      simp only [raised_eq (hfits key _ hentry) hheight]
      exact ⟨hfunding.add hfollows hdetected hcovers,
        hclosing.add hfollows hdetected hconsensus hcovers hapart⟩
  | @removed entry _ proof hevent hentry hnotice hchain =>
    subst hevent
    have hfollows := (htracks.listeners key entry hentry).follows
    have hvalid := htracks.consensus
    have hknown := h key entry hentry
    rw [hchain] at hfollows hvalid hknown
    obtain ⟨hcovers, hchanges, hsafe, hheight⟩ := hnotice
    have hdetected := hchanges ▸ State.Detected.of_changesOf _ _
    simp only [lowered_eq (hfits key entry hentry) hheight]
    exact ⟨hknown.1.remove hfollows hvalid hcovers.sublist hdetected,
      hknown.2.remove hfollows hvalid hcovers.sublist hdetected⟩

/-! ## Reported depths -/

theorem depth_eq (o : Overflow) {height : Nat} (hfits : height + 1 < 2 ^ 32) {recorded : Option Nat}
    (hle : ∀ h, recorded = some h → h ≤ height) :
    ChainMonitor.depth o height recorded = .ok ((recorded.map (height + 1 - ·)).getD 0) := by
  cases recorded with
  | none => rfl
  | some h =>
    have hh := hle h rfl
    have hnext : (o.u32 (height + 1) : Asserted Nat) = .ok (height + 1) :=
      Overflow.uint_of_lt o hfits
    simp only [ChainMonitor.depth, hnext, Overflow.sub32]
    exact if_pos (Nat.le_succ_of_le hh)

/-- A listener that agrees with the chain reports its state without overflow. -/
theorem Tracked.asChainState {chain : Chain} (h : Tracked W chain key entry)
    (hfits : entry.1.state.height + 1 < 2 ^ 32) (o : Overflow) :
    entry.1.asChainState o = .ok ⟨entry.1.state.height,
      (entry.1.state.fundingHeight.map (entry.1.state.height + 1 - ·)).getD 0,
      (entry.1.state.fundingDoubleSpentHeight.map (entry.1.state.height + 1 - ·)).getD 0,
      (entry.1.state.closingHeight.map (entry.1.state.height + 1 - ·)).getD 0⟩ := by
  simp only [ChainMonitor.asChainState,
    depth_eq o hfits fun height hheight => (h.follows.funded height hheight).1,
    depth_eq o hfits fun height hheight => (h.guards.recorded height hheight).1,
    depth_eq o hfits fun height hheight => (h.follows.closed height hheight).1]
  rfl

/-! ## The monitors of the channels -/

/-- A channel is registered with a funding outpoint that no other channel has. -/
def RegisteredOnce (T : MonitorTracker) : ChainEvent → Prop
  | .readyChannel fundingOutpoint => T.listeners.lookup fundingOutpoint = none
  | _ => True

/-- Whether an event registers a channel with the given funding outpoint. -/
def ChainEvent.registers (key : OutPoint) : ChainEvent → Bool
  | .readyChannel fundingOutpoint => decide (fundingOutpoint = key)
  | _ => false

/-- The monitor of a channel that was registered with a funding outpoint, after more events.  The
channel and the tracker share it, until another channel is registered with the outpoint: the tracker
then follows the new monitor, and the old one stays as it is. -/
def channelMonitor (E : ChainEnv) (T : MonitorTracker) (key : OutPoint)
    (events : List ChainEvent) : Option ChainMonitor :=
  (((chainMachine E).final T (events.takeWhile fun event => !event.registers key)).listeners.lookup
    key).map (·.1)

/-- No step drops a listener. -/
theorem Stepped.exists_lookup (h : Stepped E T event T')
    (hentry : T.listeners.lookup key = some entry) :
    ∃ entry', T'.listeners.lookup key = some entry' := by
  cases h with
  | readyChannel fundingOutpoint =>
    rw [lookup_registered]
    split_ifs
    · exact ⟨_, rfl⟩
    · exact ⟨entry, hentry⟩
  | fundingSigned tx =>
    rw [lookup_fundingSigned, hentry]
    exact ⟨_, rfl⟩
  | blockChunk offset h =>
    obtain ⟨entry', hentry', -⟩ := h.listeners.forward key entry hentry
    exact ⟨entry', hentry'⟩
  | addBlock h | removeBlock h =>
    obtain ⟨txs, -, hlisteners⟩ := h.listeners
    obtain ⟨entry', -, hentry'⟩ := Table.lookup_of_traverse hlisteners hentry
    exact ⟨entry', hentry'⟩

/-- A proper step that registers channels before their funding transaction confirms, before a
streamed block begins and with a funding outpoint of their own, and adds no block that both funds
and closes a channel. -/
structure Watched (W : World E) (x : Entry MonitorTracker ChainEvent (ChainResult Unit)) :
    Prop where
  proper : Proper W x
  inTime : RegisteredInTime E x.before x.event
  before : RegisteredBefore W x.before x.event
  once : RegisteredOnce x.before x.event
  apart : Apart W x.before x.event

/-- A registered channel keeps its listener, and no other channel is registered with its
outpoint. -/
theorem lookup_of_watched (hentry : T.listeners.lookup key = some entry) {events : List ChainEvent}
    (hrun : ∀ x ∈ (chainMachine E).trace T events, Watched W x) :
    (∃ entry', ((chainMachine E).final T events).listeners.lookup key = some entry') ∧
      ∀ event ∈ events, event.registers key = false := by
  induction events generalizing T entry with
  | nil => exact ⟨⟨entry, hentry⟩, nofun⟩
  | cons event events ih =>
    have hwatched : Watched W ((chainMachine E).entry T event) := hrun _ List.mem_cons_self
    obtain ⟨entry', hentry'⟩ :
        ∃ entry', ((chainMachine E).step T event).1.listeners.lookup key = some entry' := by
      rcases stepped_or_refused hwatched.proper.answered with hstepped | heq | heq
      · exact hstepped.exists_lookup hentry
      · exact ⟨entry, by rw [heq]; exact hentry⟩
      · exact ⟨entry, by rw [heq]; exact hentry⟩
    obtain ⟨hfinal, hafter⟩ := ih hentry' fun x hx => hrun x (List.mem_cons_of_mem _ hx)
    refine ⟨hfinal, List.forall_mem_cons.mpr ⟨?_, hafter⟩⟩
    cases event with
    | readyChannel fundingOutpoint =>
      have honce : T.listeners.lookup fundingOutpoint = none := hwatched.once
      refine decide_eq_false fun hsame => ?_
      rw [hsame, hentry] at honce
      cases honce
    | _ => rfl

/-- The monitor of a channel is the tracker's listener for its outpoint through all such steps. -/
theorem channelMonitor_of_watched {before after : List ChainEvent}
    (hrun : ∀ x ∈ (chainMachine E).trace T (before ++ .readyChannel key :: after), Watched W x) :
    ∃ entry, ((chainMachine E).final T
        (before ++ .readyChannel key :: after)).listeners.lookup key = some entry ∧
      channelMonitor E ((chainMachine E).final T (before ++ [.readyChannel key])) key after =
        some entry.1 := by
  rw [List.append_cons, Machine.trace_append] at hrun
  rw [List.append_cons, Machine.final_append]
  have hready : ((chainMachine E).final T (before ++ [.readyChannel key])).listeners.lookup key =
      some (.ready key ((chainMachine E).final T before).height, ⟨{key.txid}, ∅, ∅⟩) := by
    rw [Machine.final_append]
    generalize (chainMachine E).final T before = T
    change (settle T (readyChannel E T key)).1.listeners.lookup key = _
    rw [readyChannel_eq]
    exact (lookup_registered _ key key).trans (if_pos rfl)
  obtain ⟨⟨entry, hentry⟩, hafter⟩ := lookup_of_watched (W := W) hready fun x hx =>
    hrun x (List.mem_append_right _ hx)
  refine ⟨entry, hentry, ?_⟩
  have hall : after.takeWhile (fun event => !event.registers key) = after :=
    List.takeWhile_eq_self_iff.mpr fun event hevent => by rw [hafter event hevent, Bool.not_false]
  rw [channelMonitor, hall, hentry]
  rfl

/-- Monitors that agree with the chain and know every funding and closing. -/
structure Aware (W : World E) (T : MonitorTracker) : Prop where
  tracks : Tracks W T
  inStep : InStep E T
  known : Known W T

theorem Aware.of_new {network : Network} {start : Nat} {tip : Headers}
    (hnew : ChainTracker.new E network start tip = .ok T)
    (hvalid : ConsensusValid E.txid (W.chain (E.blockHash tip.header))) : Aware W T := by
  have hempty : T.listeners = ∅ := by
    obtain ⟨_, -, hT⟩ := bind_ok hnew
    cases hT
    rfl
  refine ⟨Tracks.of_new hnew hvalid, InStep.of_new hnew, fun _ _ hentry => ?_⟩
  rw [hempty] at hentry
  cases hentry

theorem Aware.step (hlaw : LawfulDecoder E) (h : Aware W T)
    (hwatched : Watched W ((chainMachine E).entry T event)) :
    Aware W ((chainMachine E).step T event).1 where
  tracks := h.tracks.step hlaw hwatched.proper
  inStep := h.inStep.proper hlaw hwatched.proper hwatched.inTime
  known := h.known.step hlaw h.tracks h.inStep hwatched.proper hwatched.before hwatched.apart

/-- A monitor that is aware of the chain has recorded a closing exactly when the funding outpoint is
spent. -/
theorem Aware.closingHeight (h : Aware W T) {key : OutPoint} {entry : ChainMonitor × ListenSlot}
    (hentry : T.listeners.lookup key = some entry) :
    (∃ height, entry.1.state.closingHeight = some height) ↔
      ∃ depth, At (Spends · key) (chainOf W T) depth := by
  have hfollows := (h.tracks.listeners key entry hentry).follows
  constructor
  · rintro ⟨height, hheight⟩
    exact ⟨_, (hfollows.closed height hheight).2.1⟩
  · rintro ⟨depth, hat⟩
    by_contra hnone
    have hopen : entry.1.state.closingHeight = none := by
      rcases hclosing : entry.1.state.closingHeight with _ | height
      · rfl
      · exact absurd ⟨height, hclosing⟩ hnone
    by_cases hfunded : entry.1.state.fundingHeight.isSome = true
    · exact (h.known key entry hentry).2 hfunded hopen depth hat
    · obtain ⟨tx, htx, hspends⟩ := exists_at.mp ⟨depth, hat⟩
      obtain ⟨parent, hparent, hid⟩ :=
        h.tracks.consensus.exists_parent hfollows.notNull htx hspends
      have hfunds : ∃ tx ∈ history (chainOf W T), Funds E key tx := ⟨parent, hparent, hid⟩
      obtain ⟨depth', hat'⟩ := exists_at.mpr hfunds
      exact (h.known key entry hentry).1 (Option.not_isSome_iff_eq_none.mp hfunded) depth' hat'

/-- In every run that registers channels in time and with outpoints of their own and adds no block
that both funds and closes a channel, the closing depth that the monitor of a channel reports is
positive exactly when the funding outpoint is spent in the chain, and counts the blocks from the one
that spends it to the tip. -/
theorem closing_depth_reported (hlaw : LawfulDecoder E) (W : World E) {network : Network}
    {start : Nat} {tip : Headers} (hnew : ChainTracker.new E network start tip = .ok T)
    (hvalid : ConsensusValid E.txid (W.chain (E.blockHash tip.header)))
    (events before after : List ChainEvent) (key : OutPoint)
    (hevents : events = before ++ .readyChannel key :: after)
    (hrun : ∀ x ∈ (chainMachine E).trace T events, Watched W x)
    (hfits : ((chainMachine E).final T events).height + 1 < 2 ^ 32) :
    ∃ monitor state,
      channelMonitor E ((chainMachine E).final T (before ++ [.readyChannel key])) key after =
        some monitor ∧
      monitor.asChainState E.overflow = .ok state ∧
      state.currentHeight = ((chainMachine E).final T events).height ∧
      (0 < state.closingDepth ↔
        ∃ depth, At (Spends · key) (chainOf W ((chainMachine E).final T events)) depth) ∧
      ∀ depth, At (Spends · key) (chainOf W ((chainMachine E).final T events)) depth →
        depth ≤ ((chainMachine E).final T events).height ∧ state.closingDepth =
          state.currentHeight + 1 - (((chainMachine E).final T events).height - depth) := by
  have haware : Aware W ((chainMachine E).final T events) :=
    (chainMachine E).final_induction (Aware.of_new hnew hvalid)
      (fun _ _ hstate hx => hstate.step hlaw hx) events hrun
  obtain ⟨entry, hentry, hmonitor⟩ := channelMonitor_of_watched (hevents ▸ hrun)
  rw [← hevents] at hentry
  generalize (chainMachine E).final T events = T' at *
  have htracked := haware.tracks.listeners key entry hentry
  have hheight := haware.inStep.heights key entry hentry
  have hclosing := haware.closingHeight hentry
  refine ⟨entry.1, _, hmonitor, htracked.asChainState (hheight ▸ hfits) _, hheight, ?_, ?_⟩
  · rw [← hclosing]
    rcases hc : entry.1.state.closingHeight with _ | height
    · simp
    · have := (htracked.follows.closed height hc).1
      simp only [Option.map_some, Option.getD_some, Option.some.injEq, exists_eq', iff_true]
      omega
  · intro depth hat
    obtain ⟨height, hc⟩ := hclosing.mpr ⟨depth, hat⟩
    obtain ⟨hle, hat', -⟩ := htracked.follows.closed height hc
    have hdepth := haware.tracks.consensus.depth_unique htracked.follows.notNull hat hat'
    simp only [hc, Option.map_some, Option.getD_some]
    omega

open ChainSample

/-- The channel is funded and closed, the closing block is removed and comes back. -/
def sampleRun : List ChainEvent :=
  [.readyChannel ⟨7, 0⟩,
   .addBlock (header 1 0) (filterProof [funding]),
   .addBlock (header 2 1) (filterProof [closing]),
   .removeBlock (filterProof [closing]),
   .addBlock (header 2 1) (filterProof [closing])]

theorem Watched.of_ok {x : Entry MonitorTracker ChainEvent (ChainResult Unit)}
    (hanswer : x.answer = .ok ()) (hdelivered : Delivered W x.before x.event)
    (hsane : Sane W x.event) (hfits : Fits x.before x.event)
    (hinTime : RegisteredInTime E x.before x.event)
    (hbefore : RegisteredBefore W x.before x.event) (honce : RegisteredOnce x.before x.event)
    (hapart : Apart W x.before x.event) : Watched W x :=
  ⟨⟨hdelivered, hsane, hfits, fun _ h => by rw [hanswer] at h; cases h⟩, hinTime, hbefore, honce,
    hapart⟩

theorem sampleRun_watched :
    ∀ x ∈ (chainMachine quiet).trace tracker sampleRun, Watched closedWorld x := by
  intro x hx
  simp only [sampleRun, Machine.trace_cons, Machine.trace_nil, List.mem_cons, List.not_mem_nil,
    or_false] at hx
  rcases hx with rfl | rfl | rfl | rfl | rfl
  · exact .of_ok rfl trivial (show (⟨7, 0⟩ : OutPoint) ≠ .null by decide) trivial
      (fun _ h => (nomatch h)) (by decide) rfl trivial
  · exact .of_ok rfl ⟨⟨0, by decide, rfl⟩, by decide⟩ trivial (by decide) trivial trivial trivial
      (by decide)
  · exact .of_ok rfl ⟨⟨1, by decide, rfl⟩, by decide⟩ trivial (by decide) trivial trivial trivial
      (by decide)
  · exact .of_ok rfl ⟨⟨1, by decide, rfl⟩, by decide⟩ trivial (by decide) trivial trivial trivial
      trivial
  · exact .of_ok rfl ⟨⟨1, by decide, rfl⟩, by decide⟩ trivial (by decide) trivial trivial trivial
      (by decide)

/-- The closing of the sample channel is reported with depth one. -/
theorem closing_depth_reported_sample :
    ∃ monitor state, channelMonitor quiet
        ((chainMachine quiet).final tracker [.readyChannel ⟨7, 0⟩]) ⟨7, 0⟩ (sampleRun.drop 1) =
          some monitor ∧
      monitor.asChainState .checked = .ok state ∧ state.closingDepth = 1 := by
  have hnew : ChainTracker.new quiet .regtest 0 ⟨header 0 0, 1⟩ =
      .ok tracker := rfl
  obtain ⟨monitor, state, hmonitor, hstate, hheight, -, hdepth⟩ := closing_depth_reported
    lawful_quiet closedWorld hnew (ConsensusValid.of_validHistory (by decide)) sampleRun [] _ ⟨7, 0⟩
    rfl sampleRun_watched (by decide)
  refine ⟨monitor, state, hmonitor, hstate, ?_⟩
  rw [(hdepth 0 ⟨[closing], rfl, closing, List.mem_cons_self, by decide⟩).2,
    hheight]
  decide

/-- A chain that funds and closes the sample channel with a single block. -/
def sampleWorldAtOnce : World quiet :=
  world [[funding, closing]] (by decide)
    (ConsensusValid.of_validHistory (by decide))

/-- The channel is registered before the block that funds and closes it. -/
def sampleRunAtOnce : List ChainEvent :=
  [.readyChannel ⟨7, 0⟩,
   .addBlock (header 1 0)
     (filterProof [funding, closing])]

/-- A channel that is funded and closed by the same block is never reported as closed. -/
theorem closing_missed :
    (∀ x ∈ (chainMachine quiet).trace tracker sampleRunAtOnce,
      x.answer = .ok () ∧ Proper sampleWorldAtOnce x ∧
        RegisteredInTime quiet x.before x.event ∧
        RegisteredBefore sampleWorldAtOnce x.before x.event) ∧
    At (Spends · ⟨7, 0⟩) (chainOf sampleWorldAtOnce ((chainMachine quiet).final
      tracker sampleRunAtOnce)) 0 ∧
    ∃ entry state, ((chainMachine quiet).final tracker
        sampleRunAtOnce).listeners.lookup ⟨7, 0⟩ = some entry ∧
      entry.1.asChainState .checked = .ok state ∧ state.closingDepth = 0 := by
  refine ⟨?_, ⟨[funding, closing], rfl, closing, by decide,
    by decide⟩, ?_⟩
  · intro x hx
    simp only [sampleRunAtOnce, Machine.trace_cons, Machine.trace_nil, List.mem_cons,
      List.not_mem_nil, or_false] at hx
    rcases hx with rfl | rfl
    · exact ⟨rfl, ⟨trivial, show (⟨7, 0⟩ : OutPoint) ≠ .null by decide, trivial,
        fun _ h => (nomatch h)⟩, fun _ h => (nomatch h), by decide⟩
    · exact ⟨rfl, ⟨⟨⟨0, by decide, rfl⟩, by decide⟩, trivial, by decide, fun _ h => (nomatch h)⟩,
        trivial, trivial⟩
  · exact ⟨_, _, rfl, rfl, rfl⟩

end ChainTracker

end ValidatingSigner
