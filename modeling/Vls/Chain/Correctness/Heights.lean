import Vls.Chain.Sample

/-!
# Monitor heights

Every monitor counts the blocks by itself from the height at which it was registered.  Its height is
that of the tracker as long as no channel is registered after the header of a streamed block has
been read.
-/

namespace ValidatingSigner

open Base Monitor ChainMonitor

namespace ChainTracker

variable {E : ChainEnv} {T T' : MonitorTracker}

/-- The monitor is reading the block with this hash if any event of it has been reported. -/
def Begun (hash : BlockHash) (events : List PushEvent) (s : State) : Prop :=
  events ≠ [] → ∃ d, s.decodeState = some d ∧ d.blockHash = hash

/-- Every monitor is at the height of the tracker, and is reading the block that is streamed. -/
structure InStep (E : ChainEnv) (T : MonitorTracker) : Prop where
  heights : ∀ key entry, T.listeners.lookup key = some entry → entry.1.state.height = T.height
  streamed : ∀ state, T.decodeState = some state → ∃ events, E.decoded state.bytes = some events ∧
    ∀ key entry, T.listeners.lookup key = some entry → Begun state.blockHash events entry.1.state

/-- A channel is registered before any event of a streamed block has been reported. -/
def RegisteredInTime (E : ChainEnv) (T : MonitorTracker) : ChainEvent → Prop
  | .readyChannel _ => ∀ state, T.decodeState = some state → E.decoded state.bytes = some []
  | _ => True

/-! ## One event -/

variable {hash : BlockHash}

/-- The next event of a block keeps the monitor reading it. -/
theorem Begun.push {before : List PushEvent} {event : PushEvent} {s s' : State}
    {header : BlockHeader} {txs : List Transaction}
    (hblock : before ++ [event] <+: blockEvents E.txid header txs)
    (hchecked : checkStreamedHash E hash event = .ok ()) (hbegun : Begun hash before s)
    (h : s.push E.blockHash event = .ok s') : Begun hash (before ++ [event]) s' := by
  intro _
  by_cases hnil : before = []
  · subst hnil
    obtain rfl := eq_blockStart_of_first hblock
    cases h
    exact ⟨_, rfl, assert_eq_ok.mp hchecked⟩
  · obtain ⟨d, hd, hhash⟩ := hbegun hnil
    rw [State.push_of_some hd (inner_of_later hnil hblock)] at h
    obtain ⟨d', hread, h⟩ := bind_ok h
    cases h
    exact ⟨d', rfl, (State.blockHash_readEvent hread).trans hhash⟩

theorem InStep.registered (h : InStep E T) (fundingOutpoint : OutPoint)
    (hintime : RegisteredInTime E T (.readyChannel fundingOutpoint)) :
    InStep E (T.registered fundingOutpoint) where
  heights key entry hentry := by
    rw [lookup_registered] at hentry
    by_cases hkey : key = fundingOutpoint
    · rw [if_pos hkey] at hentry
      cases hentry
      rfl
    · rw [if_neg hkey] at hentry
      exact h.heights key entry hentry
  streamed state hstate := by
    refine ⟨[], hintime state hstate, fun _ _ _ hne => absurd rfl hne⟩

theorem InStep.fundingSigned (h : InStep E T) (tx : Transaction) :
    InStep E (T.fundingSigned E tx) := by
  have hsame (key : OutPoint) (entry : ChainMonitor × ListenSlot)
      (hentry : (T.fundingSigned E tx).listeners.lookup key = some entry) :
      ∃ entry₀, T.listeners.lookup key = some entry₀ ∧
        entry.1.state.height = entry₀.1.state.height ∧
        entry.1.state.decodeState = entry₀.1.state.decodeState := by
    rw [lookup_fundingSigned] at hentry
    obtain ⟨entry₀, hentry₀, rfl⟩ := Option.map_eq_some_iff.mp hentry
    refine ⟨entry₀, hentry₀, ?_⟩
    by_cases hfunds : key.txid = E.txid tx ∧ key.vout < tx.output.length
    · rw [if_pos hfunds]
      exact ⟨rfl, rfl⟩
    · rw [if_neg hfunds]
      exact ⟨rfl, rfl⟩
  have hframe := fundingSigned_frame (E := E) T tx
  constructor
  · intro key entry hentry
    obtain ⟨entry₀, hentry₀, hheight, -⟩ := hsame key entry hentry
    rw [hframe, hheight]
    exact h.heights key entry₀ hentry₀
  · intro state hstate
    rw [hframe] at hstate
    obtain ⟨events, hevents, hbegun⟩ := h.streamed state hstate
    refine ⟨events, hevents, fun key entry hentry hne => ?_⟩
    obtain ⟨entry₀, hentry₀, -, hdecode⟩ := hsame key entry hentry
    rw [hdecode]
    exact hbegun key entry₀ hentry₀ hne

section

variable (hlaw : LawfulDecoder E) (h : InStep E T) {chunk bytes : List UInt8}
  {events : List PushEvent} {proof : TxoProof}

include hlaw h

/-- What the decoder has reported when a chunk arrives. -/
theorem InStep.before (hstreams : Streams E T hash chunk bytes events T') :
    ∃ before, E.decoded bytes = some before ∧
      ∀ key entry, T.listeners.lookup key = some entry → Begun hash before entry.1.state := by
  rcases hstreams.before with ⟨-, rfl⟩ | ⟨state, hstate, rfl, rfl⟩
  · exact ⟨[], hlaw.empty, fun _ _ _ hne => absurd rfl hne⟩
  · exact h.streamed state hstate

theorem InStep.streams (hstreams : Streams E T hash chunk bytes events T') : InStep E T' := by
  obtain ⟨before, hbefore, hbegun⟩ := h.before hlaw hstreams
  have hafter := hstreams.induction hlaw (P := Begun hash)
    (fun _ _ _ _ _ _ hblock hchecked => Begun.push hblock hchecked) hbefore hbegun
  constructor
  · intro key entry' hentry'
    obtain ⟨entry, hentry, state, hstate, rfl⟩ := hstreams.listeners.backward key entry' hentry'
    rw [hstreams.same.2.2.1, ← h.heights key entry hentry]
    change state.height = entry.1.state.height
    rw [State.pushAll_frame hstate]
  · intro state hstate
    obtain ⟨state', hstate', rfl, hbytes⟩ := hstreams.after
    obtain rfl := Option.some.inj (hstate.symm.trans hstate')
    rw [hbytes]
    exact ⟨events, hstreams.decoded, hafter⟩

/-- A monitor that is told of a block is reading it. -/
theorem InStep.reading (hstream : StreamMatches E T proof hash) {txs : Option (List Transaction)}
    (htxs : proofTransactions proof.proof = .ok txs) {key : OutPoint}
    {entry : ChainMonitor × ListenSlot} (hentry : T.listeners.lookup key = some entry) {s : State}
    (hs : reading E entry.1.state txs hash = .ok s) :
    s.height = T.height ∧ ∃ d, s.decodeState = some d := by
  rw [← h.heights key entry hentry]
  cases txs with
  | some txs =>
    obtain ⟨-, rfl⟩ := reading_some.mp hs
    exact ⟨rfl, _, rfl⟩
  | none =>
    cases hs
    refine ⟨rfl, ?_⟩
    have hexternal : proof.proof.isExternal = true := by
      rcases hproof : proof.proof with _ | _ | _
      · rw [hproof] at htxs
        cases htxs
      · rw [hproof] at htxs
        cases htxs
      · rfl
    rw [hstream.external] at hexternal
    obtain ⟨state, hstate⟩ := Option.isSome_iff_exists.mp hexternal
    obtain ⟨events, hevents, hbegun⟩ := h.streamed state hstate
    obtain ⟨header, txs, rfl⟩ := hlaw.finished _ _ (hstream.finished state hstate).1 hevents
    obtain ⟨d, hd, -⟩ := hbegun key entry hentry (by simp [blockEvents])
    exact ⟨d, hd⟩

theorem InStep.adds {header : BlockHeader} (hadds : Adds E (listener E) T header proof T') :
    InStep E T' := by
  obtain ⟨txs, htxs, hlisteners⟩ := hadds.listeners
  constructor
  · intro key entry' hentry'
    obtain ⟨entry, hentry, hnotice⟩ :=
      (Pointwise.of_traverse hlisteners).backward key entry' hentry'
    obtain ⟨s, s', adds, removes, hs, hend, rfl⟩ := notifyAdd_eq_ok.mp hnotice
    obtain ⟨hheight, d, hd⟩ := h.reading hlaw hadds.stream htxs hentry hs
    obtain ⟨-, -, height, hnext, hr⟩ := (State.onAddBlockEnd_eq_ok hd).mp hend
    obtain ⟨rfl, -, -⟩ := Prod.mk.inj hr
    rw [hheight] at hnext
    exact (Overflow.eq_mod_of_uint hnext).trans (Overflow.eq_mod_of_uint hadds.height).symm
  · intro state hstate
    rw [hadds.decodeState] at hstate
    cases hstate

theorem InStep.removes (hremoves : Removes E (listener E) T proof T') : InStep E T' := by
  obtain ⟨txs, htxs, hlisteners⟩ := hremoves.listeners
  constructor
  · intro key entry' hentry'
    obtain ⟨entry, hentry, hnotice⟩ :=
      (Pointwise.of_traverse hlisteners).backward key entry' hentry'
    obtain ⟨s, s', adds, removes, hs, hend, rfl⟩ := notifyRemove_eq_ok.mp hnotice
    obtain ⟨hheight, d, hd⟩ := h.reading hlaw hremoves.stream htxs hentry hs
    obtain ⟨-, -, height, hnext, hr⟩ := (State.onRemoveBlockEnd_eq_ok hd).mp hend
    obtain ⟨rfl, -, -⟩ := Prod.mk.inj hr
    rw [hheight] at hnext
    exact Overflow.sub32_unique hnext hremoves.height
  · intro state hstate
    rw [hremoves.decodeState] at hstate
    cases hstate

end

/-! ## Whole runs -/

theorem InStep.of_new {network : Network} {start : Nat} {tip : Headers}
    (hnew : ChainTracker.new E network start tip = .ok T) : InStep E T := by
  obtain ⟨_, -, hT⟩ := bind_ok hnew
  cases hT
  exact ⟨fun _ _ hentry => (nomatch hentry), fun _ hstate => (nomatch hstate)⟩

/-- An event that succeeds keeps the monitors in step unless it registers a channel too late. -/
theorem InStep.stepped (hlaw : LawfulDecoder E) (h : InStep E T) {event : ChainEvent}
    (hstepped : Stepped E T event T') (hintime : RegisteredInTime E T event) : InStep E T' := by
  cases hstepped with
  | readyChannel fundingOutpoint => exact h.registered fundingOutpoint hintime
  | fundingSigned tx => exact h.fundingSigned tx
  | blockChunk offset hstreams => exact h.streams hlaw hstreams
  | addBlock hadds => exact h.adds hlaw hadds
  | removeBlock hremoves => exact h.removes hlaw hremoves

/-- In every run whose calls succeed and that registers no channel after the header of a streamed
block has been read, every monitor is at the height of the tracker. -/
theorem monitor_heights_agree (hlaw : LawfulDecoder E) {network : Network} {start : Nat}
    {tip : Headers} (hnew : ChainTracker.new E network start tip = .ok T)
    (events : List ChainEvent) (hrun : ∀ x ∈ (chainMachine E).trace T events,
      x.answer = .ok () ∧ RegisteredInTime E x.before x.event)
    (key : OutPoint) (entry : ChainMonitor × ListenSlot)
    (hentry : ((chainMachine E).final T events).listeners.lookup key = some entry) :
    entry.1.state.height = ((chainMachine E).final T events).height :=
  ((chainMachine E).final_induction (InStep.of_new hnew)
    (fun _ _ hstate hx => hstate.stepped hlaw (ChainTracker.stepped hx.1) hx.2) events hrun).heights
      key entry hentry

open ChainSample

/-- The channel becomes ready, then an empty block is streamed and added. -/
def sampleInTime : List ChainEvent :=
  [.readyChannel ⟨7, 0⟩, .blockChunk 1 0 [0], .blockChunk 1 1 [0],
   .addBlock (header 1 0) externalProof]

/-- A channel that is registered before the stream is at the height of the tracker. -/
theorem monitor_heights_agree_sample :
    (((chainMachine (streaming (header 1 0) [])).final tracker
      sampleInTime).listeners.lookup ⟨7, 0⟩).isSome = true ∧
    ∀ entry, ((chainMachine (streaming (header 1 0) [])).final
        tracker sampleInTime).listeners.lookup ⟨7, 0⟩ = some entry →
      entry.1.state.height =
        ((chainMachine (streaming (header 1 0) [])).final
        tracker sampleInTime).height := by
  refine ⟨rfl, monitor_heights_agree (lawful _ _)
    (rfl : ChainTracker.new _ .regtest 0 ⟨header 0 0, 1⟩ = .ok tracker)
    sampleInTime ?_ ⟨7, 0⟩⟩
  intro x hx
  simp only [sampleInTime, Machine.trace_cons, Machine.trace_nil, List.mem_cons, List.not_mem_nil,
    or_false] at hx
  rcases hx with rfl | rfl | rfl | rfl
  · exact ⟨rfl, fun _ h => nomatch h⟩
  · exact ⟨rfl, trivial⟩
  · exact ⟨rfl, trivial⟩
  · exact ⟨rfl, trivial⟩

/-- The channel becomes ready between the header and the end of a streamed block. -/
def sampleLate : List ChainEvent :=
  [.blockChunk 1 0 [0], .readyChannel ⟨7, 0⟩, .blockChunk 1 1 [0],
   .addBlock (header 1 0) externalProof]

/-- A channel that is registered in the middle of a streamed block stays one block behind. -/
theorem monitor_height_lags :
    ((chainMachine (streaming (header 1 0) [])).trace tracker
      sampleLate).map (·.answer) = [.ok (), .ok (), .ok (), .ok ()] ∧
    ((chainMachine (streaming (header 1 0) [])).final tracker
      sampleLate).decodeState = none ∧
    ((chainMachine (streaming (header 1 0) [])).final tracker
      sampleLate).height = 1 ∧
    (((chainMachine (streaming (header 1 0) [])).final tracker
      sampleLate).listeners.lookup ⟨7, 0⟩).map (·.1.state.height) = some 0 :=
  ⟨rfl, rfl, rfl, rfl⟩

end ChainTracker

end ValidatingSigner
