import Vls.Chain.Tracked
import Vls.Chain.Sample

/-!
# Valid blocks do not crash the signer

In every run of valid blocks with valid proofs no call aborts, as long as every transaction that
closes a funded channel has a single input and at most the number of outputs of a commitment
transaction, and every funding transaction has the funding output.
-/

namespace ValidatingSigner

open Base Monitor ChainMonitor NoAbort State Effect List

namespace ChainTracker

variable {E : ChainEnv} {W : World E} {T : MonitorTracker}

/-! ## Tame transactions

Most assertions of the monitors follow from the consensus rules.  The others are about the shape of
single transactions. -/

section Blocks

variable {s : State} {chain : Chain} {key : OutPoint} {proof : TxoProof} {hash : BlockHash}

/-- What a monitor asserts of a transaction. -/
def TameFor (E : ChainEnv) (key : OutPoint) (s : State) (tx : Transaction) : Prop :=
  (s.fundingHeight.isSome = true → Spends tx key →
    tx.input.length = 1 ∧ tx.output.length ≤ maxCommitmentOutputs) ∧
  (Funds E key tx → key.vout < tx.output.length)

instance (E : ChainEnv) (key : OutPoint) (s : State) (tx : Transaction) :
    Decidable (TameFor E key s tx) :=
  inferInstanceAs (Decidable (_ ∧ _))

/-- The transactions of a block meet what every monitor asserts of them. -/
def Tame (E : ChainEnv) (T : MonitorTracker) (body : List Transaction) : Prop :=
  ∀ key entry, T.listeners.lookup key = some entry → ∀ tx ∈ body, TameFor E key entry.1.state tx

instance (E : ChainEnv) (T : MonitorTracker) (body : List Transaction) :
    Decidable (Tame E T body) :=
  decidable_of_iff _ (Table.forall_lookup _ _).symm

/-- A monitor that agrees with the chain can read a tame transaction. -/
theorem Follows.txSafe {fo : OutPoint} {slot : ListenSlot} (h : Follows E fo chain s slot)
    {tx : Transaction} (htame : TameFor E fo s tx) :
    s.TxSafe E.txid tx where
  closing hcloses := by
    obtain ⟨hfunded, hspends⟩ := (closes_iff h.outpoint).mp hcloses
    exact htame.1 hfunded hspends
  funding ind hind := by
    rw [h.txids, idxOf?_cons] at hind
    by_cases hid : fo.txid = E.txid tx
    · obtain rfl : 0 = ind := by simpa [hid] using hind
      exact ⟨fo.vout, by rw [h.vouts]; rfl, htame.2 hid.symm⟩
    · simp [hid] at hind

/-- Closing transactions that can be read have a single input. -/
theorem single_of_txSafe {txs : List Transaction} {changes : List StateChange}
    (hdetected : s.Detected E.txid txs changes) (hsafe : ∀ tx ∈ txs, s.TxSafe E.txid tx) :
    ∀ tx ∈ closings changes, tx.input.length = 1 := by
  intro tx hmem
  rw [hdetected.closings, closings_changesOf, mem_flatMap] at hmem
  obtain ⟨tx', htx', hmem⟩ := hmem
  by_cases hcloses : s.Closes tx'
  · rw [if_pos hcloses, mem_singleton] at hmem
    rw [hmem]
    exact ((hsafe tx' htx').closing hcloses).1
  · rw [if_neg hcloses] at hmem
    exact absurd hmem not_mem_nil

/-! ## Added blocks -/

variable {body : List Transaction} {entry : ChainMonitor × ListenSlot} {header : BlockHeader}

theorem onAddBlockEnd_ok {d : Monitor.BlockDecodeState} (o : Overflow)
    (hd : s.decodeState = some d) (hsafe : s.AddSafe (haveFundingConfirmed d.changes) d.changes)
    (hfits : s.height + 1 < 2 ^ 32) :
    ∃ s' adds removes, s.onAddBlockEnd o d.blockHash = .ok (s', adds, removes) :=
  ⟨_, _, _, (onAddBlockEnd_eq_ok hd).mpr
    ⟨rfl, hsafe, _, Overflow.uint_of_lt o hfits, rfl⟩⟩

/-- A monitor takes notice of the transactions of a proof. -/
theorem Tracked.notifyAdd_filter {txs : List Transaction} (h : Tracked W chain key entry)
    (hvalid : ConsensusValid E.txid (body :: chain))
    (hoccurs : ∀ tx ∈ history (body :: chain), W.Occurs tx) (hsub : txs.Sublist body)
    (htame : ∀ tx ∈ body, TameFor E key entry.1.state tx)
    (hfits : entry.1.state.height + 1 < 2 ^ 32) (hash : BlockHash) :
    ∃ entry', notifyAdd (listener E) (some txs) hash entry = .ok entry' := by
  have hsafe (tx : Transaction) (htx : tx ∈ txs) : entry.1.state.TxSafe E.txid tx :=
    h.follows.txSafe (htame tx (hsub.subset htx))
  have hdetected : entry.1.state.Detected E.txid txs (entry.1.state.changesOf E.txid txs) :=
    Detected.of_changesOf _ _
  have hadd := h.guards.addSafe h.follows hvalid hoccurs hsub hdetected
    (single_of_txSafe hdetected hsafe)
  obtain ⟨s, hs⟩ : ∃ s, reading E entry.1.state (some txs) hash = .ok s :=
    ⟨_, reading_some.mpr ⟨hsafe, rfl⟩⟩
  obtain ⟨-, rfl⟩ := reading_some.mp hs
  have hend := onAddBlockEnd_ok E.overflow
    (d := entry.1.state.afterTxs E.txid txs ⟨[], 0, 0, 0, none, hash⟩)
    (s := { entry.1.state with
      sawBlock := true
      decodeState := some (entry.1.state.afterTxs E.txid txs ⟨[], 0, 0, 0, none, hash⟩) })
    rfl (by rw [changes_of_proof]; exact ⟨hadd.1, hadd.2, hadd.3⟩) hfits
  rw [blockHash_afterTxs] at hend
  obtain ⟨s', adds, removes, hend⟩ := hend
  exact ⟨_, notifyAdd_eq_ok.mpr ⟨_, s', adds, removes, hs, hend, rfl⟩⟩

/-- A monitor takes notice of a block that has been streamed. -/
theorem Tracked.notifyAdd_streamed (h : Tracked W chain key entry)
    (hvalid : ConsensusValid E.txid (body :: chain))
    (hoccurs : ∀ tx ∈ history (body :: chain), W.Occurs tx)
    (hreads : entry.1.state.Reads E.blockHash (blockEvents E.txid header body))
    (hfits : entry.1.state.height + 1 < 2 ^ 32) :
    ∃ entry', notifyAdd (listener E) none (E.blockHash header) entry = .ok entry' := by
  rcases hreads header _ rfl with hready | ⟨d, hread⟩
  · have hend : entry.1.state.onAddBlockEnd E.overflow (E.blockHash header) =
        .ok (entry.1.state, [], []) := by
      rw [onAddBlockEnd, if_pos hready]
    exact ⟨_, notifyAdd_eq_ok.mpr ⟨_, _, _, _, rfl, hend, rfl⟩⟩
  · obtain ⟨hdetected, hsafe, hhash⟩ := hread.detected
    have hadd := h.guards.addSafe h.follows hvalid hoccurs (Sublist.refl _) hdetected
      (single_of_txSafe hdetected hsafe)
    obtain ⟨s', adds, removes, hend⟩ := onAddBlockEnd_ok E.overflow hread.decodeState hadd hfits
    rw [hhash] at hend
    exact ⟨_, notifyAdd_eq_ok.mpr ⟨_, s', adds, removes, rfl, hend, rfl⟩⟩

theorem validateBlockProof_noAbort (filter : PolicyFilter) (r : Except VerifyError Unit) :
    NoAbort (validateBlockProof filter r) := by
  rcases r with (_ | debug) | _
  · exact fun _ => PolicyFilter.policyErr_ne_abort
  · exact fun _ => PolicyFilter.policyErr_ne_abort
  · exact ok _

/-- The checks of a block on top of the tip do not abort when height and time fit. -/
theorem validateBlock_noAbort {external : Option BlockHash} (hheight : T.height + 1 < 2 ^ 32)
    (htime : T.tip.header.time + 60 * 20 < 2 ^ 32) :
    NoAbort (T.validateBlock E T.height external T.tip ⟨header, E.filterHeader proof⟩ proof
      false) := by
  have hnext : NoAbort (E.overflow.u32 (T.height + 1) : ChainResult Nat) :=
    uint (.inr hheight)
  refine NoAbort.bind ?_ fun _ _ => ?_
  · refine (NoAbort.refuseIf _ _).bind fun _ _ => (NoAbort.refuseIf _ _).bind fun _ _ => ?_
    refine NoAbort.bind ?_ fun twenty _ => ?_
    · unfold twentyMinuteRule
      split_ifs
      · exact (uint (.inr htime)).bind fun _ _ => ok _
      · exact ok _
    · split_ifs
      · exact ok _
      · refine hnext.bind fun next _ => ?_
        split_ifs
        · exact (NoAbort.refuseIf _ _).bind fun _ _ =>
            (NoAbort.refuseIf _ _).bind fun _ _ => NoAbort.refuseIf _ _
        · exact NoAbort.refuseIf _ _
  · unfold validateProof
    split_ifs
    · exact ok _
    · refine hnext.bind fun next _ => ?_
      rcases hproof : validateBlockProof E.filter (E.verify proof next header external
        T.tip.filterHeader (T.outpointWatches false)) with (e | message) | u
      · exact refuse _
      · exact absurd hproof (validateBlockProof_noAbort _ _ message)
      · exact ok _

/-- The block comes with a proof the tracker supports: a filter proof when nothing is streamed, or
the end of the stream of this very block. -/
def Supported (E : ChainEnv) (T : MonitorTracker) (header : BlockHeader) (proof : TxoProof) :
    Prop :=
  (∃ txs, proofTransactions proof.proof = .ok txs) ∧ StreamMatches E T proof (E.blockHash header)

/-- Every monitor takes notice of a valid block of tame transactions on top of the tip. -/
theorem Tracks.notifyAdd (h : Tracks W T) (hdelivered : Delivered W T (.addBlock header proof))
    (hfits : Fits T (.addBlock header proof))
    (hstream : StreamMatches E T proof (E.blockHash header)) (htame : Tame E T (W.body header))
    (hprev : header.prevBlockhash = E.blockHash T.tip.header) {txs : Option (List Transaction)}
    (htxs : proofTransactions proof.proof = .ok txs)
    (hentry : T.listeners.lookup key = some entry) :
    ∃ entry', ChainTracker.notifyAdd (listener E) txs (E.blockHash header) entry =
      .ok entry' := by
  obtain ⟨hvalid, hbrings⟩ := hdelivered
  have hchain : W.chain (E.blockHash header) = W.body header :: chainOf W T := by
    rw [W.grows header hvalid, hprev]
    rfl
  have hconsensus := W.consensus header hvalid
  have hoccurs : ∀ tx ∈ history (W.chain (E.blockHash header)), W.Occurs tx := occurs_of_mem
  rw [hchain] at hconsensus hoccurs
  have htracked := h.listeners key entry hentry
  have hexternal := hstream.external
  rcases hproof : proof.proof with ⟨content, txs'⟩ | _ | _
  · rw [hproof] at htxs hbrings
    cases htxs
    exact htracked.notifyAdd_filter hconsensus hoccurs hbrings.1 (htame key entry hentry)
      (hfits key entry hentry) _
  · rw [hproof] at htxs
    cases htxs
  · rw [hproof] at htxs hbrings hexternal
    cases htxs
    obtain ⟨state, hstate⟩ := Option.isSome_iff_exists.mp hexternal.symm
    obtain ⟨events, hevents, -, hreads⟩ := h.stream.reads state hstate
    obtain rfl := Option.some.inj (hevents.symm.trans (hbrings state hstate))
    exact htracked.notifyAdd_streamed hconsensus hoccurs (hreads key entry hentry)
      (hfits key entry hentry)

/-- A valid block of tame transactions is added or refused. -/
theorem addBlock_noAbort (h : Tracks W T) (hdelivered : Delivered W T (.addBlock header proof))
    (hfits : Fits T (.addBlock header proof)) (hsupported : Supported E T header proof)
    (htame : Tame E T (W.body header)) (hheight : T.height + 1 < 2 ^ 32)
    (htime : T.tip.header.time + 60 * 20 < 2 ^ 32) :
    NoAbort ((chainMachine E).step T (.addBlock header proof)).2 := by
  obtain ⟨⟨txs, htxs⟩, hstream⟩ := hsupported
  rcases hexec : exec (addBlock E (listener E) header proof) T with ⟨r, T'⟩
  simp only [chainMachine, hexec]
  unfold addBlock at hexec
  rw [exec_get_bind] at hexec
  have hfinish := maybeFinishDecodingBlock_eq_ok.mpr ⟨hstream, rfl⟩
  rcases exec_lift_bind_iff.mp hexec with ⟨e, hx, rfl, -⟩ | ⟨T₁, hT₁, hexec⟩
  · rw [Asserted.lift_eq_ok.mpr hfinish] at hx
    cases hx
  obtain rfl := Except.ok.inj ((Asserted.lift_eq_ok.mpr hfinish).symm.trans hT₁)
  rw [exec_set_bind] at hexec
  rcases exec_lift_bind_iff.mp hexec with ⟨e, hx, rfl, -⟩ | ⟨u, hvalid, hexec⟩
  · intro message hmessage
    cases hmessage
    exact validateBlock_noAbort hheight htime message hx
  rcases exec_lift_bind_iff.mp hexec with ⟨e, hx, rfl, -⟩ | ⟨txs', htxs', hexec⟩
  · rw [Asserted.lift_eq_ok.mpr htxs] at hx
    cases hx
  obtain rfl := Except.ok.inj (htxs.symm.trans (Asserted.lift_eq_ok.mp htxs'))
  have hprev := prevBlockhash_of_validateHeader (validateBlock_eq_ok.mp hvalid).1
  obtain ⟨listeners, hlisteners⟩ := Table.exists_traverse fun key entry hentry =>
    h.notifyAdd hdelivered hfits hstream htame hprev htxs hentry
  rcases exec_lift_bind_iff.mp hexec with ⟨e, hx, rfl, -⟩ | ⟨T₂, -, hexec⟩
  · have hnotify : ({ T with decodeState := none } : MonitorTracker).notifyListenersAdd
        (listener E) txs (E.blockHash header) =
        .ok { T with decodeState := none, listeners := listeners } := by
      rw [notifyListenersAdd, bind_eq_ok]
      exact ⟨listeners, hlisteners, rfl⟩
    rw [Asserted.lift_eq_ok.mpr hnotify] at hx
    cases hx
  rcases exec_lift_bind_iff.mp hexec with ⟨e, hx, rfl, -⟩ | ⟨height, -, hexec⟩
  · rw [show (E.overflow.u32 (T.height + 1) : ChainResult Nat) = .ok (T.height + 1) from
      Overflow.uint_of_lt _ hheight] at hx
    cases hx
  · obtain ⟨rfl, -⟩ := Prod.mk.inj hexec
    exact ok _

/-! ## Streamed blocks -/

variable {events : List PushEvent}

/-- What can be read can be read in part. -/
theorem readAll_of_isPrefix {d d' : Monitor.BlockDecodeState} {first : List PushEvent}
    (hfirst : first <+: events) (h : s.readAll d events = .ok d') :
    ∃ d'', s.readAll d first = .ok d'' := by
  obtain ⟨rest, rfl⟩ := hfirst
  rw [readAll_append] at h
  obtain ⟨d'', hread, -⟩ := bind_ok h
  exact ⟨d'', hread⟩

/-- The events of a block with safe transactions can be read, any number of them. -/
theorem readAll_ok (hsafe : ∀ tx ∈ body, s.TxSafe E.txid tx) (d : Monitor.BlockDecodeState)
    (hevents : events <+: body.flatMap (transactionEvents E.txid) ++ [.blockEnd]) :
    ∃ d', s.readAll d events = .ok d' := by
  have hread : s.readAll d (body.flatMap (transactionEvents E.txid) ++ [.blockEnd]) =
      .ok (s.afterTxs E.txid body d) := by
    rw [readAll_append, readTransactions_eq_ok.mpr ⟨hsafe, rfl⟩]
    rfl
  exact readAll_of_isPrefix hevents hread

theorem pushAll_of_notReady (h : s.isNotReadyForPush = true)
    (hinner : ∀ event ∈ events, Inner event) : s.pushAll E.blockHash events = .ok s := by
  induction events with
  | nil => rfl
  | cons event events ih =>
    rw [pushAll_cons, push_of_notReady h (hinner event mem_cons_self)]
    exact ih fun e he => hinner e (mem_cons_of_mem _ he)

theorem inner_of_blockEvents
    (hevents : events <+: body.flatMap (transactionEvents E.txid) ++ [.blockEnd]) :
    ∀ event ∈ events, Inner event := by
  intro event hmem
  rcases mem_append.mp (hevents.subset hmem) with hmem | hmem
  · exact inner_of_mem_transactionEvents hmem
  · rw [mem_singleton.mp hmem]
    trivial

/-- A monitor that has read or ignored the beginning of a block with safe transactions can go on. -/
theorem pushAll_ok {before : List PushEvent} (hsafe : ∀ tx ∈ body, s.TxSafe E.txid tx)
    (hblock : before ++ events <+: blockEvents E.txid header body)
    (hreads : s.Reads E.blockHash before) : ∃ s', s.pushAll E.blockHash events = .ok s' := by
  rw [blockEvents, cons_append] at hblock
  rcases before with _ | ⟨first, before⟩
  · rcases events with _ | ⟨event, events⟩
    · exact ⟨s, rfl⟩
    · rw [nil_append] at hblock
      obtain ⟨rfl, hrest⟩ := cons_prefix_cons.mp hblock
      rw [pushAll_cons]
      have hbegun : (s.onBlockStart (E.blockHash header)).decodeState =
          some ⟨[], 0, 0, 0, none, E.blockHash header⟩ := rfl
      have hsafe' (tx : Transaction) (htx : tx ∈ body) :
          (s.onBlockStart (E.blockHash header)).TxSafe E.txid tx :=
        ⟨(hsafe tx htx).closing, (hsafe tx htx).funding⟩
      obtain ⟨d, hd⟩ := readAll_ok hsafe' ⟨[], 0, 0, 0, none, E.blockHash header⟩ hrest
      have hpush : (s.onBlockStart (E.blockHash header)).pushAll E.blockHash events = _ :=
        pushAll_of_some hbegun (inner_of_blockEvents hrest)
      rw [hd, ok_bind] at hpush
      exact ⟨_, bind_eq_ok.mpr ⟨_, rfl, hpush⟩⟩
  · rw [cons_append] at hblock
    obtain ⟨rfl, hrest⟩ := cons_prefix_cons.mp hblock
    have hinner (event : PushEvent) (hmem : event ∈ events) : Inner event :=
      inner_of_blockEvents hrest event (mem_append_right _ hmem)
    rcases hreads header before rfl with hready | ⟨d, hread⟩
    · exact ⟨s, pushAll_of_notReady hready hinner⟩
    · have hplain (tx : Transaction) (htx : tx ∈ body) : s.plain.TxSafe E.txid tx :=
        ⟨(hsafe tx htx).closing, (hsafe tx htx).funding⟩
      obtain ⟨d', hd'⟩ := readAll_ok hplain ⟨[], 0, 0, 0, none, E.blockHash header⟩ hrest
      rw [readAll_append, hread.plain, ok_bind] at hd'
      obtain ⟨d'', hd'', -⟩ := readAll_plain.mp hd'
      refine ⟨{ s with decodeState := some d'' }, ?_⟩
      rw [pushAll_of_some hread.decodeState hinner, hd'']
      rfl

/-- Events that every monitor can read can be broadcast. -/
theorem pushEvents_ok (hchecked : ∀ event ∈ events, checkStreamedHash E hash event = .ok ())
    (hpush : ∀ key entry, T.listeners.lookup key = some entry →
      ∃ s, entry.1.state.pushAll E.blockHash events = .ok s) :
    ∃ T', events.foldlM (pushEvent E (listener E) hash) T = .ok T' := by
  induction events generalizing T with
  | nil => exact ⟨T, rfl⟩
  | cons event events ih =>
    have hentry (key : OutPoint) (entry : ChainMonitor × ListenSlot)
        (hentry : T.listeners.lookup key = some entry) :
        ∃ entry', (do
          let listener ← (listener E).onPush entry.1 event
          return (listener, entry.2) : Asserted (ChainMonitor × ListenSlot)) = .ok entry' := by
      obtain ⟨s, hs⟩ := hpush key entry hentry
      rw [pushAll_cons] at hs
      obtain ⟨s₁, hs₁, -⟩ := bind_ok hs
      exact ⟨({ entry.1 with state := s₁ }, entry.2), bind_eq_ok.mpr
        ⟨{ entry.1 with state := s₁ }, bind_eq_ok.mpr ⟨s₁, hs₁, rfl⟩, rfl⟩⟩
    obtain ⟨listeners, hlisteners⟩ := Table.exists_traverse hentry
    have hevent : pushEvent E (listener E) hash T event =
        .ok { T with listeners := listeners } :=
      bind_eq_ok.mpr ⟨(), hchecked event mem_cons_self,
        bind_eq_ok.mpr ⟨listeners, hlisteners, rfl⟩⟩
    obtain ⟨T', hT'⟩ : ∃ T', events.foldlM (pushEvent E (listener E) hash)
        { T with listeners := listeners } = .ok T' := by
      refine ih (fun e he => hchecked e (mem_cons_of_mem _ he)) fun key entry' hentry' => ?_
      obtain ⟨entry, hentry, state, hstate, rfl⟩ :=
        (pushEvent_eq_ok hevent).2.2.backward key entry' hentry'
      obtain ⟨s, hs⟩ := hpush key entry hentry
      rw [pushAll_cons] at hs hstate
      obtain ⟨s₁, hs₁, hs⟩ := bind_ok hs
      obtain ⟨s₂, hs₂, hnil⟩ := bind_ok hstate
      cases hnil
      obtain rfl := Except.ok.inj (hs₁.symm.trans hs₂)
      exact ⟨s, hs⟩
    exact ⟨T', by rw [foldlM_cons, hevent]; exact hT'⟩

/-- The chunk opens or continues the stream of a block of the tree, in order. -/
def Continues (W : World E) (T : MonitorTracker) (hash : BlockHash) (offset : Nat)
    (chunk : List UInt8) : Prop :=
  ∃ header bytes events, W.valid header ∧ E.blockHash header = hash ∧
    (T.decodeState = none ∧ offset = 0 ∧ bytes = [] ∨
      T.decodeState = some ⟨bytes, offset, hash⟩ ∧ offset ≠ 0) ∧
    E.decoded (bytes ++ chunk) = some events ∧
    events <+: blockEvents E.txid header (W.body header) ∧
    offset + chunk.length % 2 ^ 32 < 2 ^ 32 ∧ Tame E T (W.body header)

/-- What the decoder has reported when a chunk continues a stream, and that every monitor has read
it. -/
theorem Tracks.before (hlaw : LawfulDecoder E) (h : Tracks W T) {offset : Nat} {bytes : List UInt8}
    (hopen : T.decodeState = none ∧ offset = 0 ∧ bytes = [] ∨
      T.decodeState = some ⟨bytes, offset, hash⟩ ∧ offset ≠ 0) :
    ∃ before, E.decoded bytes = some before ∧ ∀ key entry, T.listeners.lookup key = some entry →
      entry.1.state.Reads E.blockHash before := by
  rcases hopen with ⟨-, -, rfl⟩ | ⟨hstate, -⟩
  · exact ⟨[], hlaw.empty, fun _ _ _ _ _ h => (nomatch h)⟩
  · obtain ⟨before, hbefore, -, hreads⟩ := h.stream.reads _ hstate
    exact ⟨before, hbefore, hreads⟩

/-- A chunk of a valid block of tame transactions is read. -/
theorem blockChunk_ok (hlaw : LawfulDecoder E) (h : Tracks W T) {offset : Nat} {chunk : List UInt8}
    (hcontinues : Continues W T hash offset chunk) :
    ∃ T', T.blockChunk E (listener E) hash offset chunk = .ok T' := by
  obtain ⟨header, bytes, events, -, hhash, hopen, hevents, hblock, hoffset, htame⟩ := hcontinues
  obtain ⟨before, hbefore, hreads⟩ := h.before hlaw hopen
  obtain ⟨more, rfl⟩ := hlaw.grows _ _ _ _ hbefore hevents
  have hchecked (event : PushEvent) (hmem : event ∈ more) :
      checkStreamedHash E hash event = .ok () := by
    have hevent := hblock.subset (mem_append_right _ hmem)
    rw [blockEvents, cons_append] at hevent
    rcases mem_cons.mp hevent with rfl | hinner
    · exact assert_eq_ok.mpr hhash
    · have hinner := inner_of_blockEvents (prefix_refl _) event hinner
      cases event with
      | blockStart header => exact hinner.elim
      | _ => rfl
  have hpush (key : OutPoint) (entry : ChainMonitor × ListenSlot)
      (hentry : T.listeners.lookup key = some entry) :
      ∃ s, entry.1.state.pushAll E.blockHash more = .ok s :=
    pushAll_ok (fun tx htx => (h.listeners key entry hentry).follows.txSafe
      (htame key entry hentry tx htx)) hblock (hreads key entry hentry)
  have hnext (T₀ : MonitorTracker) (hT₀ : T₀.listeners = T.listeners) :
      ∃ T', T₀.decodeNext E (listener E) ⟨bytes, offset, hash⟩ hash offset chunk =
        .ok T' := by
    obtain ⟨T₁, hT₁⟩ := pushEvents_ok hchecked (fun key entry hentry =>
      hpush key entry (hT₀ ▸ hentry) : ∀ key entry, T₀.listeners.lookup key = some entry → _)
    refine ⟨_, bind_eq_ok.mpr ⟨(), assert_eq_ok.mpr rfl, bind_eq_ok.mpr ⟨(), assert_eq_ok.mpr rfl,
      bind_eq_ok.mpr ⟨_, expect_eq_ok.mpr hevents, bind_eq_ok.mpr ⟨T₁, ?_,
        bind_eq_ok.mpr ⟨_, Overflow.uint_of_lt _ hoffset, rfl⟩⟩⟩⟩⟩⟩
    rw [hbefore, Option.getD_some, drop_left]
    exact hT₁
  unfold blockChunk
  rcases hopen with ⟨hnone, rfl, rfl⟩ | ⟨hstate, hne⟩
  · obtain ⟨T', hT'⟩ := hnext { T with decodeState := some ⟨[], 0, hash⟩ } rfl
    rw [if_pos rfl]
    exact ⟨T', bind_eq_ok.mpr ⟨(), assert_eq_ok.mpr hnone, hT'⟩⟩
  · obtain ⟨T', hT'⟩ := hnext T rfl
    rw [if_neg hne, pure_bind]
    simp only [hstate]
    exact ⟨T', hT'⟩

end Blocks

/-! ## Runs -/

/-- Blocks are delivered in order, with supported proofs and tame transactions, while heights, times
and offsets fit. -/
def Orderly (W : World E) (T : MonitorTracker) : ChainEvent → Prop
  | .blockChunk hash offset chunk => Continues W T hash offset chunk
  | .addBlock header proof => Supported E T header proof ∧ Tame E T (W.body header) ∧
    T.height + 1 < 2 ^ 32 ∧ T.tip.header.time + 60 * 20 < 2 ^ 32
  | .removeBlock _ => False
  | .readyChannel _ => True
  | .fundingSigned _ => True

/-- A step with a valid block and a complete proof, in order. -/
structure Harmless (W : World E) (x : Entry MonitorTracker ChainEvent (ChainResult Unit)) :
    Prop where
  delivered : Delivered W x.before x.event
  sane : Sane W x.event
  fits : Fits x.before x.event
  orderly : Orderly W x.before x.event

/-- A harmless step does not abort. -/
theorem Harmless.noAbort (hlaw : LawfulDecoder E) (h : Tracks W T) {event : ChainEvent}
    (hharmless : Harmless W ((chainMachine E).entry T event)) :
    NoAbort ((chainMachine E).step T event).2 := by
  obtain ⟨hdelivered, -, hfits, horderly⟩ := hharmless
  cases event with
  | readyChannel fundingOutpoint =>
    simp only [chainMachine, readyChannel_eq, settle]
    exact NoAbort.ok _
  | fundingSigned tx => exact NoAbort.ok _
  | blockChunk hash offset chunk =>
    obtain ⟨T', hT'⟩ := blockChunk_ok hlaw h horderly
    simp only [chainMachine, hT', settle]
    exact NoAbort.ok _
  | addBlock header proof =>
    obtain ⟨hsupported, htame, hheight, htime⟩ := horderly
    exact addBlock_noAbort h hdelivered hfits hsupported htame hheight htime
  | removeBlock proof => exact horderly.elim

/-- In every run of valid blocks, delivered in order with valid proofs, no call aborts, as long as
the transactions that fund and close channels have the expected shape. -/
theorem valid_blocks_never_abort (hlaw : LawfulDecoder E) (W : World E) {network : Network}
    {start : Nat} {tip : Headers} (hnew : ChainTracker.new E network start tip = .ok T)
    (hvalid : ConsensusValid E.txid (W.chain (E.blockHash tip.header)))
    (events : List ChainEvent) (hrun : ∀ x ∈ (chainMachine E).trace T events, Harmless W x) :
    ∀ x ∈ (chainMachine E).trace T events, ∀ message, x.answer ≠ .error (.abort message) := by
  refine (chainMachine E).trace_induction (P := Tracks W) (Tracks.of_new hnew hvalid) ?_ events hrun
  intro T event htracks hharmless
  have hno := hharmless.noAbort hlaw htracks
  exact ⟨htracks.step hlaw ⟨hharmless.delivered, hharmless.sane, hharmless.fits, hno⟩, hno⟩

open ChainSample

/-- The channel is funded and closed by two blocks. -/
def tameRun : List ChainEvent :=
  [.readyChannel ⟨7, 0⟩,
   .addBlock (header 1 0) (filterProof [funding]),
   .addBlock (header 2 1) (filterProof [closing])]

/-- The blocks of the sample chain are added without an abort. -/
theorem valid_blocks_never_abort_sample :
    (∀ x ∈ (chainMachine quiet).trace tracker tameRun,
      Harmless closedWorld x) ∧
    ∀ x ∈ (chainMachine quiet).trace tracker tameRun,
      ∀ message, x.answer ≠ .error (.abort message) := by
  have hnew : ChainTracker.new quiet .regtest 0 ⟨header 0 0, 1⟩ =
      .ok tracker := rfl
  have hrun : ∀ x ∈ (chainMachine quiet).trace tracker tameRun,
      Harmless closedWorld x := by
    intro x hx
    simp only [tameRun, Machine.trace_cons, Machine.trace_nil, List.mem_cons, List.not_mem_nil,
      or_false] at hx
    rcases hx with rfl | rfl | rfl
    · exact ⟨trivial, show (⟨7, 0⟩ : OutPoint) ≠ .null by decide, trivial, trivial⟩
    · exact ⟨⟨⟨0, by decide, rfl⟩, by decide⟩, trivial, by decide,
        ⟨⟨_, rfl⟩, rfl, fun _ h => (nomatch h)⟩, by decide, by decide, by decide⟩
    · exact ⟨⟨⟨1, by decide, rfl⟩, by decide⟩, trivial, by decide,
        ⟨⟨_, rfl⟩, rfl, fun _ h => (nomatch h)⟩, by decide, by decide, by decide⟩
  exact ⟨hrun, valid_blocks_never_abort lawful_quiet closedWorld hnew
    (ConsensusValid.of_validHistory (by decide)) tameRun hrun⟩

/-- A transaction that closes the sample channel and spends another output. -/
def wideClosing : Transaction := transaction 8 [⟨7, 0⟩, ⟨7, 1⟩] 1

/-- A chain that closes the sample channel with a transaction with two inputs. -/
def wideWorld : World quiet :=
  world [[funding], [wideClosing]] (by decide)
    (ConsensusValid.of_validHistory (by decide))

/-- The channel is funded and closed by two blocks, the second with the wide transaction. -/
def wideRun : List ChainEvent :=
  [.readyChannel ⟨7, 0⟩,
   .addBlock (header 1 0) (filterProof [funding]),
   .addBlock (header 2 1) (filterProof [wideClosing])]

/-- A valid block whose closing transaction has two inputs aborts the signer. -/
theorem wide_closing_aborts :
    (∀ x ∈ (chainMachine quiet).trace tracker wideRun,
      Delivered wideWorld x.before x.event ∧ Fits x.before x.event) ∧
    ((chainMachine quiet).trace tracker wideRun).map (·.answer) =
      [.ok (), .ok (), .error (.abort "closing tx must have only one input")] := by
  refine ⟨?_, rfl⟩
  intro x hx
  simp only [wideRun, Machine.trace_cons, Machine.trace_nil, List.mem_cons, List.not_mem_nil,
    or_false] at hx
  rcases hx with rfl | rfl | rfl
  · exact ⟨trivial, trivial⟩
  · exact ⟨⟨⟨0, by decide, rfl⟩, by decide⟩, by decide⟩
  · exact ⟨⟨⟨1, by decide, rfl⟩, by decide⟩, by decide⟩

end ChainTracker

end ValidatingSigner
