import Vls.Chain.Guards

/-!
# Runs of the tracker

A tracker that is told of valid blocks with complete proofs, and whose calls do not abort, keeps
every monitor in agreement with the chain, whatever is registered, signed, added and removed.
-/

namespace ValidatingSigner

open Base Monitor ChainMonitor Finset

/-- The transaction is in a chain of the tree of blocks. -/
def World.Occurs {E : ChainEnv} (W : World E) (tx : Transaction) : Prop :=
  ∃ hash, tx ∈ history (W.chain hash)

namespace ChainTracker

variable {E : ChainEnv} {W : World E} {T T' : MonitorTracker}

/-! ## Proper steps -/

variable {event : ChainEvent}

/-- Channels are not funded by the null outpoint.  A signed transaction does not spend the null
outpoint or its own outputs, and its identifier determines its inputs. -/
def Sane (W : World E) : ChainEvent → Prop
  | .readyChannel fundingOutpoint => fundingOutpoint ≠ .null
  | .fundingSigned tx => ∀ outpoint, Spends tx outpoint → outpoint ≠ .null ∧
    outpoint.txid ≠ E.txid tx ∧ ∀ tx', W.Occurs tx' → E.txid tx' = E.txid tx → Spends tx' outpoint
  | _ => True

/-- The heights of the monitors neither overflow nor underflow. -/
def Fits (T : MonitorTracker) : ChainEvent → Prop
  | .addBlock _ _ => ∀ key entry, T.listeners.lookup key = some entry →
    entry.1.state.height + 1 < 2 ^ 32
  | .removeBlock _ => ∀ key entry, T.listeners.lookup key = some entry → 1 ≤ entry.1.state.height
  | _ => True

instance (T : MonitorTracker) : (event : ChainEvent) → Decidable (Fits T event)
  | .addBlock _ _ => decidable_of_iff _ (Table.forall_lookup _ _).symm
  | .removeBlock _ => decidable_of_iff _ (Table.forall_lookup _ _).symm
  | .readyChannel _ => inferInstanceAs (Decidable True)
  | .fundingSigned _ => inferInstanceAs (Decidable True)
  | .blockChunk _ _ _ => inferInstanceAs (Decidable True)

/-- A step with valid blocks and complete proofs that does not abort. -/
structure Proper (W : World E) (x : Entry MonitorTracker ChainEvent (ChainResult Unit)) : Prop where
  delivered : Delivered W x.before x.event
  sane : Sane W x.event
  fits : Fits x.before x.event
  answered : ∀ message, x.answer ≠ .error (.abort message)

/-- An event that does not abort does what it is for, or at most closes the stream. -/
theorem stepped_or_refused
    (h : ∀ message, ((chainMachine E).step T event).2 ≠ .error (.abort message)) :
    Stepped E T event ((chainMachine E).step T event).1 ∨
      ((chainMachine E).step T event).1 = T ∨
      ((chainMachine E).step T event).1 = { T with decodeState := none } := by
  by_cases hok : ((chainMachine E).step T event).2 = .ok ()
  · exact .inl (stepped hok)
  have hsettle (x : Asserted MonitorTracker) (hnot : ¬ (T.settle x).2 = .ok ()) :
      ∃ message, (T.settle x).2 = .error (.abort message) := by
    rcases x with (e | message) | _
    · cases e
    · exact ⟨message, rfl⟩
    · exact absurd rfl hnot
  cases event with
  | readyChannel fundingOutpoint =>
    obtain ⟨message, hmessage⟩ := hsettle _ hok
    exact absurd hmessage (h message)
  | fundingSigned tx => exact absurd rfl hok
  | blockChunk hash offset chunk =>
    obtain ⟨message, hmessage⟩ := hsettle _ hok
    exact absurd hmessage (h message)
  | addBlock header proof =>
    rcases hexec : Effect.exec (addBlock E (listener E) header proof) T with ⟨r, T'⟩
    simp only [chainMachine, hexec] at h ⊢
    rcases exec_addBlock hexec with ⟨message, rfl⟩ | ⟨e, -, -, hT'⟩ | ⟨-, hadds⟩
    · exact absurd rfl (h message)
    · exact .inr (.inr hT')
    · exact .inl (.addBlock hadds)
  | removeBlock proof =>
    rcases hexec : Effect.exec (removeBlock E (listener E) proof) T with ⟨r, T'⟩
    simp only [chainMachine, hexec] at h ⊢
    rcases exec_removeBlock hexec with
      ⟨message, rfl⟩ | ⟨e, -, ⟨-, -, hT'⟩ | ⟨-, -, -, -, -, -, -, hT'⟩⟩ | ⟨-, hremoves⟩
    · exact absurd rfl (h message)
    · exact .inr (.inl hT')
    · exact .inr (.inr hT')
    · exact .inl (.removeBlock hremoves)

/-! ## Chains -/

theorem Adds.chainOf {header : BlockHeader} {proof : TxoProof}
    (hadds : Adds E (listener E) T header proof T') (hvalid : W.valid header) :
    chainOf W T' = W.body header :: chainOf W T := by
  rw [ChainTracker.chainOf, hadds.tip, W.grows header hvalid,
    prevBlockhash_of_validateHeader hadds.validHeader]
  rfl

theorem Removes.chainOf {proof : TxoProof}
    (hremoves : Removes E (listener E) T proof T') (hvalid : W.valid T.tip.header) :
    chainOf W T = W.body T.tip.header :: chainOf W T' := by
  rw [ChainTracker.chainOf, W.grows _ hvalid,
    prevBlockhash_of_validateHeader hremoves.validHeader]
  rfl

theorem occurs_of_mem {hash : BlockHash} : ∀ tx ∈ history (W.chain hash), W.Occurs tx :=
  fun _ htx => ⟨hash, htx⟩

/-! ## Steps of listeners -/

variable {key : OutPoint} {entry' : ChainMonitor × ListenSlot}

/-- Where a listener comes from after a step, and what the step has made of the chain. -/
inductive Origin (W : World E) (T : MonitorTracker) (event : ChainEvent) (T' : MonitorTracker)
    (key : OutPoint) : ChainMonitor × ListenSlot → Prop
  | registered (hevent : event = .readyChannel key) (hchain : chainOf W T' = chainOf W T) :
    Origin W T event T' key (ChainMonitor.ready key T.height, ⟨{key.txid}, ∅, ∅⟩)
  | kept {entry : ChainMonitor × ListenSlot} (hentry : T.listeners.lookup key = some entry)
    (hchain : chainOf W T' = chainOf W T) : Origin W T event T' key entry
  | signed {entry : ChainMonitor × ListenSlot} {tx : Transaction}
    (hevent : event = .fundingSigned tx) (hfunds : E.txid tx = key.txid)
    (hentry : T.listeners.lookup key = some entry) (hchain : chainOf W T' = chainOf W T) :
    Origin W T event T' key (signedEntry tx entry)
  | read {entry entry' : ChainMonitor × ListenSlot} {events : List PushEvent}
    (hentry : T.listeners.lookup key = some entry) (hread : ReadBy E events entry entry')
    (hchain : chainOf W T' = chainOf W T) : Origin W T event T' key entry'
  | added {entry entry' : ChainMonitor × ListenSlot} {header : BlockHeader} {proof : TxoProof}
    (hevent : event = .addBlock header proof)
    (hadds : Adds E (ChainMonitor.listener E) T header proof T')
    (hentry : T.listeners.lookup key = some entry)
    (hnotice : AddNotice E proof.proof.isExternal (W.body header) entry entry')
    (hchain : chainOf W T' = W.body header :: chainOf W T) : Origin W T event T' key entry'
  | removed {entry entry' : ChainMonitor × ListenSlot} {proof : TxoProof}
    (hevent : event = .removeBlock proof) (hentry : T.listeners.lookup key = some entry)
    (hnotice : RemoveNotice E (W.body T.tip.header) entry entry')
    (hchain : chainOf W T = W.body T.tip.header :: chainOf W T') : Origin W T event T' key entry'

/-- Every listener after a step that succeeds has an origin. -/
theorem Stepped.origin (hsound : StreamSound E T) (hdelivered : Delivered W T event)
    (h : Stepped E T event T') (hentry' : T'.listeners.lookup key = some entry') :
    Origin W T event T' key entry' := by
  cases h with
  | readyChannel fundingOutpoint =>
    rw [lookup_registered] at hentry'
    by_cases hkey : key = fundingOutpoint
    · rw [if_pos hkey] at hentry'
      cases hentry'
      subst hkey
      exact .registered rfl rfl
    · rw [if_neg hkey] at hentry'
      exact .kept hentry' rfl
  | fundingSigned tx =>
    have hchain : chainOf W (T.fundingSigned E tx) = chainOf W T := by
      rw [fundingSigned_frame]
      rfl
    rw [lookup_fundingSigned] at hentry'
    obtain ⟨entry, hentry, rfl⟩ := Option.map_eq_some_iff.mp hentry'
    by_cases hfunds : key.txid = E.txid tx ∧ key.vout < tx.output.length
    · rw [if_pos hfunds]
      exact .signed rfl hfunds.1.symm hentry hchain
    · rw [if_neg hfunds]
      exact .kept hentry hchain
  | blockChunk offset hstreams =>
    obtain ⟨entry, hentry, hread⟩ := hstreams.listeners.backward key entry' hentry'
    refine .read hentry hread ?_
    rw [chainOf, hstreams.same.2.1]
    rfl
  | addBlock hadds =>
    obtain ⟨entry, hentry, hnotice⟩ :=
      (hadds.notice hsound hdelivered.2).backward key entry' hentry'
    exact .added rfl hadds hentry hnotice (hadds.chainOf hdelivered.1)
  | removeBlock hremoves =>
    obtain ⟨entry, hentry, hnotice⟩ :=
      (hremoves.notice W hsound hdelivered.1 hdelivered.2).backward key entry' hentry'
    exact .removed rfl hentry hnotice (hremoves.chainOf hdelivered.1)

/-- Every listener after a proper step has an origin. -/
theorem Proper.origin (hsound : StreamSound E T) (h : Proper W ((chainMachine E).entry T event))
    (hentry' : ((chainMachine E).step T event).1.listeners.lookup key = some entry') :
    Origin W T event ((chainMachine E).step T event).1 key entry' := by
  rcases stepped_or_refused h.answered with hstepped | heq | heq
  · exact hstepped.origin hsound h.delivered hentry'
  · rw [heq] at hentry' ⊢
    exact .kept hentry' rfl
  · rw [heq] at hentry' ⊢
    exact .kept hentry' rfl

theorem StreamSound.step (hlaw : LawfulDecoder E) (h : StreamSound E T)
    (hproper : Proper W ((chainMachine E).entry T event)) :
    StreamSound E ((chainMachine E).step T event).1 := by
  rcases stepped_or_refused hproper.answered with hstepped | heq | heq
  · generalize ((chainMachine E).step T event).1 = T' at hstepped ⊢
    cases hstepped with
    | readyChannel fundingOutpoint => exact h.registered fundingOutpoint
    | fundingSigned tx => exact h.fundingSigned tx
    | blockChunk offset hstreams => exact h.streams hlaw hstreams
    | addBlock hadds => exact StreamSound.of_idle hadds.decodeState
    | removeBlock hremoves => exact StreamSound.of_idle hremoves.decodeState
  · rw [heq]
    exact h
  · rw [heq]
    exact StreamSound.of_idle rfl

/-- The chain stays valid. -/
theorem consensus_step (h : ConsensusValid E.txid (chainOf W T))
    (hproper : Proper W ((chainMachine E).entry T event)) :
    ConsensusValid E.txid (chainOf W ((chainMachine E).step T event).1) := by
  have hdelivered := hproper.delivered
  rcases stepped_or_refused hproper.answered with hstepped | heq | heq
  · generalize ((chainMachine E).step T event).1 = T' at hstepped ⊢
    cases hstepped with
    | readyChannel fundingOutpoint => exact h
    | fundingSigned tx =>
      rw [fundingSigned_frame]
      exact h
    | blockChunk offset hstreams =>
      rw [chainOf, hstreams.same.2.1]
      exact h
    | addBlock hadds =>
      rw [chainOf, hadds.tip]
      exact W.consensus _ hdelivered.1
    | removeBlock hremoves =>
      rw [hremoves.chainOf hdelivered.1] at h
      exact h.tail
  · rw [heq]
    exact h
  · rw [heq]
    exact h

/-! ## One listener -/

variable {chain : Chain} {entry : ChainMonitor × ListenSlot} {changes : List StateChange}
  {body : List Transaction}

/-- A listener agrees with the chain. -/
structure Tracked (W : World E) (chain : Chain) (key : OutPoint)
    (entry : ChainMonitor × ListenSlot) : Prop where
  follows : Follows E key chain entry.1.state entry.2
  guards : Guards E W.Occurs key chain entry.1.state entry.2

theorem raised_eq {s : State} {height : Nat} (hfits : s.height + 1 < 2 ^ 32)
    (hheight : (E.overflow.u32 (s.height + 1) : Asserted Nat) = .ok height) :
    State.added (haveFundingConfirmed changes)
      { s with decodeState := none, sawBlock := true, height := height } changes =
      raised s changes := by
  have hsame : height = s.height + 1 := by
    rw [Overflow.eq_mod_of_uint hheight]
    exact Nat.mod_eq_of_lt hfits
  rw [hsame]
  rfl

theorem lowered_eq {s : State} {height : Nat} (hfits : 1 ≤ s.height)
    (hheight : (E.overflow.sub32 s.height 1 : Asserted Nat) = .ok height) :
    ({ State.removed (haveFundingConfirmed changes)
        { s with decodeState := none, sawBlock := true } changes with
      height := height } : State) = lowered s changes := by
  have hsame : height = s.height - 1 := by
    unfold Overflow.sub32 at hheight
    rw [if_pos hfits, Except.ok.injEq] at hheight
    exact hheight.symm
  rw [hsame]
  rfl

theorem sawBlock_of_ignored {s : State} (h : s.isNotReadyForPush = true) : s.sawBlock = false := by
  simpa [State.isNotReadyForPush, State.decodeState_eq_none h] using h

/-- A listener that is told of a new block agrees with the longer chain. -/
theorem Tracked.add {streamed : Bool} (h : Tracked W chain key entry)
    (hvalid : ConsensusValid E.txid (body :: chain)) (hfits : entry.1.state.height + 1 < 2 ^ 32)
    (hnotice : AddNotice E streamed body entry entry') : Tracked W (body :: chain) key entry' := by
  cases hnotice with
  | ignored _ hready =>
    have hnew := sawBlock_of_ignored hready
    exact ⟨h.follows.ignore hnew, h.guards.ignore hnew⟩
  | noticed hcovers hdetected _ _ hsafe hheight =>
    simp only [raised_eq hfits hheight]
    exact ⟨h.follows.add hdetected hvalid hcovers.sublist hsafe,
      h.guards.add h.follows hcovers.sublist hdetected hsafe⟩

/-- A listener that is told of the removal of a block agrees with the shorter chain. -/
theorem Tracked.remove (h : Tracked W (body :: chain) key entry)
    (hvalid : ConsensusValid E.txid (body :: chain))
    (hoccurs : ∀ tx ∈ history (body :: chain), W.Occurs tx) (hfits : 1 ≤ entry.1.state.height)
    (hnotice : RemoveNotice E body entry entry') : Tracked W chain key entry' := by
  cases hnotice with
  | @noticed monitor slot txs changes height hcovers hchanges hsafe hheight =>
    have hdetected : monitor.state.Detected E.txid txs changes :=
      hchanges ▸ State.Detected.of_changesOf _ _
    simp only [lowered_eq hfits hheight]
    exact ⟨h.follows.remove hvalid hcovers hdetected hsafe,
      h.guards.remove h.follows hvalid hoccurs hcovers hchanges⟩

/-- A listener that has just been registered knows nothing yet. -/
theorem Tracked.ready (hnull : key ≠ .null) (height : Nat) :
    Tracked W chain key (ready key height, ⟨{key.txid}, ∅, ∅⟩) where
  follows :=
    { notNull := hnull
      txids := rfl
      vouts := rfl
      watched := mem_singleton_self _
      foreign := notMem_empty _
      fresh := fun _ => rfl
      outpoint := rfl
      funded := fun _ h => (nomatch h)
      closed := fun _ h => (nomatch h)
      watching := fun h => (nomatch h)
      onlyFunded := fun h => absurd h (notMem_empty _) }
  guards :=
    { inputs := fun _ h => absurd h (notMem_empty _)
      watching := fun _ h => absurd h (notMem_empty _)
      recorded := fun _ h => (nomatch h)
      fresh := fun _ => rfl }

/-- A listener whose funding transaction has been signed watches its inputs. -/
theorem Tracked.signed {tx : Transaction} (h : Tracked W chain key entry)
    (hsane : Sane W (.fundingSigned tx)) (hfunds : E.txid tx = key.txid) :
    Tracked W chain key (signedEntry tx entry) := by
  have hinput {input : OutPoint}
      (hmem : input ∈ (tx.input.map TxIn.previousOutput).toFinset) : Spends tx input :=
    List.mem_map.mp (List.mem_toFinset.mp hmem)
  have hforeign : key ∉ (tx.input.map TxIn.previousOutput).toFinset := fun hmem =>
    (hsane key (hinput hmem)).2.1 hfunds.symm
  constructor
  · exact
      { h.follows with
        foreign := fun hmem => (mem_union.mp hmem).elim h.follows.foreign hforeign
        watching := fun hfunded => (h.follows.watching hfunded).imp_left (mem_union_left _)
        onlyFunded := fun hmem =>
          h.follows.onlyFunded ((mem_union.mp hmem).resolve_right hforeign) }
  · constructor
    · intro input hmem
      rcases mem_union.mp hmem with hmem | hmem
      · exact h.guards.inputs input hmem
      · obtain ⟨hnull, -, hcommits⟩ := hsane input (hinput hmem)
        exact ⟨hnull, fun tx' hoccurs hid => hcommits tx' hoccurs (Eq.trans hid hfunds.symm)⟩
    · intro input hmem
      rcases mem_union.mp hmem with hmem | hmem
      · exact (h.guards.watching input hmem).imp_left (mem_union_left _)
      · exact .inl (mem_union_right _ hmem)
    · intro height hheight
      obtain ⟨hle, input, hmem, hat⟩ := h.guards.recorded height hheight
      exact ⟨hle, input, mem_union_left _ hmem, hat⟩
    · exact h.guards.fresh

/-- Events of a streamed block change neither heights nor watches. -/
theorem Tracked.read {events : List PushEvent} (h : Tracked W chain key entry)
    (hread : ReadBy E events entry entry') : Tracked W chain key entry' := by
  obtain ⟨state, hstate, rfl⟩ := hread
  have hsaw := State.sawBlock_of_pushAll hstate
  rw [State.pushAll_frame hstate]
  exact ⟨{ h.follows with fresh := fun hfresh => h.follows.fresh (hsaw hfresh) },
    { h.guards with fresh := fun hfresh => h.guards.fresh (hsaw hfresh) }⟩

/-! ## The tracker -/

/-- Every listener agrees with the chain up to the tip, and has read what has been streamed. -/
structure Tracks (W : World E) (T : MonitorTracker) : Prop where
  stream : StreamSound E T
  consensus : ConsensusValid E.txid (chainOf W T)
  listeners : ∀ key entry, T.listeners.lookup key = some entry → Tracked W (chainOf W T) key entry

theorem Tracks.of_new {network : Network} {start : Nat} {tip : Headers}
    (hnew : ChainTracker.new E network start tip = .ok T)
    (hvalid : ConsensusValid E.txid (W.chain (E.blockHash tip.header))) : Tracks W T := by
  obtain ⟨_, -, hT⟩ := bind_ok hnew
  cases hT
  exact ⟨StreamSound.of_idle rfl, hvalid, fun _ _ hentry => (nomatch hentry)⟩

/-- A proper step keeps every listener in agreement with the chain. -/
theorem Tracks.step (hlaw : LawfulDecoder E) (h : Tracks W T)
    (hproper : Proper W ((chainMachine E).entry T event)) :
    Tracks W ((chainMachine E).step T event).1 := by
  have hconsensus := consensus_step h.consensus hproper
  refine ⟨h.stream.step hlaw hproper, hconsensus, fun key entry' hentry' => ?_⟩
  have hsane := hproper.sane
  have hfits := hproper.fits
  cases hproper.origin h.stream hentry' with
  | registered hevent hchain =>
    rw [hchain]
    exact Tracked.ready (hevent ▸ hsane : Sane W (.readyChannel key)) T.height
  | kept hentry hchain =>
    rw [hchain]
    exact h.listeners key _ hentry
  | signed hevent hfunds hentry hchain =>
    rw [hchain]
    exact (h.listeners key _ hentry).signed (hevent ▸ hsane) hfunds
  | read hentry hread hchain =>
    rw [hchain]
    exact (h.listeners key _ hentry).read hread
  | @added entry _ header proof hevent _ hentry hnotice hchain =>
    rw [hchain] at hconsensus ⊢
    exact (h.listeners key _ hentry).add hconsensus
      ((hevent ▸ hfits : Fits T (.addBlock header proof)) key entry hentry) hnotice
  | @removed entry _ proof hevent hentry hnotice hchain =>
    have htracked := h.listeners key _ hentry
    have hvalid := h.consensus
    have hoccurs : ∀ tx ∈ history (chainOf W T), W.Occurs tx := occurs_of_mem
    rw [hchain] at htracked hvalid hoccurs
    exact htracked.remove hvalid hoccurs
      ((hevent ▸ hfits : Fits T (.removeBlock proof)) key entry hentry) hnotice

end ChainTracker

end ValidatingSigner
