import Vls.Chain.World

/-!
# Blocks delivered to the tracker

A block is delivered with a complete proof: a filter proof brings every transaction of the block
that matches what is watched, and a streamed block has been streamed whole.  From such a block every
monitor takes notice of what concerns it, unless it was registered in the middle of the stream.
-/

namespace ValidatingSigner

open Base Monitor ChainMonitor State

namespace ChainTracker

variable {E : ChainEnv} {T T' : MonitorTracker}

/-! ## Complete proofs -/

variable {entry : ChainMonitor × ListenSlot} {key : OutPoint} {proof : TxoProof}

/-- The transaction matches what the tracker watches. -/
def Matches (E : ChainEnv) (T : MonitorTracker) (isRemove : Bool) (tx : Transaction) : Prop :=
  E.txid tx ∈ T.txidWatches ∨ ∃ outpoint ∈ T.outpointWatches isRemove, Spends tx outpoint

instance (E : ChainEnv) (T : MonitorTracker) (isRemove : Bool) (tx : Transaction) :
    Decidable (Matches E T isRemove tx) :=
  inferInstanceAs (Decidable (_ ∨ ∃ outpoint ∈ T.outpointWatches isRemove, Spends tx outpoint))

/-- The proof brings the matching transactions of the block, or the block has been streamed. -/
def Brings (E : ChainEnv) (T : MonitorTracker) (header : BlockHeader) (body : List Transaction)
    (isRemove : Bool) : ProofType → Prop
  | .filter _ txs => txs.Sublist body ∧ ∀ tx ∈ body, Matches E T isRemove tx → tx ∈ txs
  | .block _ => True
  | .externalBlock => ∀ state, T.decodeState = some state →
    E.decoded state.bytes = some (blockEvents E.txid header body)

instance (E : ChainEnv) (T : MonitorTracker) (header : BlockHeader) (body : List Transaction)
    (isRemove : Bool) : (proof : ProofType) → Decidable (Brings E T header body isRemove proof)
  | .filter _ txs => inferInstanceAs (Decidable (txs.Sublist body ∧ _))
  | .block _ => inferInstanceAs (Decidable True)
  | .externalBlock => decidable_of_iff (∀ state ∈ T.decodeState,
      E.decoded state.bytes = some (blockEvents E.txid header body)) Iff.rfl

/-- Added and removed blocks belong to the tree of blocks and come with complete proofs. -/
def Delivered {E : ChainEnv} (W : World E) (T : MonitorTracker) : ChainEvent → Prop
  | .addBlock header proof =>
    W.valid header ∧ Brings E T header (W.body header) false proof.proof
  | .removeBlock proof =>
    W.valid T.tip.header ∧ Brings E T T.tip.header (W.body T.tip.header) true proof.proof
  | _ => True

/-- The chain up to the tip of a tracker. -/
def chainOf {E : ChainEnv} (W : World E) (T : MonitorTracker) : Chain :=
  W.chain (E.blockHash T.tip.header)

theorem mem_foldl_union {α β : Type} [DecidableEq β] {f : α → Finset β} {l : List α} {x : α}
    {b : β} (hx : x ∈ l) (hb : b ∈ f x) (s : Finset β) :
    b ∈ l.foldl (fun watches entry => watches ∪ f entry) s := by
  have hmono (l : List α) (s : Finset β) (hs : b ∈ s) :
      b ∈ l.foldl (fun watches entry => watches ∪ f entry) s := by
    induction l generalizing s with
    | nil => exact hs
    | cons y l ih => exact ih _ (Finset.mem_union_left _ hs)
  induction l generalizing s with
  | nil => exact absurd hx List.not_mem_nil
  | cons y l ih =>
    rcases List.mem_cons.mp hx with rfl | hx
    · exact hmono l _ (Finset.mem_union_right _ hb)
    · exact ih hx _

theorem mem_txidWatches {id : Txid} (hentry : T.listeners.lookup key = some entry)
    (hid : id ∈ entry.2.txidWatches) : id ∈ T.txidWatches :=
  mem_foldl_union (f := fun e : Sigma fun _ : OutPoint => ChainMonitor × ListenSlot =>
    e.2.2.txidWatches) (AList.mem_lookup_iff.mp hentry) hid ∅

theorem mem_outpointWatches {outpoint : OutPoint} {isRemove : Bool}
    (hentry : T.listeners.lookup key = some entry)
    (hwatched : outpoint ∈ entry.2.watches ∨ isRemove = true ∧ outpoint ∈ entry.2.seen) :
    outpoint ∈ T.outpointWatches isRemove := by
  unfold outpointWatches
  simp only [Finset.union_assoc]
  refine mem_foldl_union (f := fun e : Sigma fun _ : OutPoint => ChainMonitor × ListenSlot =>
    e.2.2.watches ∪ if isRemove = true then e.2.2.seen else ∅) (AList.mem_lookup_iff.mp hentry) ?_ ∅
  rcases hwatched with hwatched | ⟨rfl, hseen⟩
  · exact Finset.mem_union_left _ hwatched
  · exact Finset.mem_union_right _ hseen

/-! ## Streams -/

variable {hash : BlockHash}

/-- The stream that is open has been read by every monitor that does not ignore it. -/
structure StreamSound (E : ChainEnv) (T : MonitorTracker) : Prop where
  reads : ∀ state, T.decodeState = some state → ∃ events, E.decoded state.bytes = some events ∧
    (∀ header rest, events = .blockStart header :: rest → E.blockHash header = state.blockHash) ∧
    ∀ key entry, T.listeners.lookup key = some entry → entry.1.state.Reads E.blockHash events

theorem StreamSound.of_idle (h : T.decodeState = none) : StreamSound E T := by
  constructor
  intro state hstate
  rw [h] at hstate
  cases hstate

theorem StreamSound.registered (h : StreamSound E T) (fundingOutpoint : OutPoint) :
    StreamSound E (T.registered fundingOutpoint) := by
  constructor
  intro state hstate
  obtain ⟨events, hevents, hhash, hreads⟩ := h.reads state hstate
  refine ⟨events, hevents, hhash, fun key entry hentry => ?_⟩
  rw [lookup_registered] at hentry
  by_cases hkey : key = fundingOutpoint
  · rw [if_pos hkey] at hentry
    cases hentry
    exact fun _ _ _ => .inl rfl
  · rw [if_neg hkey] at hentry
    exact hreads key entry hentry

theorem StreamSound.fundingSigned (h : StreamSound E T) (tx : Transaction) :
    StreamSound E (T.fundingSigned E tx) := by
  constructor
  intro state hstate
  rw [fundingSigned_frame] at hstate
  obtain ⟨events, hevents, hhash, hreads⟩ := h.reads state hstate
  refine ⟨events, hevents, hhash, fun key entry hentry => ?_⟩
  rw [lookup_fundingSigned] at hentry
  obtain ⟨entry₀, hentry₀, rfl⟩ := Option.map_eq_some_iff.mp hentry
  by_cases hfunds : key.txid = E.txid tx ∧ key.vout < tx.output.length
  · rw [if_pos hfunds]
    intro header rest hevents
    rcases hreads key entry₀ hentry₀ header rest hevents with hready | ⟨d, hread⟩
    · exact .inl hready
    · refine .inr ⟨d, hread.decodeState, hread.plain, fun outpoint hspent => ?_⟩
      obtain ⟨hfunding, hinput⟩ := hread.doubleSpent outpoint hspent
      exact ⟨Finset.mem_union_left _ hfunding, hinput⟩
  · rw [if_neg hfunds]
    exact hreads key entry₀ hentry₀

theorem StreamSound.streams (hlaw : LawfulDecoder E) (h : StreamSound E T)
    {chunk bytes : List UInt8} {events : List PushEvent}
    (hstreams : Streams E T hash chunk bytes events T') : StreamSound E T' := by
  obtain ⟨before, hbefore, hhash, hreads⟩ : ∃ before, E.decoded bytes = some before ∧
      (∀ header rest, before = .blockStart header :: rest → E.blockHash header = hash) ∧
      ∀ key entry, T.listeners.lookup key = some entry →
        entry.1.state.Reads E.blockHash before := by
    rcases hstreams.before with ⟨-, rfl⟩ | ⟨state, hstate, rfl, rfl⟩
    · exact ⟨[], hlaw.empty, fun _ _ h => (nomatch h), fun _ _ _ _ _ h => (nomatch h)⟩
    · exact h.reads state hstate
  constructor
  intro state hstate
  obtain ⟨state', hstate', rfl, hbytes⟩ := hstreams.after
  obtain rfl := Option.some.inj (hstate.symm.trans hstate')
  rw [hbytes]
  refine ⟨events, hstreams.decoded, ?_, hstreams.induction hlaw (P := fun events s =>
    s.Reads E.blockHash events) (fun _ _ _ _ _ _ hblock _ hread => Reads.push hblock hread)
    hbefore hreads⟩
  intro header rest hevents
  obtain ⟨more, hmore⟩ := hlaw.grows _ _ _ _ hbefore hstreams.decoded
  rcases before with _ | ⟨first, before⟩
  · have hchecked := hstreams.checked (.blockStart header) (by
      rw [hbefore, hevents]
      exact List.mem_cons_self)
    exact assert_eq_ok.mp hchecked
  · rw [hevents, List.cons_append] at hmore
    obtain ⟨rfl, -⟩ := List.cons.inj hmore
    exact hhash header before rfl

/-! ## Notices -/

variable {body txs : List Transaction} {header : BlockHeader} {entry' : ChainMonitor × ListenSlot}

/-- The transaction matches what a listener watches. -/
def Concerns (E : ChainEnv) (slot : ListenSlot) (isRemove : Bool) (tx : Transaction) : Prop :=
  E.txid tx ∈ slot.txidWatches ∨ ∃ outpoint,
    (outpoint ∈ slot.watches ∨ isRemove = true ∧ outpoint ∈ slot.seen) ∧ Spends tx outpoint

/-- The transactions are those of the block that concern a listener, and possibly others. -/
structure Covers (E : ChainEnv) (slot : ListenSlot) (isRemove : Bool) (body : List Transaction)
    (txs : List Transaction) : Prop where
  sublist : txs.Sublist body
  complete : ∀ tx ∈ body, Concerns E slot isRemove tx → tx ∈ txs

/-- What an added block with a body makes of a listener; only a streamed block can be ignored. -/
inductive AddNotice (E : ChainEnv) (streamed : Bool) (body : List Transaction) :
    ChainMonitor × ListenSlot → ChainMonitor × ListenSlot → Prop
  | ignored {entry : ChainMonitor × ListenSlot} (hstreamed : streamed = true)
    (h : entry.1.state.isNotReadyForPush = true) : AddNotice E streamed body entry entry
  | noticed {monitor : ChainMonitor} {slot : ListenSlot} {txs : List Transaction}
    {changes : List StateChange} {height : Nat} (hcovers : Covers E slot false body txs)
    (hdetected : monitor.state.Detected E.txid txs changes)
    (hexact : streamed = false → changes = monitor.state.changesOf E.txid txs)
    (hread : ∀ tx ∈ txs, monitor.state.TxSafe E.txid tx)
    (hsafe : monitor.state.AddSafe (haveFundingConfirmed changes) changes)
    (hheight : (E.overflow.u32 (monitor.state.height + 1) : Asserted Nat) = .ok height) :
    AddNotice E streamed body (monitor, slot) ({ monitor with
      state := State.added (haveFundingConfirmed changes)
        { monitor.state with decodeState := none, sawBlock := true, height := height } changes },
      slot.added (confirmed changes) (spent changes))

/-- What a removed block with a body makes of a listener. -/
inductive RemoveNotice (E : ChainEnv) (body : List Transaction) :
    ChainMonitor × ListenSlot → ChainMonitor × ListenSlot → Prop
  | noticed {monitor : ChainMonitor} {slot : ListenSlot} {txs : List Transaction}
    {changes : List StateChange} {height : Nat} (hcovers : Covers E slot true body txs)
    (hchanges : changes = monitor.state.changesOf E.txid txs)
    (hsafe : monitor.state.RemoveSafe (haveFundingConfirmed changes) changes)
    (hheight : (E.overflow.sub32 monitor.state.height 1 : Asserted Nat) = .ok height) :
    RemoveNotice E body (monitor, slot) ({ monitor with
      state := { State.removed (haveFundingConfirmed changes)
        { monitor.state with decodeState := none, sawBlock := true } changes with
        height := height } },
      slot.removed (confirmed changes) (spent changes))

theorem Covers.of_brings {isRemove : Bool} {content : List UInt8}
    (hbrings : Brings E T header body isRemove (.filter content txs))
    (hentry : T.listeners.lookup key = some entry) : Covers E entry.2 isRemove body txs where
  sublist := hbrings.1
  complete tx htx hconcerns := by
    refine hbrings.2 tx htx ?_
    rcases hconcerns with hid | ⟨outpoint, hwatched, hspends⟩
    · exact .inl (mem_txidWatches hentry hid)
    · exact .inr ⟨outpoint, mem_outpointWatches hentry hwatched, hspends⟩

theorem Covers.refl (slot : ListenSlot) (isRemove : Bool) (body : List Transaction) :
    Covers E slot isRemove body body :=
  ⟨List.Sublist.refl body, fun _ htx _ => htx⟩

theorem ListenSlot.added_nil (slot : ListenSlot) : slot.added [] [] = slot := by
  simp [ListenSlot.added]

theorem changes_of_proof (s : State) (txs : List Transaction) (hash : BlockHash) :
    (s.afterTxs E.txid txs ⟨[], 0, 0, 0, none, hash⟩).changes = s.changesOf E.txid txs :=
  (changes_afterTxs txs).trans (List.nil_append _)

/-- The transactions of a filter proof are noticed when a block is added. -/
theorem addNotice_filter (hcovers : Covers E entry.2 false body txs)
    (h : notifyAdd (listener E) (some txs) hash entry = .ok entry') :
    AddNotice E false body entry entry' := by
  obtain ⟨s, s', adds, removes, hs, hend, rfl⟩ := notifyAdd_eq_ok.mp h
  obtain ⟨hread, rfl⟩ := reading_some.mp hs
  obtain ⟨-, hsafe, height, hheight, hr⟩ := (onAddBlockEnd_eq_ok rfl).mp hend
  rw [changes_of_proof] at hsafe hr
  obtain ⟨rfl, rfl, rfl⟩ : _ ∧ _ ∧ _ := by simpa only [Prod.mk.injEq] using hr
  exact .noticed hcovers (Detected.of_changesOf _ txs) (fun _ => rfl) hread
    ⟨hsafe.1, hsafe.2, hsafe.3⟩ hheight

/-- The transactions of a filter proof are noticed when a block is removed. -/
theorem removeNotice_filter (hcovers : Covers E entry.2 true body txs)
    (h : notifyRemove (listener E) (some txs) hash entry = .ok entry') :
    RemoveNotice E body entry entry' := by
  obtain ⟨s, s', adds, removes, hs, hend, rfl⟩ := notifyRemove_eq_ok.mp h
  obtain ⟨-, rfl⟩ := reading_some.mp hs
  obtain ⟨-, hsafe, height, hheight, hr⟩ := (onRemoveBlockEnd_eq_ok rfl).mp hend
  rw [changes_of_proof] at hsafe hr
  obtain ⟨rfl, rfl, rfl⟩ : _ ∧ _ ∧ _ := by simpa only [Prod.mk.injEq] using hr
  exact .noticed hcovers rfl ⟨hsafe.1, hsafe.2, hsafe.3, hsafe.4⟩ hheight

/-- A streamed block is noticed, or ignored, when it is added. -/
theorem addNotice_streamed
    (hreads : entry.1.state.Reads E.blockHash (blockEvents E.txid header body))
    (h : notifyAdd (listener E) none hash entry = .ok entry') :
    AddNotice E true body entry entry' := by
  obtain ⟨s, s', adds, removes, hs, hend, rfl⟩ := notifyAdd_eq_ok.mp h
  cases hs
  rcases hreads header _ rfl with hready | ⟨d, hread⟩
  · rw [onAddBlockEnd, if_pos hready, Except.ok.injEq] at hend
    obtain ⟨rfl, rfl, rfl⟩ : _ ∧ _ ∧ _ := by simpa only [Prod.mk.injEq] using hend
    rw [ListenSlot.added_nil]
    exact .ignored rfl hready
  · obtain ⟨-, hsafe, height, hheight, hr⟩ := (onAddBlockEnd_eq_ok hread.decodeState).mp hend
    obtain ⟨rfl, rfl, rfl⟩ : _ ∧ _ ∧ _ := by simpa only [Prod.mk.injEq] using hr
    exact .noticed (Covers.refl _ _ _) hread.detected.1
      (fun h => absurd h.symm Bool.false_ne_true) hread.detected.2.1 hsafe hheight

/-- Every monitor takes notice of an added block. -/
theorem Adds.notice (hsound : StreamSound E T) (hadds : Adds E (listener E) T header proof T')
    (hbrings : Brings E T header body false proof.proof) :
    Pointwise (fun _ => AddNotice E proof.proof.isExternal body) T T' := by
  obtain ⟨txs, htxs, hlisteners⟩ := hadds.listeners
  have hpoint := Pointwise.of_traverse hlisteners
  have hnotice (key : OutPoint) (entry entry' : ChainMonitor × ListenSlot)
      (hentry : T.listeners.lookup key = some entry)
      (hnotify : notifyAdd (listener E) txs (E.blockHash header) entry = .ok entry') :
      AddNotice E proof.proof.isExternal body entry entry' := by
    have hexternal := hadds.stream.external
    rcases hproof : proof.proof with ⟨content, txs'⟩ | _ | _
    · rw [hproof] at htxs hbrings
      cases htxs
      exact addNotice_filter (Covers.of_brings hbrings hentry) hnotify
    · rw [hproof] at htxs
      cases htxs
    · rw [hproof] at htxs hbrings hexternal
      cases htxs
      obtain ⟨state, hstate⟩ := Option.isSome_iff_exists.mp hexternal.symm
      obtain ⟨events, hevents, -, hreads⟩ := hsound.reads state hstate
      obtain rfl := Option.some.inj (hevents.symm.trans (hbrings state hstate))
      exact addNotice_streamed (hreads key entry hentry) hnotify
  constructor
  · intro key entry hentry
    obtain ⟨entry', hentry', hnotify⟩ := hpoint.forward key entry hentry
    exact ⟨entry', hentry', hnotice key entry entry' hentry hnotify⟩
  · intro key entry' hentry'
    obtain ⟨entry, hentry, hnotify⟩ := hpoint.backward key entry' hentry'
    exact ⟨entry, hentry, hnotice key entry entry' hentry hnotify⟩

/-- The tip of a tree of blocks is not its own parent. -/
theorem blockHash_ne_prevBlockhash (W : World E) (hvalid : W.valid header) :
    E.blockHash header ≠ header.prevBlockhash := by
  intro heq
  have hlength := congrArg List.length (W.grows header hvalid)
  rw [heq, List.length_cons] at hlength
  omega

/-- A tip that is removed was not streamed for it: the stream would have to announce the hash of the
block below. -/
theorem Removes.not_external (W : World E) (hsound : StreamSound E T)
    (hvalid : W.valid T.tip.header) (hremoves : Removes E (listener E) T proof T')
    (hbrings : Brings E T T.tip.header body true proof.proof) : proof.proof ≠ .externalBlock := by
  intro hproof
  have hexternal := hremoves.stream.external
  rw [hproof] at hbrings hexternal
  obtain ⟨state, hstate⟩ := Option.isSome_iff_exists.mp hexternal.symm
  obtain ⟨events, hevents, hhash, -⟩ := hsound.reads state hstate
  obtain rfl := Option.some.inj (hevents.symm.trans (hbrings state hstate))
  have hstreamed := hhash T.tip.header _ rfl
  rw [(hremoves.stream.finished state hstate).2,
    ← prevBlockhash_of_validateHeader hremoves.validHeader] at hstreamed
  exact blockHash_ne_prevBlockhash W hvalid hstreamed

/-- Every monitor takes notice of a removed block. -/
theorem Removes.notice (W : World E) (hsound : StreamSound E T) (hvalid : W.valid T.tip.header)
    (hremoves : Removes E (listener E) T proof T')
    (hbrings : Brings E T T.tip.header body true proof.proof) :
    Pointwise (fun _ => RemoveNotice E body) T T' := by
  obtain ⟨txs, htxs, hlisteners⟩ := hremoves.listeners
  have hpoint := Pointwise.of_traverse hlisteners
  have hfilter : ∃ content txs', proof.proof = .filter content txs' ∧ txs = some txs' := by
    have hnot := hremoves.not_external W hsound hvalid hbrings
    rcases hproof : proof.proof with ⟨content, txs'⟩ | _ | _
    · rw [hproof] at htxs
      exact ⟨content, txs', rfl, (Except.ok.inj htxs).symm⟩
    · rw [hproof] at htxs
      cases htxs
    · exact absurd hproof hnot
  obtain ⟨content, txs', hproof, rfl⟩ := hfilter
  rw [hproof] at hbrings
  constructor
  · intro key entry hentry
    obtain ⟨entry', hentry', hnotify⟩ := hpoint.forward key entry hentry
    exact ⟨entry', hentry', removeNotice_filter (Covers.of_brings hbrings hentry) hnotify⟩
  · intro key entry' hentry'
    obtain ⟨entry, hentry, hnotify⟩ := hpoint.backward key entry' hentry'
    exact ⟨entry, hentry, removeNotice_filter (Covers.of_brings hbrings hentry) hnotify⟩

end ChainTracker

end ValidatingSigner
