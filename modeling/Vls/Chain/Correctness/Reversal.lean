import Vls.Chain.Correctness.Integrity
import Vls.Chain.Reorg

/-!
# Reorganizations

A block that was just added is removed again.  The tracker and its monitors are restored exactly
when the block came with a filter proof and is reversible for every monitor: a streamed block can
never be removed, because the hash of its stream is compared with that of the block below it.
-/

namespace ValidatingSigner

open Base Monitor ChainMonitor Machine List

namespace ChainTracker

variable {E : ChainEnv} {W : World E} {T T' : MonitorTracker}

/-! ## Heights of the tracker -/

theorem sub32_lt {o : Overflow} {a b r : Nat} (ha : a < 2 ^ 32)
    (h : (o.sub32 a b : ChainResult Nat) = .ok r) : r < 2 ^ 32 := by
  rw [Overflow.eq_mod_of_sub32 ha h]
  exact Nat.mod_lt _ (Nat.two_pow_pos 32)

theorem u32_lt {o : Overflow} {value r : Nat} (h : (o.u32 value : ChainResult Nat) = .ok r) :
    r < 2 ^ 32 := by
  rw [Overflow.eq_mod_of_uint h]
  exact Nat.mod_lt _ (Nat.two_pow_pos 32)

/-- The height of the tracker fits its type. -/
theorem height_lt_step {event : ChainEvent} (h : T.height < 2 ^ 32)
    (hanswered : NoAbort ((chainMachine E).step T event).2) :
    ((chainMachine E).step T event).1.height < 2 ^ 32 := by
  rcases stepped_or_refused hanswered with hstepped | heq | heq
  · generalize ((chainMachine E).step T event).1 = T' at hstepped ⊢
    cases hstepped with
    | readyChannel fundingOutpoint => exact h
    | fundingSigned tx =>
      rw [fundingSigned_frame]
      exact h
    | blockChunk offset hstreams =>
      rw [hstreams.same.2.2.1]
      exact h
    | addBlock hadds => exact u32_lt hadds.height
    | removeBlock hremoves => exact sub32_lt h hremoves.height
  · rw [heq]
    exact h
  · rw [heq]
    exact h

/-! ## Deliveries -/

/-- How a block is added and removed again: with filter proofs, or streamed in chunks each time. -/
inductive Delivery where
  | filter (added removed : TxoProof)
  | streamed (addedChunks removedChunks : List (Nat × List UInt8)) (added removed : TxoProof)

/-- The proofs are those of the kind of delivery. -/
def Delivery.WellFormed : Delivery → Prop
  | .filter added removed => (∃ content txs, added.proof = .filter content txs) ∧
    ∃ content txs, removed.proof = .filter content txs
  | .streamed _ _ added removed =>
    added.proof = .externalBlock ∧ removed.proof = .externalBlock

/-- The chunks of a block. -/
def chunkEvents (hash : BlockHash) (chunks : List (Nat × List UInt8)) : List ChainEvent :=
  chunks.map fun chunk => .blockChunk hash chunk.1 chunk.2

/-- The events that add the block. -/
def Delivery.adds (header : BlockHeader) (hash : BlockHash) : Delivery → List ChainEvent
  | .filter added _ => [.addBlock header added]
  | .streamed chunks _ added _ => chunkEvents hash chunks ++ [.addBlock header added]

/-- The events that remove the block. -/
def Delivery.removes (hash : BlockHash) : Delivery → List ChainEvent
  | .filter _ removed => [.removeBlock removed]
  | .streamed _ chunks _ removed => chunkEvents hash chunks ++ [.removeBlock removed]

/-- The block comes with filter proofs. -/
def Delivery.IsFilter : Delivery → Prop
  | .filter _ _ => True
  | .streamed _ _ _ _ => False

/-- The tracker is as it was, with the headers kept up to the longest reorganization. -/
structure TakenBack (T T' : MonitorTracker) : Prop where
  tip : T'.tip = T.tip
  height : T'.height = T.height
  headers : T'.headers = T.headers.take (maxReorgSize - 1)
  listeners : Pointwise (fun _ => Restored) T T'

/-! ## Filter proofs -/

variable {header : BlockHeader} {added removed : TxoProof}

/-- Every listener takes notice of a block that comes with a filter proof. -/
theorem Tracks.noticed (htracks : Tracks W T) {proof : TxoProof}
    (hfilter : proof.proof.isExternal = false)
    (hdelivered : Delivered W T (.addBlock header proof))
    (hfits : Fits T (.addBlock header proof))
    (hadds : Adds E (listener E) T header proof T') :
    Pointwise (fun key => Noticed W key (chainOf W T) (W.body header)) T T' := by
  have hvalid := W.consensus header hdelivered.1
  rw [W.grows header hdelivered.1, prevBlockhash_of_validateHeader hadds.validHeader] at hvalid
  have hnotice := hadds.notice htracks.stream hdelivered.2
  rw [hfilter] at hnotice
  constructor
  · intro key entry hentry
    obtain ⟨entry', hentry', hnotice⟩ := hnotice.forward key entry hentry
    exact ⟨entry', hentry', (htracks.listeners key entry hentry).noticed hvalid
      (hfits key entry hentry) hnotice⟩
  · intro key entry' hentry'
    obtain ⟨entry, hentry, hnotice⟩ := hnotice.backward key entry' hentry'
    exact ⟨entry, hentry, (htracks.listeners key entry hentry).noticed hvalid
      (hfits key entry hentry) hnotice⟩

/-- Removing the block that was just added restores the tracker. -/
theorem TakenBack.of_removes {T₂ : MonitorTracker} (hheight : T.height < 2 ^ 32)
    (hadds : Adds E (listener E) T header added T')
    (hremoves : Removes E (listener E) T' removed T₂)
    (hlisteners : Pointwise (fun _ => Restored) T T₂) : TakenBack T T₂ := by
  have hheaders := hremoves.headers
  rw [hadds.headers] at hheaders
  obtain ⟨htip, hrest⟩ := cons.inj hheaders
  have hback : (E.overflow.sub32 T'.height 1 : ChainResult Nat) = .ok T.height :=
    Overflow.sub32_of_u32 hheight hadds.height
  exact ⟨htip.symm, Overflow.sub32_unique hremoves.height hback, hrest.symm, hlisteners⟩

/-- The tip is removed when every listener takes notice of it. -/
theorem Adds.removes_ok (hheight : T.height < 2 ^ 32) {content : List UInt8}
    {txs : List Transaction} (hremoved : removed.proof = .filter content txs)
    (hadds : Adds E (listener E) T header added T')
    (haccepted : ProofAccepted E T' removed)
    (hnotify : ∀ key entry, T'.listeners.lookup key = some entry →
      ∃ entry', notifyRemove (listener E) (some txs) (E.blockHash T.tip.header) entry =
      .ok entry') : ((chainMachine E).step T' (.removeBlock removed)).2 = .ok () := by
  have hback : (E.overflow.sub32 T'.height 1 : ChainResult Nat) = .ok T.height :=
    Overflow.sub32_of_u32 hheight hadds.height
  have hstream : StreamMatches E T' removed (E.blockHash T.tip.header) := by
    constructor
    · rw [hremoved, hadds.decodeState]
      rfl
    · intro state hstate
      rw [hadds.decodeState] at hstate
      cases hstate
  have hheader : validateHeader E T'.network T.height T.tip.header T'.tip.header = .ok () := by
    rw [hadds.network, hadds.tip]
    exact hadds.validHeader
  obtain ⟨listeners, hlisteners⟩ := Table.exists_traverse hnotify
  have hexec := exec_removeBlock_ok hadds.headers hstream hback
    (validateBlock_eq_ok.mpr ⟨hheader, haccepted _ _ _ hadds.headers hback⟩)
    (by rw [hremoved]; rfl) hlisteners
  simp only [chainMachine, hexec]
  rfl

/-- A block that was added with a filter proof is removed exactly when it is reversible, and the
removal restores the tracker. -/
theorem filter_taken_back_iff (htracks : Tracks W T) (hheight : T.height < 2 ^ 32)
    {content : List UInt8} {txs : List Transaction} (hadded : added.proof.isExternal = false)
    (hremoved : removed.proof = .filter content txs)
    (hdelivered : Delivered W T (.addBlock header added))
    (hfits : Fits T (.addBlock header added))
    (hadds : Adds E (listener E) T header added T')
    (hdelivered' : Delivered W T' (.removeBlock removed)) (haccepted : ProofAccepted E T' removed) :
    (((chainMachine E).step T' (.removeBlock removed)).2 = .ok () ∧
      TakenBack T ((chainMachine E).step T' (.removeBlock removed)).1) ↔
      ∀ key entry, T.listeners.lookup key = some entry →
        Reversible E key entry.1.state (W.body header) := by
  have hnoticed := htracks.noticed hadded hdelivered hfits hadds
  obtain ⟨hvalid', hbrings'⟩ := hdelivered'
  have hback (hok : ((chainMachine E).step T' (.removeBlock removed)).2 = .ok ()) :
      ∃ T₂, ((chainMachine E).step T' (.removeBlock removed)).1 = T₂ ∧
        Removes E (listener E) T' removed T₂ ∧
        Pointwise (fun _ => RemoveNotice E (W.body header)) T' T₂ := by
    have hstepped := stepped hok
    generalize ((chainMachine E).step T' (.removeBlock removed)).1 = T₂ at hstepped ⊢
    cases hstepped with
    | removeBlock hremoves =>
      have hnotice := hremoves.notice W (StreamSound.of_idle hadds.decodeState) hvalid' hbrings'
      rw [hadds.tip] at hnotice
      exact ⟨T₂, rfl, hremoves, hnotice⟩
  constructor
  · rintro ⟨hok, -⟩ key entry hentry
    obtain ⟨T₂, -, -, hnotice⟩ := hback hok
    obtain ⟨entry', hentry', hnoticed⟩ := hnoticed.forward key entry hentry
    obtain ⟨entry₂, -, hremoved⟩ := hnotice.forward key entry' hentry'
    exact hnoticed.reversible hremoved
  · intro hreversible
    have hok := hadds.removes_ok hheight hremoved haccepted fun key entry' hentry' => by
      obtain ⟨entry, hentry, hnoticed⟩ := hnoticed.backward key entry' hentry'
      rw [hremoved, hadds.tip] at hbrings'
      exact hnoticed.notifyRemove (hreversible key entry hentry)
        (Covers.of_brings hbrings' hentry') _
    obtain ⟨T₂, heq, hremoves, hnotice⟩ := hback hok
    refine ⟨hok, heq ▸ TakenBack.of_removes hheight hadds hremoves
      ((hnoticed.trans hnotice).mono ?_)⟩
    rintro key entry entry₂ ⟨entry', hnoticed, hremoved⟩
    exact hnoticed.restored hremoved

/-! ## Blocks that are added and removed again -/

/-- The block is added, by steps with valid blocks and complete proofs that succeed. -/
def Accepted (W : World E) (T : MonitorTracker) (header : BlockHeader) (delivery : Delivery) :
    Prop :=
  ∀ x ∈ (chainMachine E).trace T (delivery.adds header (E.blockHash header)),
    Proper W x ∧ x.answer = .ok ()

/-- The steps that remove the block come with complete and valid proofs.  The proof is taken to be
accepted at the hash of the block below, also where the removed block is streamed. -/
def RightlyRemoved (W : World E) (T : MonitorTracker) (header : BlockHeader)
    (delivery : Delivery) : Prop :=
  ∀ x ∈ (chainMachine E).trace T (delivery.removes (E.blockHash header)),
    Delivered W x.before x.event ∧
      ∀ proof, x.event = .removeBlock proof → ProofAccepted E x.before proof

/-- A run of proper steps keeps the listeners in agreement with the chain, and the height in range.
-/
theorem Tracks.run (hlaw : LawfulDecoder E) (htracks : Tracks W T) (hheight : T.height < 2 ^ 32)
    {events : List ChainEvent} (hrun : ∀ x ∈ (chainMachine E).trace T events, Proper W x) :
    Tracks W ((chainMachine E).final T events) ∧
      ((chainMachine E).final T events).height < 2 ^ 32 :=
  (chainMachine E).final_induction (C := Proper W) (P := fun T => Tracks W T ∧ T.height < 2 ^ 32)
    ⟨htracks, hheight⟩
    (fun _ _ h hproper => ⟨h.1.step hlaw hproper, height_lt_step h.2 hproper.answered⟩) events hrun

/-- Chunks that are read are proper steps. -/
theorem proper_of_mem_chunks {hash : BlockHash} {chunks : List (Nat × List UInt8)}
    {x : Entry MonitorTracker ChainEvent (ChainResult Unit)}
    (hx : x ∈ (chainMachine E).trace T (chunkEvents hash chunks)) (hok : x.answer = .ok ()) :
    Proper W x := by
  obtain ⟨chunk, -, hevent⟩ := mem_map.mp ((chainMachine E).event_mem_of_mem_trace hx)
  refine ⟨?_, ?_, ?_, fun message habort => ?_⟩
  · rw [← hevent]
    trivial
  · rw [← hevent]
    trivial
  · rw [← hevent]
    trivial
  · rw [hok] at habort
    cases habort

/-- A block that is streamed for its removal is never removed. -/
theorem streamed_not_removed (hlaw : LawfulDecoder E) (htracks : Tracks W T)
    {addedChunks removedChunks : List (Nat × List UInt8)}
    (hexternal : removed.proof = .externalBlock)
    (hremoves : RightlyRemoved W T header (.streamed addedChunks removedChunks added removed)) :
    ¬ ∀ x ∈ (chainMachine E).trace T
      ((Delivery.streamed addedChunks removedChunks added removed).removes (E.blockHash header)),
      x.answer = .ok () := by
  intro hok
  simp only [RightlyRemoved, Delivery.removes, trace_append, mem_append,
    trace_cons, trace_nil, mem_singleton] at hok hremoves
  generalize hT' : (chainMachine E).final T (chunkEvents (E.blockHash header) removedChunks) = T'
    at hok hremoves
  have hsound : StreamSound E T' := by
    rw [← hT']
    exact ((chainMachine E).final_induction (C := Proper W) (P := Tracks W) htracks
      (fun _ _ h hproper => h.step hlaw hproper) _
      fun x hx => proper_of_mem_chunks hx (hok x (.inl hx))).stream
  obtain ⟨hvalid, hbrings⟩ : Delivered W T' (.removeBlock removed) := (hremoves _ (.inr rfl)).1
  have hstepped := stepped (hok _ (.inr rfl))
  generalize ((chainMachine E).step T' (.removeBlock removed)).1 = T₂ at hstepped
  cases hstepped with
  | removeBlock hremoves => exact hremoves.not_external W hsound hvalid hbrings hexternal

/-- In every run, a valid block that has just been added is removed without an abort, and its
removal restores the tracker, exactly when it came with filter proofs and is reversible for every
monitor. -/
theorem block_taken_back_iff (hlaw : LawfulDecoder E) (W : World E) {network : Network}
    {start : Nat} (hstart : start < 2 ^ 32) {tip : Headers} {T₀ : MonitorTracker}
    (hnew : ChainTracker.new E network start tip = .ok T₀)
    (hvalid : ConsensusValid E.txid (W.chain (E.blockHash tip.header))) (events : List ChainEvent)
    (hrun : ∀ x ∈ (chainMachine E).trace T₀ events, Proper W x)
    (hT : (chainMachine E).final T₀ events = T) (header : BlockHeader) (delivery : Delivery)
    (hformed : delivery.WellFormed) (hadds : Accepted W T header delivery)
    (hT' : (chainMachine E).final T (delivery.adds header (E.blockHash header)) = T')
    (hremoves : RightlyRemoved W T' header delivery) :
    ((∀ x ∈ (chainMachine E).trace T' (delivery.removes (E.blockHash header)), x.answer = .ok ()) ∧
      TakenBack T ((chainMachine E).final T' (delivery.removes (E.blockHash header)))) ↔
      delivery.IsFilter ∧ ∀ key entry, T.listeners.lookup key = some entry →
        Reversible E key entry.1.state (W.body header) := by
  have hheight₀ : T₀.height < 2 ^ 32 := by
    obtain ⟨_, -, hpure⟩ := bind_ok hnew
    rw [← pure_eq_ok.mp hpure]
    exact hstart
  obtain ⟨htracks, hheight⟩ := (Tracks.of_new hnew hvalid).run hlaw hheight₀ hrun
  rw [hT] at htracks hheight
  have htracks' := (htracks.run hlaw hheight fun x hx => (hadds x hx).1).1
  rw [hT'] at htracks'
  cases delivery with
  | filter added removed =>
    obtain ⟨⟨content, txs, hadded⟩, content', txs', hremoved⟩ := hformed
    obtain ⟨⟨hdelivered, -, hfits, -⟩, hok⟩ := hadds _ (mem_singleton.mpr rfl)
    obtain ⟨hdelivered', haccepted⟩ := hremoves _ (mem_singleton.mpr rfl)
    have hstepped := stepped hok
    have hstep : ((chainMachine E).step T (.addBlock header added)).1 = T' := hT'
    rw [hstep] at hstepped
    cases hstepped with
    | addBlock hadds =>
      have hiff := filter_taken_back_iff htracks hheight (by rw [hadded]; rfl) hremoved hdelivered
        hfits hadds hdelivered' (haccepted removed rfl)
      simp only [Delivery.removes, trace_cons, trace_nil, mem_singleton,
        forall_eq, Delivery.IsFilter, true_and]
      exact hiff
  | streamed addedChunks removedChunks added removed =>
    have hnot := streamed_not_removed hlaw htracks' hformed.2 hremoves
    exact ⟨fun h => absurd h.1 hnot, fun h => h.1.elim⟩

open ChainSample

/-- A chain that funds the sample channel. -/
def fundedWorld : World quiet :=
  world [[funding]] (by decide) (ConsensusValid.of_validHistory (by decide))

/-- The funding block is added and removed with filter proofs. -/
def fundedDelivery : Delivery :=
  .filter (filterProof [funding])
    (filterProof [funding])

/-- The funding block of the sample chain is taken back. -/
theorem block_taken_back_iff_sample :
    ∃ T T' : MonitorTracker,
      Accepted fundedWorld T (ChainSample.header 1 0) fundedDelivery ∧
      RightlyRemoved fundedWorld T' (ChainSample.header 1 0) fundedDelivery ∧
      (∀ x ∈ (chainMachine quiet).trace T' (fundedDelivery.removes 1),
        x.answer = .ok ()) ∧
      TakenBack T ((chainMachine quiet).final T' (fundedDelivery.removes 1)) := by
  have hrun : ∀ x ∈ (chainMachine quiet).trace tracker
      [.readyChannel ⟨7, 0⟩], Proper fundedWorld x := by
    intro x hx
    rw [mem_singleton.mp hx]
    exact ⟨trivial, show (⟨7, 0⟩ : OutPoint) ≠ .null by decide, trivial, fun _ h => (nomatch h)⟩
  have hadds : Accepted fundedWorld ((chainMachine quiet).final tracker
      [.readyChannel ⟨7, 0⟩]) (ChainSample.header 1 0) fundedDelivery := by
    intro x hx
    rw [mem_singleton.mp hx]
    exact ⟨⟨⟨⟨0, by decide, rfl⟩, by decide⟩, trivial, by decide, fun _ h => (nomatch h)⟩, rfl⟩
  have hremoves : RightlyRemoved fundedWorld ((chainMachine quiet).final
      ((chainMachine quiet).final tracker [.readyChannel ⟨7, 0⟩])
      (fundedDelivery.adds (ChainSample.header 1 0) 1))
        (ChainSample.header 1 0) fundedDelivery := by
    intro x hx
    rw [mem_singleton.mp hx]
    refine ⟨⟨⟨0, by decide, rfl⟩, by decide⟩, ?_⟩
    intro proof _ prev rest height hheaders hheight
    obtain ⟨rfl, rfl⟩ := cons.inj hheaders
    cases hheight
    rfl
  have hiff := block_taken_back_iff lawful_quiet fundedWorld (by decide) rfl
    (ConsensusValid.of_validHistory (by decide)) [.readyChannel ⟨7, 0⟩] hrun rfl
    (ChainSample.header 1 0) fundedDelivery ⟨⟨_, _, rfl⟩, _, _, rfl⟩ hadds rfl hremoves
  exact ⟨_, _, hadds, hremoves, hiff.mpr ⟨trivial, (Table.forall_lookup _ _).mpr (by decide)⟩⟩

/-- A chain with an empty block, which can be streamed. -/
def emptyWorld : World (streaming (ChainSample.header 1 0) []) :=
  world [[]] (by decide) (ConsensusValid.of_validHistory (by decide))

/-- The empty block is streamed to be added, and streamed again to be removed. -/
def emptyDelivery : Delivery :=
  .streamed [(0, [0, 0])] [(0, [0, 0])] externalProof externalProof

/-- A streamed block is added and cannot be removed. -/
theorem streamed_removal_aborts :
    Accepted emptyWorld tracker (ChainSample.header 1 0) emptyDelivery ∧
    ∃ T', (chainMachine (streaming (ChainSample.header 1 0) [])).final
        tracker (emptyDelivery.adds (ChainSample.header 1 0) 1) = T' ∧
      RightlyRemoved emptyWorld T' (ChainSample.header 1 0) emptyDelivery ∧
      ((chainMachine (streaming (ChainSample.header 1 0) [])).trace T'
        (emptyDelivery.removes 1)).map (·.answer) = [.ok (), .error (.abort
          ("wrong block was sent " ++ (1 : BlockHash).toHex ++ " != " ++
            (0 : BlockHash).toHex))] := by
  refine ⟨?_, _, rfl, ?_, rfl⟩
  · intro x hx
    simp only [emptyDelivery, Delivery.adds, chunkEvents, map_cons, map_nil,
      singleton_append, trace_cons, trace_nil, mem_cons,
      not_mem_nil, or_false] at hx
    rcases hx with rfl | rfl
    · exact ⟨⟨trivial, trivial, trivial, fun _ h => (nomatch h)⟩, rfl⟩
    · exact ⟨⟨⟨⟨0, by decide, rfl⟩, by decide⟩, trivial, by decide, fun _ h => (nomatch h)⟩, rfl⟩
  · intro x hx
    simp only [emptyDelivery, Delivery.removes, chunkEvents, map_cons, map_nil,
      singleton_append, trace_cons, trace_nil, mem_cons,
      not_mem_nil, or_false] at hx
    rcases hx with rfl | rfl
    · exact ⟨trivial, fun _ h => (nomatch h)⟩
    · refine ⟨⟨⟨0, by decide, rfl⟩, by decide⟩, ?_⟩
      intro proof _ prev rest height hheaders hheight
      obtain ⟨rfl, rfl⟩ := cons.inj hheaders
      cases hheight
      rfl

end ChainTracker

end ValidatingSigner
