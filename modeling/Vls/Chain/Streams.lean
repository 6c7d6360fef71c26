import Vls.Chain.Changes
import Vls.Chain.Tracker

/-!
# Streamed blocks

A chunk of a streamed block is decoded into events that are pushed to every monitor.  Each monitor
reads the events by itself, and reading changes nothing but its decode state.
-/

namespace ValidatingSigner

open Base Monitor List ChainTracker

namespace Monitor.State

variable {blockHash : BlockHeader → BlockHash} {s s' : State} {event : PushEvent}
  {events : List PushEvent}

/-- Reading an event only changes how far the block has been read. -/
theorem push_frame (h : s.push blockHash event = .ok s') :
    s' = { s with sawBlock := s'.sawBlock, decodeState := s'.decodeState } := by
  cases event with
  | blockStart header =>
    cases h
    rfl
  | blockEnd =>
    cases h
    rfl
  | _ =>
    unfold push at h
    rcases decode_eq_ok.mp h with ⟨-, rfl⟩ | ⟨_, _, _, _, rfl⟩
    · rfl
    · rfl

theorem pushAll_frame (h : s.pushAll blockHash events = .ok s') :
    s' = { s with sawBlock := s'.sawBlock, decodeState := s'.decodeState } := by
  induction events generalizing s with
  | nil =>
    cases h
    rfl
  | cons event events ih =>
    rw [pushAll_cons] at h
    obtain ⟨s₁, hevent, hrest⟩ := bind_ok h
    have hframe := ih hrest
    rw [push_frame hevent] at hframe
    exact hframe

/-- Events never make a monitor forget that it saw a block. -/
theorem sawBlock_of_push (h : s.push blockHash event = .ok s') (hsaw : s'.sawBlock = false) :
    s.sawBlock = false := by
  cases event with
  | blockStart header =>
    cases h
    cases hsaw
  | blockEnd =>
    cases h
    exact hsaw
  | _ =>
    unfold push at h
    rcases decode_eq_ok.mp h with ⟨-, rfl⟩ | ⟨_, _, _, _, rfl⟩
    · exact hsaw
    · exact hsaw

theorem sawBlock_of_pushAll (h : s.pushAll blockHash events = .ok s') (hsaw : s'.sawBlock = false) :
    s.sawBlock = false := by
  induction events generalizing s with
  | nil =>
    cases h
    exact hsaw
  | cons event events ih =>
    rw [pushAll_cons] at h
    obtain ⟨s₁, hevent, hrest⟩ := bind_ok h
    exact sawBlock_of_push hevent (ih hrest)

theorem inner_of_mem_transactionEvents {txid : Transaction → Txid} {txs : List Transaction}
    (h : event ∈ txs.flatMap (transactionEvents txid)) : Inner event := by
  obtain ⟨tx, -, hevent⟩ := mem_flatMap.mp h
  simp only [transactionEvents, mem_append, mem_cons, mem_map,
    not_mem_nil, or_false] at hevent
  rcases hevent with ((rfl | ⟨input, -, rfl⟩) | ⟨output, -, rfl⟩) | rfl <;> trivial

end Monitor.State

namespace ChainTracker

variable {E : ChainEnv} {T T' : MonitorTracker} {hash : BlockHash} {events : List PushEvent}
  {R S : OutPoint → ChainMonitor × ListenSlot → ChainMonitor × ListenSlot → Prop}
  {event : PushEvent} {P : List PushEvent → State → Prop}

/-- Reading the same events, entry by entry. -/
def ReadBy (E : ChainEnv) (events : List PushEvent) (entry entry' : ChainMonitor × ListenSlot) :
    Prop :=
  ∃ state, entry.1.state.pushAll E.blockHash events = .ok state ∧
    entry' = ({ entry.1 with state := state }, entry.2)

/-- The listeners of `T'` are those of `T`, related key by key. -/
structure Pointwise (R : OutPoint → ChainMonitor × ListenSlot → ChainMonitor × ListenSlot → Prop)
    (T T' : MonitorTracker) : Prop where
  forward : ∀ key entry, T.listeners.lookup key = some entry →
    ∃ entry', T'.listeners.lookup key = some entry' ∧ R key entry entry'
  backward : ∀ key entry', T'.listeners.lookup key = some entry' →
    ∃ entry, T.listeners.lookup key = some entry ∧ R key entry entry'

theorem Pointwise.of_traverse
    {f : OutPoint → ChainMonitor × ListenSlot → Asserted (ChainMonitor × ListenSlot)}
    (h : T.listeners.traverse f = .ok T'.listeners) :
    Pointwise (fun key entry entry' => f key entry = .ok entry') T T' where
  forward _ _ hentry := by
    obtain ⟨entry', hf, hentry'⟩ := Table.lookup_of_traverse h hentry
    exact ⟨entry', hentry', hf⟩
  backward _ _ hentry' := Table.exists_of_lookup_traverse h hentry'

theorem Pointwise.mono (h : Pointwise R T T')
    (hRS : ∀ key entry entry', R key entry entry' → S key entry entry') :
    Pointwise S T T' where
  forward key entry hentry := by
    obtain ⟨entry', hentry', hR⟩ := h.forward key entry hentry
    exact ⟨entry', hentry', hRS _ _ _ hR⟩
  backward key entry' hentry' := by
    obtain ⟨entry, hentry, hR⟩ := h.backward key entry' hentry'
    exact ⟨entry, hentry, hRS _ _ _ hR⟩

theorem Pointwise.refl (T : MonitorTracker) : Pointwise (fun _ => Eq) T T where
  forward _ entry hentry := ⟨entry, hentry, rfl⟩
  backward _ entry hentry := ⟨entry, hentry, rfl⟩

theorem Pointwise.trans {T₁ T₂ T₃ : MonitorTracker} (h : Pointwise R T₁ T₂)
    (h' : Pointwise S T₂ T₃) :
    Pointwise (fun key entry entry' => ∃ middle, R key entry middle ∧ S key middle entry') T₁
      T₃ where
  forward key entry hentry := by
    obtain ⟨middle, hmiddle, hR⟩ := h.forward key entry hentry
    obtain ⟨entry', hentry', hS⟩ := h'.forward key middle hmiddle
    exact ⟨entry', hentry', middle, hR, hS⟩
  backward key entry' hentry' := by
    obtain ⟨middle, hmiddle, hS⟩ := h'.backward key entry' hentry'
    obtain ⟨entry, hentry, hR⟩ := h.backward key middle hmiddle
    exact ⟨entry, hentry, middle, hR, hS⟩

/-- Broadcasting an event makes every monitor read it. -/
theorem pushEvent_eq_ok (h : pushEvent E (ChainMonitor.listener E) hash T event = .ok T') :
    checkStreamedHash E hash event = .ok () ∧ T' = { T with listeners := T'.listeners } ∧
      Pointwise (fun _ => ReadBy E [event]) T T' := by
  obtain ⟨_, hcheck, h⟩ := bind_ok h
  obtain ⟨listeners, hlisteners, h⟩ := bind_ok h
  cases h
  refine ⟨hcheck, rfl, (Pointwise.of_traverse hlisteners).mono ?_⟩
  intro key entry entry' hentry
  obtain ⟨monitor, hmonitor, hentry⟩ := bind_ok hentry
  cases hentry
  obtain ⟨state, hstate, hmonitor⟩ := bind_ok hmonitor
  cases hmonitor
  refine ⟨state, ?_, rfl⟩
  rw [State.pushAll_cons, hstate]
  rfl

/-- Broadcasting events makes every monitor read them. -/
theorem pushEvents_eq_ok
    (h : events.foldlM (pushEvent E (ChainMonitor.listener E) hash) T = .ok T') :
    (∀ event ∈ events, checkStreamedHash E hash event = .ok ()) ∧
      T' = { T with listeners := T'.listeners } ∧ Pointwise (fun _ => ReadBy E events) T T' := by
  induction events generalizing T with
  | nil =>
    obtain rfl := Except.ok.inj h
    refine ⟨fun _ hmem => absurd hmem not_mem_nil, rfl, (Pointwise.refl T).mono ?_⟩
    rintro key entry _ rfl
    exact ⟨entry.1.state, rfl, rfl⟩
  | cons event events ih =>
    rw [foldlM_cons] at h
    obtain ⟨T₁, hevent, hrest⟩ := bind_ok h
    obtain ⟨hcheck, hT₁, hread⟩ := pushEvent_eq_ok hevent
    obtain ⟨hchecks, hT', hreads⟩ := ih hrest
    refine ⟨forall_mem_cons.mpr ⟨hcheck, hchecks⟩, ?_, (hread.trans hreads).mono ?_⟩
    · rw [hT', hT₁]
    · rintro key entry _ ⟨_, ⟨state, hstate, rfl⟩, state', hstate', rfl⟩
      refine ⟨state', ?_, rfl⟩
      rw [State.pushAll_cons]
      rw [State.pushAll_cons] at hstate
      obtain ⟨state₁, hpush, hnil⟩ := bind_ok hstate
      cases hnil
      rw [hpush]
      exact hstate'

/-- What the next chunk of a stream makes the monitors read. -/
structure Streams (E : ChainEnv) (T : MonitorTracker) (hash : BlockHash) (chunk : List UInt8)
    (bytes : List UInt8) (events : List PushEvent) (T' : MonitorTracker) : Prop where
  before : (T.decodeState = none ∧ bytes = []) ∨
    ∃ state, T.decodeState = some state ∧ state.blockHash = hash ∧ state.bytes = bytes
  decoded : E.decoded (bytes ++ chunk) = some events
  checked : ∀ event ∈ events.drop ((E.decoded bytes).getD []).length,
    checkStreamedHash E hash event = .ok ()
  listeners : Pointwise (fun _ => ReadBy E (events.drop ((E.decoded bytes).getD []).length)) T T'
  after : ∃ state, T'.decodeState = some state ∧ state.blockHash = hash ∧
    state.bytes = bytes ++ chunk
  same : T'.headers = T.headers ∧ T'.tip = T.tip ∧ T'.height = T.height ∧ T'.network = T.network

theorem decodeNext_eq_ok {state : BlockDecodeState} {offset : Nat} {chunk : List UInt8}
    (hstate : T.decodeState = some state)
    (h : T.decodeNext E (ChainMonitor.listener E) state hash offset chunk = .ok T') :
    ∃ events, Streams E T hash chunk state.bytes events T' := by
  obtain ⟨_, hhash, h⟩ := bind_ok h
  obtain ⟨_, -, h⟩ := bind_ok h
  obtain ⟨events, hevents, h⟩ := bind_ok h
  obtain ⟨T₁, hpushed, h⟩ := bind_ok h
  obtain ⟨next, -, h⟩ := bind_ok h
  cases h
  obtain ⟨hchecks, hT₁, hread⟩ := pushEvents_eq_ok hpushed
  have hhash' := assert_eq_ok.mp hhash
  refine ⟨events, ⟨.inr ⟨state, hstate, hhash', rfl⟩, expect_eq_ok.mp hevents, hchecks,
    ⟨hread.forward, hread.backward⟩, ⟨_, rfl, hhash', rfl⟩, ?_⟩⟩
  rw [hT₁]
  exact ⟨rfl, rfl, rfl, rfl⟩

/-- A chunk opens a stream or continues the one that is open. -/
theorem blockChunk_eq_ok {offset : Nat} {chunk : List UInt8}
    (h : T.blockChunk E (ChainMonitor.listener E) hash offset chunk = .ok T') :
    ∃ bytes events, Streams E T hash chunk bytes events T' := by
  unfold blockChunk at h
  by_cases hzero : offset = 0
  · rw [if_pos hzero] at h
    obtain ⟨_, hnone, h⟩ := bind_ok h
    obtain ⟨events, hstreams⟩ :=
      decodeNext_eq_ok (T := { T with decodeState := some ⟨[], 0, hash⟩ }) rfl h
    exact ⟨[], events, ⟨.inl ⟨assert_eq_ok.mp hnone, rfl⟩, hstreams.decoded, hstreams.checked,
      ⟨hstreams.listeners.forward, hstreams.listeners.backward⟩, hstreams.after, hstreams.same⟩⟩
  · rw [if_neg hzero, pure_bind] at h
    rcases hstate : T.decodeState with _ | state
    · simp only [hstate] at h
      cases h
    · simp only [hstate] at h
      obtain ⟨events, hstreams⟩ := decodeNext_eq_ok hstate h
      exact ⟨state.bytes, events, hstreams⟩

/-! ## Reading a stream -/

variable {header : BlockHeader} {txs : List Transaction} {before : List PushEvent}

/-- A property of the events read so far and the monitor that every next event keeps holds after any
number of events. -/
theorem pushAll_induction
    (hpush : ∀ before event s s', before ++ [event] <+: blockEvents E.txid header txs →
      checkStreamedHash E hash event = .ok () → P before s → s.push E.blockHash event = .ok s' →
      P (before ++ [event]) s') {s s' : State}
    (hevents : before ++ events <+: blockEvents E.txid header txs)
    (hchecked : ∀ event ∈ events, checkStreamedHash E hash event = .ok ()) (hbefore : P before s)
    (h : s.pushAll E.blockHash events = .ok s') : P (before ++ events) s' := by
  induction events generalizing before s with
  | nil =>
    cases h
    rwa [append_nil]
  | cons event events ih =>
    rw [State.pushAll_cons] at h
    obtain ⟨s₁, hevent, hrest⟩ := bind_ok h
    rw [← singleton_append, ← append_assoc] at hevents ⊢
    refine ih hevents (fun e he => hchecked e (mem_cons_of_mem _ he)) ?_ hrest
    exact hpush before event s s₁ ((prefix_append _ _).trans hevents)
      (hchecked event mem_cons_self) hbefore hevent

/-- Such a property carries over to every monitor from one chunk to the next. -/
theorem Streams.induction {chunk bytes : List UInt8} (hlaw : LawfulDecoder E)
    (hstreams : Streams E T hash chunk bytes events T')
    (hpush : ∀ before event s s' header txs, before ++ [event] <+: blockEvents E.txid header txs →
      checkStreamedHash E hash event = .ok () → P before s → s.push E.blockHash event = .ok s' →
      P (before ++ [event]) s') (hbefore : E.decoded bytes = some before)
    (hP : ∀ key entry, T.listeners.lookup key = some entry → P before entry.1.state) :
    ∀ key entry, T'.listeners.lookup key = some entry → P events entry.1.state := by
  intro key entry' hentry'
  obtain ⟨entry, hentry, state, hstate, rfl⟩ := hstreams.listeners.backward key entry' hentry'
  have hchecked := hstreams.checked
  obtain ⟨header, txs, hblock⟩ := hlaw.prefixes _ _ hstreams.decoded
  obtain ⟨rest, rfl⟩ := hlaw.grows _ _ _ _ hbefore hstreams.decoded
  rw [hbefore, Option.getD_some, drop_left] at hstate hchecked
  exact pushAll_induction (fun before event s s' => hpush before event s s' header txs) hblock
    hchecked (hP key entry hentry) hstate

theorem eq_blockStart_of_first (h : [] ++ [event] <+: blockEvents E.txid header txs) :
    event = .blockStart header := by
  rw [nil_append, blockEvents, cons_append] at h
  exact (cons_prefix_cons.mp h).1

/-- Only the first event of a block begins it. -/
theorem inner_of_later (hne : before ≠ [])
    (h : before ++ [event] <+: blockEvents E.txid header txs) : State.Inner event := by
  obtain ⟨first, before, rfl⟩ := exists_cons_of_ne_nil hne
  rw [blockEvents, cons_append, cons_append] at h
  have hmem := (cons_prefix_cons.mp h).2.subset (mem_append_right _ mem_cons_self)
  rcases mem_append.mp hmem with hmem | hmem
  · exact State.inner_of_mem_transactionEvents hmem
  · rw [mem_singleton.mp hmem]
    trivial

end ChainTracker

/-! ## How monitors take notice of blocks -/

namespace ChainMonitor

variable {E : ChainEnv}

/-- The monitor state that has read the block: the transactions of a proof are read now, a streamed
block has been read already. -/
def reading (E : ChainEnv) (s : State) (txs : Option (List Transaction)) (hash : BlockHash) :
    Asserted State :=
  match txs with
  | some txs => readTransactions E.txid E.blockHash (s.onBlockStart hash) txs
  | none => .ok s

/-- Reading the transactions of a proof checks them and collects their changes. -/
theorem reading_some {s s' : State} {txs : List Transaction} {hash : BlockHash} :
    reading E s (some txs) hash = .ok s' ↔ (∀ tx ∈ txs, s.TxSafe E.txid tx) ∧
      s' = { s with
        sawBlock := true
        decodeState := some (s.afterTxs E.txid txs ⟨[], 0, 0, 0, none, hash⟩) } := by
  have hbegun : (s.onBlockStart hash).decodeState = some ⟨[], 0, 0, 0, none, hash⟩ := rfl
  simp only [reading, readTransactions]
  rw [State.pushAll_of_some hbegun fun _ => State.inner_of_mem_transactionEvents, bind_eq_ok]
  simp only [State.readTransactions_eq_ok, pure_eq_ok]
  constructor
  · rintro ⟨_, ⟨hsafe, rfl⟩, rfl⟩
    exact ⟨fun tx htx => ⟨(hsafe tx htx).closing, (hsafe tx htx).funding⟩, rfl⟩
  · rintro ⟨hsafe, rfl⟩
    exact ⟨_, ⟨fun tx htx => ⟨(hsafe tx htx).closing, (hsafe tx htx).funding⟩, rfl⟩, rfl⟩

/-- A notice that finishes the block once it is read is taken when both steps succeed. -/
theorem notice_eq_ok {notice : Asserted (ChainMonitor × ListenSlot)} {read : Asserted State}
    {finish : State → Asserted Applied} {monitor : ChainMonitor}
    {place : List OutPoint → List OutPoint → ListenSlot} {entry : ChainMonitor × ListenSlot}
    (h : notice = read >>= fun s => finish s >>= fun r =>
      pure ({ monitor with state := r.1 }, place r.2.1 r.2.2)) :
    notice = .ok entry ↔ ∃ s s' adds removes, read = .ok s ∧ finish s = .ok (s', adds, removes) ∧
      entry = ({ monitor with state := s' }, place adds removes) := by
  simp only [h, bind_eq_ok, pure_eq_ok, Prod.exists, @eq_comm _ entry]
  constructor
  · rintro ⟨s, hs, s', adds, removes, hend, heq⟩
    exact ⟨s, s', adds, removes, hs, hend, heq⟩
  · rintro ⟨s, s', adds, removes, hs, hend, heq⟩
    exact ⟨s, hs, s', adds, removes, hend, heq⟩

section Notify

variable {txs : Option (List Transaction)} {hash : BlockHash}
  {entry entry' : ChainMonitor × ListenSlot}

theorem notifyAdd_eq_ok : notifyAdd (listener E) txs hash entry = .ok entry' ↔
    ∃ s s' adds removes, reading E entry.1.state txs hash = .ok s ∧
      s.onAddBlockEnd E.overflow hash = .ok (s', adds, removes) ∧
      entry' = ({ entry.1 with state := s' }, entry.2.added adds removes) := by
  refine notice_eq_ok ?_
  cases txs with
  | none => simp [notifyAdd, listener, onAddStreamedBlock, reading]
  | some txs => simp [notifyAdd, listener, onAddBlock, reading]

theorem notifyRemove_eq_ok : notifyRemove (listener E) txs hash entry = .ok entry' ↔
    ∃ s s' adds removes, reading E entry.1.state txs hash = .ok s ∧
      s.onRemoveBlockEnd E.overflow hash = .ok (s', adds, removes) ∧
      entry' = ({ entry.1 with state := s' }, entry.2.removed adds removes) := by
  refine notice_eq_ok ?_
  cases txs with
  | none => simp [notifyRemove, listener, onRemoveStreamedBlock, reading]
  | some txs => simp [notifyRemove, listener, onRemoveBlock, reading]

end Notify

/-- The monitor of a channel that has just become ready. -/
def ready (fundingOutpoint : OutPoint) (height : Nat) : ChainMonitor where
  fundingOutpoint := fundingOutpoint
  state :=
    { (new fundingOutpoint height).state with
      fundingTxids := [fundingOutpoint.txid], fundingVouts := [fundingOutpoint.vout] }

end ChainMonitor

namespace ChainTracker

variable {E : ChainEnv} {T T' : MonitorTracker}

/-! ## Registering and signing -/

/-- The tracker after a channel has become ready. -/
def registered (T : MonitorTracker) (fundingOutpoint : OutPoint) : MonitorTracker :=
  { T with
    listeners := T.listeners.insert fundingOutpoint
      (ChainMonitor.ready fundingOutpoint T.height, ⟨{fundingOutpoint.txid}, ∅, ∅⟩) }

theorem readyChannel_eq (T : MonitorTracker) (fundingOutpoint : OutPoint) :
    T.readyChannel E fundingOutpoint = .ok (T.registered fundingOutpoint) := by
  simp [readyChannel, ChainMonitor.addFundingOutpoint, ChainMonitor.new, assert, addListener,
    ChainMonitor.listener, registered, ChainMonitor.ready]

theorem lookup_registered (T : MonitorTracker) (fundingOutpoint key : OutPoint) :
    (T.registered fundingOutpoint).listeners.lookup key = if key = fundingOutpoint then
      some (ChainMonitor.ready fundingOutpoint T.height, ⟨{fundingOutpoint.txid}, ∅, ∅⟩)
    else T.listeners.lookup key :=
  Table.lookup_insert_eq _ _ _ _

/-- A listener after the transaction that funds its channel has been signed. -/
def signedEntry (tx : Transaction) (entry : ChainMonitor × ListenSlot) :
    ChainMonitor × ListenSlot :=
  (entry.1.addFundingInputs tx, { entry.2 with
    watches := entry.2.watches ∪ (tx.input.map TxIn.previousOutput).toFinset })

theorem signedEntry_signedEntry (tx : Transaction) (entry : ChainMonitor × ListenSlot) :
    signedEntry tx (signedEntry tx entry) = signedEntry tx entry := by
  simp [signedEntry, ChainMonitor.addFundingInputs, Finset.union_assoc]

theorem lookup_signOutput (tx : Transaction) (T : MonitorTracker) (vout : Nat) (key : OutPoint) :
    (T.signOutput E tx vout).listeners.lookup key = (T.listeners.lookup key).map fun entry =>
      if key = ⟨E.txid tx, vout⟩ then signedEntry tx entry else entry := by
  obtain hnone | ⟨⟨monitor, slot⟩, hsome⟩ :=
    Option.eq_none_or_eq_some (T.listeners.lookup ⟨E.txid tx, vout⟩)
  · simp only [signOutput, hnone]
    by_cases hkey : key = ⟨E.txid tx, vout⟩
    · rw [hkey, hnone]
      rfl
    · simp [hkey]
  · simp only [signOutput, hsome, Table.lookup_insert_eq]
    by_cases hkey : key = ⟨E.txid tx, vout⟩
    · rw [hkey, hsome]
      simp [signedEntry]
    · simp [hkey]

theorem signOutput_frame (tx : Transaction) (T : MonitorTracker) (vout : Nat) :
    T.signOutput E tx vout = { T with listeners := (T.signOutput E tx vout).listeners } := by
  unfold signOutput
  cases T.listeners.lookup ⟨E.txid tx, vout⟩ <;> rfl

theorem lookup_foldl_signOutput (tx : Transaction) (vouts : List Nat) (T : MonitorTracker)
    (key : OutPoint) :
    (vouts.foldl (signOutput E tx) T).listeners.lookup key =
      (T.listeners.lookup key).map fun entry =>
        if key.txid = E.txid tx ∧ key.vout ∈ vouts then signedEntry tx entry else entry := by
  induction vouts generalizing T with
  | nil => simp
  | cons vout vouts ih =>
    rw [List.foldl_cons, ih, lookup_signOutput, Option.map_map]
    congr 1
    funext entry
    by_cases hkey : key = ⟨E.txid tx, vout⟩
    · by_cases hmem : vout ∈ vouts
      · simp [hkey, hmem, signedEntry_signedEntry]
      · simp [hkey, hmem]
    · have hvout : key.txid = E.txid tx → key.vout ≠ vout := fun htxid heq =>
        hkey (by rw [← htxid, ← heq])
      by_cases htxid : key.txid = E.txid tx
      · simp [hkey, htxid, hvout htxid]
      · simp [hkey, htxid]

theorem lookup_fundingSigned (T : MonitorTracker) (tx : Transaction) (key : OutPoint) :
    (T.fundingSigned E tx).listeners.lookup key = (T.listeners.lookup key).map fun entry =>
      if key.txid = E.txid tx ∧ key.vout < tx.output.length then signedEntry tx entry
      else entry := by
  rw [fundingSigned, lookup_foldl_signOutput]
  simp only [List.mem_range]

theorem foldl_signOutput_frame (tx : Transaction) (vouts : List Nat) (T : MonitorTracker) :
    vouts.foldl (signOutput E tx) T =
      { T with listeners := (vouts.foldl (signOutput E tx) T).listeners } := by
  induction vouts generalizing T with
  | nil => rfl
  | cons vout vouts ih =>
    rw [List.foldl_cons, ih, signOutput_frame]

theorem fundingSigned_frame (T : MonitorTracker) (tx : Transaction) :
    T.fundingSigned E tx = { T with listeners := (T.fundingSigned E tx).listeners } :=
  foldl_signOutput_frame tx _ T

/-! ## Steps of the machine -/

/-- What an event makes of the tracker when it succeeds. -/
inductive Stepped (E : ChainEnv) (T : MonitorTracker) : ChainEvent → MonitorTracker → Prop
  | readyChannel (fundingOutpoint : OutPoint) :
    Stepped E T (.readyChannel fundingOutpoint) (T.registered fundingOutpoint)
  | fundingSigned (tx : Transaction) : Stepped E T (.fundingSigned tx) (T.fundingSigned E tx)
  | blockChunk {hash : BlockHash} {chunk bytes : List UInt8} {events : List PushEvent}
    {T' : MonitorTracker} (offset : Nat) (h : Streams E T hash chunk bytes events T') :
    Stepped E T (.blockChunk hash offset chunk) T'
  | addBlock {header : BlockHeader} {proof : TxoProof} {T' : MonitorTracker}
    (h : Adds E (ChainMonitor.listener E) T header proof T') :
    Stepped E T (.addBlock header proof) T'
  | removeBlock {proof : TxoProof} {T' : MonitorTracker}
    (h : Removes E (ChainMonitor.listener E) T proof T') : Stepped E T (.removeBlock proof) T'

theorem settle_ok {x : Asserted MonitorTracker} (h : (T.settle x).2 = .ok ()) :
    x = .ok (T.settle x).1 := by
  rcases x with (e | _) | _
  · cases e
  · cases h
  · rfl

/-- An event that succeeds does what it is for. -/
theorem stepped {event : ChainEvent} (h : ((chainMachine E).step T event).2 = .ok ()) :
    Stepped E T event ((chainMachine E).step T event).1 := by
  cases event with
  | readyChannel fundingOutpoint =>
    have hok := settle_ok h
    rw [readyChannel_eq, Except.ok.injEq] at hok
    simp only [chainMachine, readyChannel_eq, settle]
    exact .readyChannel fundingOutpoint
  | fundingSigned tx => exact .fundingSigned tx
  | blockChunk hash offset chunk =>
    obtain ⟨bytes, events, hstreams⟩ := blockChunk_eq_ok (settle_ok h)
    exact .blockChunk offset hstreams
  | addBlock header proof =>
    rcases hexec : Effect.exec (addBlock E (ChainMonitor.listener E) header proof) T with ⟨r, T'⟩
    simp only [chainMachine, hexec] at h ⊢
    rcases exec_addBlock hexec with ⟨message, rfl⟩ | ⟨e, rfl, -⟩ | ⟨-, hadds⟩
    · cases h
    · cases h
    · exact .addBlock hadds
  | removeBlock proof =>
    rcases hexec : Effect.exec (removeBlock E (ChainMonitor.listener E) proof) T with ⟨r, T'⟩
    simp only [chainMachine, hexec] at h ⊢
    rcases exec_removeBlock hexec with ⟨message, rfl⟩ | ⟨e, rfl, -⟩ | ⟨-, hremoves⟩
    · cases h
    · cases h
    · exact .removeBlock hremoves

end ChainTracker

end ValidatingSigner
