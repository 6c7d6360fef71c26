import Vls.Chain.Streams

/-!
# The block chain

The blocks a tracker is told of belong to a tree of blocks that obey the consensus rules.  A chain
is the list of the bodies of its blocks, newest first.
-/

namespace ValidatingSigner

open Base List

/-!
## What a monitor has read of a streamed block

With the funding inputs and the double spends left out, reading is a function of the events alone.
-/

namespace Monitor

/-- Whether the change is a double spend. -/
def StateChange.isDoubleSpent : StateChange → Bool
  | .fundingDoubleSpent _ => true
  | _ => false

/-- The changes other than double spends. -/
def plain (changes : List StateChange) : List StateChange :=
  changes.filter fun change => !change.isDoubleSpent

@[simp] theorem plain_append (first second : List StateChange) :
    plain (first ++ second) = plain first ++ plain second :=
  filter_append _ _

theorem confirmed_plain (changes : List StateChange) :
    confirmed (plain changes) = confirmed changes := by
  induction changes with
  | nil => rfl
  | cons change changes ih =>
    cases change with
    | fundingDoubleSpent outpoint => exact ih
    | fundingConfirmed outpoint => exact congrArg (outpoint :: ·) ih
    | closingConfirmed txid tx => exact ih

theorem closings_plain (changes : List StateChange) :
    closings (plain changes) = closings changes := by
  induction changes with
  | nil => rfl
  | cons change changes ih =>
    cases change with
    | fundingDoubleSpent outpoint => exact ih
    | fundingConfirmed outpoint => exact ih
    | closingConfirmed txid tx => exact congrArg (tx :: ·) ih

/-- The decode state without double spends. -/
def BlockDecodeState.plain (d : BlockDecodeState) : BlockDecodeState :=
  { d with changes := Monitor.plain d.changes }

namespace State

variable {s s' : State} {d d' : BlockDecodeState} {blockHash : BlockHeader → BlockHash}
  {t : BlockDecodeState} {event : PushEvent}

/-- The monitor without funding inputs and double spends. -/
def plain (s : State) : State :=
  { s with fundingInputs := ∅, decodeState := s.decodeState.map BlockDecodeState.plain }

theorem plain_spentInputs (s : State) (inputs : List TxIn) :
    Monitor.plain (s.spentInputs inputs) = [] := by
  rw [Monitor.plain, filter_eq_nil_iff]
  intro change hchange
  obtain ⟨outpoint, -, rfl⟩ := mem_map.mp hchange
  simp [StateChange.isDoubleSpent]

theorem spentInputs_plain (s : State) (inputs : List TxIn) : s.plain.spentInputs inputs = [] := by
  simp [plain, spentInputs]

theorem readInput_plain {input : TxIn} :
    s.plain.readInput input d.plain = .ok t ↔
      ∃ d', s.readInput input d = .ok d' ∧ d'.plain = t := by
  simp only [readInput_eq_ok, spentInputs_plain]
  constructor
  · rintro ⟨hnum, rfl⟩
    refine ⟨_, ⟨hnum, rfl⟩, ?_⟩
    simp only [BlockDecodeState.plain, plain_append, plain_spentInputs]
    rfl
  · rintro ⟨_, ⟨hnum, rfl⟩, rfl⟩
    refine ⟨hnum, ?_⟩
    simp only [BlockDecodeState.plain, plain_append, plain_spentInputs]
    rfl

theorem readOutput_plain {output : TxOut} :
    readOutput output d.plain = .ok t ↔ ∃ d', readOutput output d = .ok d' ∧ d'.plain = t := by
  simp only [readOutput_eq_ok]
  constructor
  · rintro ⟨hnum, rfl⟩
    exact ⟨_, ⟨hnum, rfl⟩, rfl⟩
  · rintro ⟨_, ⟨hnum, rfl⟩, rfl⟩
    exact ⟨hnum, rfl⟩

theorem plain_confirmation (s : State) (txid : Txid) :
    Monitor.plain (s.confirmation txid) = s.confirmation txid := by
  unfold confirmation
  cases s.fundingTxids.idxOf? txid <;> rfl

theorem endTransaction_plain {lockTime : Nat} {txid : Txid} :
    s.plain.endTransaction lockTime txid d.plain = .ok t ↔
      ∃ d', s.endTransaction lockTime txid d = .ok d' ∧ d'.plain = t := by
  have hclosing : Monitor.plain (closingChange lockTime txid d.closingTx) =
      closingChange lockTime txid d.closingTx := by
    cases d.closingTx <;> rfl
  simp only [endTransaction_eq_ok]
  constructor
  · rintro ⟨hfunding, rfl⟩
    refine ⟨_, ⟨hfunding, rfl⟩, ?_⟩
    simp only [BlockDecodeState.plain, plain_append, plain_confirmation, hclosing]
    rfl
  · rintro ⟨_, ⟨hfunding, rfl⟩, rfl⟩
    refine ⟨hfunding, ?_⟩
    simp only [BlockDecodeState.plain, plain_append, plain_confirmation, hclosing]
    rfl

/-- Reading commutes with leaving out the double spends. -/
theorem readEvent_plain :
    s.plain.readEvent d.plain event = .ok t ↔
      ∃ d', s.readEvent d event = .ok d' ∧ d'.plain = t := by
  cases event with
  | transactionInput input => exact readInput_plain
  | transactionOutput output => exact readOutput_plain
  | transactionEnd lockTime txid => exact endTransaction_plain
  | blockStart header => simp [readEvent]
  | transactionStart version => simp [readEvent, startTransaction, BlockDecodeState.plain]
  | blockEnd => simp [readEvent]

theorem readAll_plain {events : List PushEvent} :
    s.plain.readAll d.plain events = .ok t ↔
      ∃ d', s.readAll d events = .ok d' ∧ d'.plain = t := by
  induction events generalizing d with
  | nil => simp [readAll]
  | cons event events ih =>
    simp only [readAll_cons, bind_eq_ok, readEvent_plain]
    constructor
    · rintro ⟨_, ⟨d₁, hevent, rfl⟩, hrest⟩
      obtain ⟨d', hread, rfl⟩ := ih.mp hrest
      exact ⟨d', ⟨d₁, hevent, hread⟩, rfl⟩
    · rintro ⟨d', ⟨d₁, hevent, hrest⟩, rfl⟩
      exact ⟨_, ⟨d₁, hevent, rfl⟩, ih.mpr ⟨d', hrest, rfl⟩⟩

/-! ## What the changes of a block contain -/

variable {txid : Transaction → Txid} {txs : List Transaction}

theorem confirmed_append (first second : List StateChange) :
    confirmed (first ++ second) = confirmed first ++ confirmed second :=
  filterMap_append

theorem doubleSpent_append (first second : List StateChange) :
    doubleSpent (first ++ second) = doubleSpent first ++ doubleSpent second :=
  filterMap_append

theorem closings_append (first second : List StateChange) :
    closings (first ++ second) = closings first ++ closings second :=
  filterMap_append

theorem confirmed_spentInputs (inputs : List TxIn) : confirmed (s.spentInputs inputs) = [] := by
  simp [confirmed, spentInputs, filterMap_map]

theorem closings_spentInputs (inputs : List TxIn) : closings (s.spentInputs inputs) = [] := by
  simp [closings, spentInputs, filterMap_map]

theorem doubleSpent_spentInputs (inputs : List TxIn) : doubleSpent (s.spentInputs inputs) =
    (inputs.map TxIn.previousOutput).filter (· ∈ s.fundingInputs) := by
  simp [doubleSpent, spentInputs, filterMap_map]

theorem closings_confirmation (id : Txid) : closings (s.confirmation id) = [] := by
  unfold confirmation
  cases s.fundingTxids.idxOf? id <;> rfl

theorem doubleSpent_confirmation (id : Txid) : doubleSpent (s.confirmation id) = [] := by
  unfold confirmation
  cases s.fundingTxids.idxOf? id <;> rfl

theorem confirmed_closing (tx : Transaction) : confirmed (s.closing txid tx) = [] := by
  unfold closing
  split_ifs <;> rfl

theorem doubleSpent_closing (tx : Transaction) : doubleSpent (s.closing txid tx) = [] := by
  unfold closing
  split_ifs <;> rfl

theorem closings_closing (tx : Transaction) :
    closings (s.closing txid tx) = if s.Closes tx then [tx] else [] := by
  unfold closing
  split_ifs <;> rfl

/-- The confirmations in a list of transactions. -/
theorem confirmed_changesOf (txs : List Transaction) : confirmed (s.changesOf txid txs) =
    txs.flatMap fun tx => confirmed (s.confirmation (txid tx)) := by
  induction txs with
  | nil => rfl
  | cons tx txs ih =>
    rw [changesOf, flatMap_cons, confirmed_append, flatMap_cons, ← ih, txChanges,
      confirmed_append, confirmed_append, confirmed_spentInputs, confirmed_closing,
      nil_append, append_nil]
    rfl

/-- The double spends in a list of transactions. -/
theorem doubleSpent_changesOf (txs : List Transaction) : doubleSpent (s.changesOf txid txs) =
    txs.flatMap fun tx => (tx.input.map TxIn.previousOutput).filter (· ∈ s.fundingInputs) := by
  induction txs with
  | nil => rfl
  | cons tx txs ih =>
    rw [changesOf, flatMap_cons, doubleSpent_append, flatMap_cons, ← ih, txChanges,
      doubleSpent_append, doubleSpent_append, doubleSpent_spentInputs, doubleSpent_confirmation,
      doubleSpent_closing, append_nil, append_nil]
    rfl

/-- The closings in a list of transactions. -/
theorem closings_changesOf (txs : List Transaction) : closings (s.changesOf txid txs) =
    txs.flatMap fun tx => if s.Closes tx then [tx] else [] := by
  induction txs with
  | nil => rfl
  | cons tx txs ih =>
    rw [changesOf, flatMap_cons, closings_append, flatMap_cons, ← ih, txChanges,
      closings_append, closings_append, closings_spentInputs, closings_confirmation,
      closings_closing, nil_append, nil_append]
    rfl

/-- What the changes of a block report, up to double spends that may have been missed. -/
structure Detected (txid : Transaction → Txid) (s : State) (txs : List Transaction)
    (changes : List StateChange) : Prop where
  confirmed : confirmed changes = Monitor.confirmed (s.changesOf txid txs)
  closings : closings changes = Monitor.closings (s.changesOf txid txs)
  doubleSpent : ∀ outpoint ∈ doubleSpent changes, outpoint ∈ s.fundingInputs ∧
    ∃ tx ∈ txs, Spends tx outpoint

theorem Detected.of_changesOf (s : State) (txs : List Transaction) :
    s.Detected txid txs (s.changesOf txid txs) := by
  refine ⟨rfl, rfl, fun outpoint hspent => ?_⟩
  rw [doubleSpent_changesOf] at hspent
  obtain ⟨tx, htx, hmem⟩ := mem_flatMap.mp hspent
  obtain ⟨hinput, hfunding⟩ := mem_filter.mp hmem
  exact ⟨of_decide_eq_true hfunding, tx, htx, mem_map.mp hinput⟩

/-! ## Streamed blocks -/

/-- A monitor that has read the beginning of a block. -/
structure HasRead (hash : BlockHash) (rest : List PushEvent) (s : State)
    (d : BlockDecodeState) : Prop where
  decodeState : s.decodeState = some d
  plain : s.plain.readAll ⟨[], 0, 0, 0, none, hash⟩ rest = .ok d.plain
  doubleSpent : ∀ outpoint ∈ doubleSpent d.changes, outpoint ∈ s.fundingInputs ∧
    ∃ input, .transactionInput input ∈ rest ∧ input.previousOutput = outpoint

/-- Once events of a block have been reported, a monitor ignores the block or has read them. -/
def Reads (blockHash : BlockHeader → BlockHash) (events : List PushEvent) (s : State) : Prop :=
  ∀ header rest, events = .blockStart header :: rest →
    s.isNotReadyForPush = true ∨ ∃ d, s.HasRead (blockHash header) rest d

/-- The double spends an event adds are of funding inputs. -/
theorem doubleSpent_readEvent (h : s.readEvent d event = .ok d') {outpoint : OutPoint}
    (hspent : outpoint ∈ doubleSpent d'.changes) :
    outpoint ∈ doubleSpent d.changes ∨ outpoint ∈ s.fundingInputs ∧
      ∃ input, event = .transactionInput input ∧ input.previousOutput = outpoint := by
  cases event with
  | blockStart header =>
    cases h
    exact .inl hspent
  | blockEnd =>
    cases h
    exact .inl hspent
  | transactionStart version =>
    cases h
    exact .inl hspent
  | transactionInput input =>
    obtain ⟨-, rfl⟩ := readInput_eq_ok.mp h
    rw [doubleSpent_append, doubleSpent_spentInputs] at hspent
    rcases mem_append.mp hspent with hspent | hspent
    · exact .inl hspent
    · obtain ⟨hinput, hfunding⟩ := mem_filter.mp hspent
      rw [map_singleton, mem_singleton] at hinput
      exact .inr ⟨of_decide_eq_true hfunding, input, rfl, hinput.symm⟩
  | transactionOutput output =>
    obtain ⟨-, rfl⟩ := readOutput_eq_ok.mp h
    exact .inl hspent
  | transactionEnd lockTime id =>
    obtain ⟨-, rfl⟩ := endTransaction_eq_ok.mp h
    have hclosing : doubleSpent (closingChange lockTime id d.closingTx) = [] := by
      cases d.closingTx <;> rfl
    rw [doubleSpent_append, doubleSpent_append, doubleSpent_confirmation, hclosing,
      append_nil, append_nil] at hspent
    exact .inl hspent

/-- A monitor that has read the beginning of a block reads the next event of it. -/
theorem HasRead.push {hash : BlockHash} {rest : List PushEvent} (h : s.HasRead hash rest d)
    (hevent : s.readEvent d event = .ok d') :
    HasRead hash (rest ++ [event]) { s with decodeState := some d' } d' where
  decodeState := rfl
  plain := by
    have hread : s.plain.readAll ⟨[], 0, 0, 0, none, hash⟩ (rest ++ [event]) = .ok d'.plain := by
      rw [readAll_append, h.plain, ok_bind, readAll_singleton]
      exact readEvent_plain.mpr ⟨d', hevent, rfl⟩
    exact hread
  doubleSpent outpoint hspent := by
    rcases doubleSpent_readEvent hevent hspent with hspent | ⟨hfunding, input, rfl, hinput⟩
    · obtain ⟨hfunding, input, hmem, hinput⟩ := h.doubleSpent outpoint hspent
      exact ⟨hfunding, input, mem_append_left _ hmem, hinput⟩
    · exact ⟨hfunding, input, mem_append_right _ mem_cons_self, hinput⟩

/-- The next event of a block is read or ignored like those before it. -/
theorem Reads.push {E : ChainEnv} {before : List PushEvent} {header : BlockHeader}
    (hblock : before ++ [event] <+: blockEvents E.txid header txs)
    (h : s.Reads E.blockHash before) (hevent : s.push E.blockHash event = .ok s') :
    s'.Reads E.blockHash (before ++ [event]) := by
  intro first rest hfirst
  rcases before with _ | ⟨start, before⟩
  · obtain ⟨rfl, rfl⟩ := cons.inj hfirst
    cases hevent
    exact .inr ⟨_, rfl, rfl, fun _ hspent => absurd hspent not_mem_nil⟩
  · obtain ⟨rfl, rfl⟩ := cons.inj hfirst
    have hinner := ChainTracker.inner_of_later (cons_ne_nil _ _) hblock
    rcases h first before rfl with hready | ⟨d, hread⟩
    · rw [push_of_notReady hready hinner] at hevent
      cases hevent
      exact .inl hready
    · rw [push_of_some hread.decodeState hinner] at hevent
      obtain ⟨d', hd', hevent⟩ := bind_ok hevent
      cases hevent
      exact .inr ⟨d', hread.push hd'⟩

theorem mem_transactionEvents_input {input : TxIn}
    (h : .transactionInput input ∈ txs.flatMap (transactionEvents txid)) :
    ∃ tx ∈ txs, Spends tx input.previousOutput := by
  obtain ⟨tx, htx, hevent⟩ := mem_flatMap.mp h
  refine ⟨tx, htx, input, ?_, rfl⟩
  simpa [transactionEvents] using hevent

/-- What a monitor has detected when it has read a whole block. -/
theorem HasRead.detected {hash : BlockHash}
    (h : s.HasRead hash (txs.flatMap (transactionEvents txid) ++ [.blockEnd]) d) :
    s.Detected txid txs d.changes ∧ (∀ tx ∈ txs, s.TxSafe txid tx) ∧ d.blockHash = hash := by
  have hread := h.plain
  rw [readAll_append, bind_eq_ok] at hread
  obtain ⟨d₁, hread, hend⟩ := hread
  obtain ⟨hsafe, rfl⟩ := readTransactions_eq_ok.mp hread
  have hplain := Except.ok.inj hend
  have hchanges : s.plain.changesOf txid txs = Monitor.plain d.changes := by
    have hafter := congrArg BlockDecodeState.changes hplain
    rwa [changes_afterTxs, nil_append] at hafter
  refine ⟨⟨?_, ?_, ?_⟩, fun tx htx => ⟨(hsafe tx htx).closing, (hsafe tx htx).funding⟩, ?_⟩
  · rw [← confirmed_plain, ← hchanges, confirmed_changesOf, confirmed_changesOf]
    rfl
  · rw [← closings_plain, ← hchanges, closings_changesOf, closings_changesOf]
    rfl
  · intro outpoint hspent
    obtain ⟨hfunding, input, hmem, rfl⟩ := h.doubleSpent outpoint hspent
    rcases mem_append.mp hmem with hmem | hmem
    · exact ⟨hfunding, mem_transactionEvents_input hmem⟩
    · cases mem_singleton.mp hmem
  · have hafter := congrArg BlockDecodeState.blockHash hplain
    rw [blockHash_afterTxs] at hafter
    exact hafter.symm

end State

end Monitor

/-- The outpoint a coinbase transaction spends. -/
def OutPoint.null : OutPoint := ⟨0, 2 ^ 32 - 1⟩

/-- The bodies of the blocks of a chain, newest first. -/
abbrev Chain := List (List Transaction)

/-- The transactions of a chain, oldest first. -/
def history (chain : Chain) : List Transaction := chain.reverse.flatten

/-- The consensus rules on which transactions may follow each other: no identifier is used twice, no
output is spent twice, and an output is spent only after it was created. -/
structure ConsensusValid (txid : Transaction → Txid) (chain : Chain) : Prop where
  unique : ((history chain).map txid).Nodup
  single : (history chain).Pairwise fun tx later =>
    ∀ outpoint, outpoint ≠ .null → Spends tx outpoint → ¬ Spends later outpoint
  inputs : ∀ tx ∈ history chain, (tx.input.map TxIn.previousOutput).Nodup
  parents : ∀ before tx after, history chain = before ++ tx :: after → ∀ outpoint,
    outpoint ≠ .null → Spends tx outpoint →
    ∃ parent ∈ before, txid parent = outpoint.txid ∧ outpoint.vout < parent.output.length

/-- A tree of blocks: which headers belong to it, the body of each block, and the chain up to each
block. -/
structure World (E : ChainEnv) where
  valid : BlockHeader → Prop
  body : BlockHeader → List Transaction
  chain : BlockHash → Chain
  grows : ∀ header, valid header →
    chain (E.blockHash header) = body header :: chain header.prevBlockhash
  consensus : ∀ header, valid header → ConsensusValid E.txid (chain (E.blockHash header))

/-- Some transaction of the block at a depth satisfies `P`; the tip is at depth zero. -/
def At (P : Transaction → Prop) (chain : Chain) (depth : Nat) : Prop :=
  ∃ block, chain[depth]? = some block ∧ ∃ tx ∈ block, P tx

/-! ## Places in a chain -/

theorem history_cons (block : List Transaction) (chain : Chain) :
    history (block :: chain) = history chain ++ block := by
  simp [history]

theorem mem_history {chain : Chain} {tx : Transaction} :
    tx ∈ history chain ↔ ∃ block ∈ chain, tx ∈ block := by
  simp [history]

variable {P : Transaction → Prop} {block : List Transaction} {chain : Chain}

@[simp] theorem at_zero : At P (block :: chain) 0 ↔ ∃ tx ∈ block, P tx := by
  simp [At]

@[simp] theorem at_succ {depth : Nat} : At P (block :: chain) (depth + 1) ↔ At P chain depth := by
  simp [At]

theorem exists_at : (∃ depth, At P chain depth) ↔ ∃ tx ∈ history chain, P tx := by
  constructor
  · rintro ⟨depth, block, hblock, tx, htx, hP⟩
    exact ⟨tx, mem_history.mpr ⟨block, mem_of_getElem? hblock, htx⟩, hP⟩
  · rintro ⟨tx, htx, hP⟩
    obtain ⟨block, hblock, htx⟩ := mem_history.mp htx
    obtain ⟨depth, hdepth⟩ := mem_iff_getElem?.mp hblock
    exact ⟨depth, block, hdepth, tx, htx, hP⟩

theorem exists_at_cons :
    (∃ depth, At P (block :: chain) depth) ↔ (∃ tx ∈ block, P tx) ∨ ∃ depth, At P chain depth := by
  constructor
  · rintro ⟨_ | depth, h⟩
    · exact .inl (at_zero.mp h)
    · exact .inr ⟨depth, at_succ.mp h⟩
  · rintro (h | ⟨depth, h⟩)
    · exact ⟨0, at_zero.mpr h⟩
    · exact ⟨depth + 1, at_succ.mpr h⟩

/-! ## Consensus -/

namespace ConsensusValid

variable {txid : Transaction → Txid} {tx : Transaction} {outpoint : OutPoint}

theorem tail (h : ConsensusValid txid (block :: chain)) : ConsensusValid txid chain where
  unique := by
    have hunique := h.unique
    rw [history_cons, map_append] at hunique
    exact hunique.of_append_left
  single := by
    have hsingle := h.single
    rw [history_cons] at hsingle
    exact (pairwise_append.mp hsingle).1
  inputs tx htx := h.inputs tx (by rw [history_cons]; exact mem_append_left _ htx)
  parents before tx after heq := h.parents before tx (after ++ block) (by
    rw [history_cons, heq, append_assoc, cons_append])

/-- A transaction of the newest block is not in the chain below it. -/
theorem fresh (h : ConsensusValid txid (block :: chain)) {tx' : Transaction} (htx : tx ∈ block)
    (htx' : tx' ∈ history chain) : txid tx ≠ txid tx' := by
  have hunique := h.unique
  rw [history_cons, map_append] at hunique
  intro heq
  exact (disjoint_of_nodup_append hunique) (mem_map_of_mem htx')
    (heq ▸ mem_map_of_mem htx)

/-- What the newest block spends has not been spent below it. -/
theorem unspent (h : ConsensusValid txid (block :: chain)) {tx' : Transaction}
    (hnull : outpoint ≠ .null) (htx : tx ∈ block) (hspends : Spends tx outpoint)
    (htx' : tx' ∈ history chain) : ¬ Spends tx' outpoint := by
  have hsingle := h.single
  rw [history_cons] at hsingle
  exact fun hspends' =>
    (pairwise_append.mp hsingle).2.2 tx' htx' tx htx outpoint hnull hspends' hspends

section

variable (h : ConsensusValid txid chain) (hnull : outpoint ≠ .null)

include h hnull

/-- An outpoint is spent by a single transaction. -/
theorem eq_of_spends {tx' : Transaction} (htx : tx ∈ history chain) (htx' : tx' ∈ history chain)
    (hspends : Spends tx outpoint) (hspends' : Spends tx' outpoint) : tx = tx' := by
  have : Std.Symm fun tx later : Transaction =>
      ∀ outpoint : OutPoint, outpoint ≠ .null → Spends tx outpoint → ¬ Spends later outpoint :=
    ⟨fun _ _ hdisjoint o ho hlater htx => hdisjoint o ho htx hlater⟩
  by_contra hne
  exact h.single.forall htx htx' hne outpoint hnull hspends hspends'

/-- Whatever is spent was created in the chain. -/
theorem exists_parent (htx : tx ∈ history chain) (hspends : Spends tx outpoint) :
    ∃ parent ∈ history chain, txid parent = outpoint.txid := by
  obtain ⟨before, after, heq⟩ := append_of_mem htx
  obtain ⟨parent, hparent, hid, -⟩ := h.parents before tx after heq outpoint hnull hspends
  exact ⟨parent, heq ▸ mem_append_left _ hparent, hid⟩

/-- An outpoint is spent at a single depth. -/
theorem depth_unique {depth depth' : Nat} (hdepth : At (Spends · outpoint) chain depth)
    (hdepth' : At (Spends · outpoint) chain depth') : depth = depth' := by
  induction chain generalizing depth depth' with
  | nil =>
    obtain ⟨block, hblock, -⟩ := hdepth
    cases hblock
  | cons block chain ih =>
    cases depth with
    | zero =>
      cases depth' with
      | zero => rfl
      | succ depth' =>
        obtain ⟨tx, htx, hspends⟩ := at_zero.mp hdepth
        obtain ⟨tx', htx', hspends'⟩ := exists_at.mp ⟨depth', at_succ.mp hdepth'⟩
        exact absurd hspends' (h.unspent hnull htx hspends htx')
    | succ depth =>
      cases depth' with
      | zero =>
        obtain ⟨tx, htx, hspends⟩ := at_zero.mp hdepth'
        obtain ⟨tx', htx', hspends'⟩ := exists_at.mp ⟨depth, at_succ.mp hdepth⟩
        exact absurd hspends' (h.unspent hnull htx hspends htx')
      | succ depth' => exact congrArg (· + 1) (ih h.tail (at_succ.mp hdepth) (at_succ.mp hdepth'))

end

/-- Once the funding transaction is in the newest block, nothing below spends its outputs. -/
theorem not_spent_below (h : ConsensusValid txid (block :: chain)) {funding : Transaction}
    (hnull : outpoint ≠ .null) (hfunding : funding ∈ block) (hid : txid funding = outpoint.txid)
    {depth : Nat} : ¬ At (Spends · outpoint) chain depth := by
  intro hspent
  obtain ⟨tx, htx, hspends⟩ := exists_at.mp ⟨depth, hspent⟩
  obtain ⟨parent, hparent, hid'⟩ := h.tail.exists_parent hnull htx hspends
  exact h.fresh hfunding hparent (hid.trans hid'.symm)

/-- Once the funding transaction is in the newest block, it is not below. -/
theorem not_funded_below (h : ConsensusValid txid (block :: chain)) {funding : Transaction}
    {id : Txid} (hfunding : funding ∈ block) (hid : txid funding = id) {depth : Nat} :
    ¬ At (txid · = id) chain depth := by
  intro hfunded
  obtain ⟨tx, htx, hid'⟩ := exists_at.mp ⟨depth, hfunded⟩
  exact h.fresh hfunding htx (hid.trans hid'.symm)

theorem nodup (h : ConsensusValid txid (block :: chain)) : block.Nodup := by
  have hunique := h.unique
  rw [history_cons, map_append] at hunique
  exact hunique.of_append_right.of_map

theorem drop (h : ConsensusValid txid chain) (n : Nat) : ConsensusValid txid (chain.drop n) := by
  induction n generalizing chain with
  | zero => exact h
  | succ n ih =>
    cases chain with
    | nil => exact h
    | cons block chain => exact ih h.tail

/-! ### Checking a chain -/

theorem congr {chain' : Chain} (h : ConsensusValid txid chain)
    (heq : history chain = history chain') : ConsensusValid txid chain' :=
  ⟨heq ▸ h.unique, heq ▸ h.single, heq ▸ h.inputs, heq ▸ h.parents⟩

/-- The transaction may follow earlier ones. -/
def ValidAfter (txid : Transaction → Txid) (earlier : List Transaction) (tx : Transaction) : Prop :=
  (tx.input.map TxIn.previousOutput).Nodup ∧ (∀ parent ∈ earlier, txid parent ≠ txid tx) ∧
    ∀ input ∈ tx.input, input.previousOutput = .null ∨
      (∃ parent ∈ earlier, txid parent = input.previousOutput.txid ∧
        input.previousOutput.vout < parent.output.length) ∧
      ∀ parent ∈ earlier, input.previousOutput ∉ parent.input.map TxIn.previousOutput

instance (earlier : List Transaction) (tx : Transaction) : Decidable (ValidAfter txid earlier tx) :=
  inferInstanceAs (Decidable (_ ∧ _ ∧ _))

/-- A block with a single transaction that may follow the chain. -/
theorem snoc (h : ConsensusValid txid chain) (hafter : ValidAfter txid (history chain) tx) :
    ConsensusValid txid ([tx] :: chain) := by
  obtain ⟨hinputs, hfresh, hparents⟩ := hafter
  have hhistory : history ([tx] :: chain) = history chain ++ [tx] := history_cons _ _
  constructor
  · rw [hhistory, map_append]
    refine h.unique.append (nodup_singleton _) fun id hid hid' => ?_
    obtain ⟨parent, hparent, rfl⟩ := mem_map.mp hid
    exact hfresh parent hparent (mem_singleton.mp hid')
  · rw [hhistory]
    refine pairwise_append.mpr ⟨h.single, pairwise_singleton _ _, ?_⟩
    rintro parent hparent later hlater outpoint hnull hspends ⟨input, hinput, rfl⟩
    obtain rfl := mem_singleton.mp hlater
    obtain hnull' | ⟨-, hunspent⟩ := hparents input hinput
    · exact hnull hnull'
    · exact hunspent parent hparent (mem_map.mpr hspends)
  · rw [hhistory]
    intro tx' htx'
    rcases mem_append.mp htx' with htx' | htx'
    · exact h.inputs tx' htx'
    · exact mem_singleton.mp htx' ▸ hinputs
  · rw [hhistory]
    intro before tx' after heq outpoint hnull hspends
    rcases eq_nil_or_concat after with rfl | ⟨after, last, rfl⟩
    · obtain ⟨rfl, hlast⟩ := append_inj' heq rfl
      obtain rfl := (cons.inj hlast).1
      obtain ⟨input, hinput, rfl⟩ := hspends
      exact ((hparents input hinput).resolve_left hnull).1
    · rw [concat_eq_append, ← cons_append, ← append_assoc] at heq
      exact h.parents before tx' after (append_inj' heq rfl).1 outpoint hnull hspends

/-- Every transaction may follow those before it, where the list is newest first. -/
def ValidHistory (txid : Transaction → Txid) : List Transaction → Prop
  | [] => True
  | tx :: earlier => ValidAfter txid earlier.reverse tx ∧ ValidHistory txid earlier

instance decidableValidHistory : (txs : List Transaction) → Decidable (ValidHistory txid txs)
  | [] => inferInstanceAs (Decidable True)
  | _ :: earlier => have := decidableValidHistory earlier; inferInstanceAs (Decidable (_ ∧ _))

/-- A chain is valid if every transaction may follow those before it. -/
theorem of_validHistory (h : ValidHistory txid (history chain).reverse) :
    ConsensusValid txid chain := by
  have hsingles (txs : List Transaction) : history (txs.map ([·])) = txs.reverse := by
    induction txs with
    | nil => rfl
    | cons tx txs ih => rw [map_cons, history_cons, ih, reverse_cons]
  have hvalid (txs : List Transaction) (htxs : ValidHistory txid txs) :
      ConsensusValid txid (txs.map ([·])) := by
    induction txs with
    | nil => exact ⟨nodup_nil, Pairwise.nil, fun _ h => absurd h not_mem_nil,
        fun before _ _ heq => by simp [history] at heq⟩
    | cons tx txs ih =>
      refine (ih htxs.2).snoc ?_
      rw [hsingles]
      exact htxs.1
  exact (hvalid _ h).congr (by rw [hsingles, reverse_reverse])

end ConsensusValid

end ValidatingSigner
