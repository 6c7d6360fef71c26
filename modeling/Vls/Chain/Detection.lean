import Vls.Chain.Monitor

/-!
# What a monitor detects in a block

Reading a transaction either aborts or appends to the changes of the block exactly the spent funding
inputs, the confirmed funding outpoint and the closing transaction.  Applying the changes of a block
has a closed form in terms of what they contain.
-/

namespace ValidatingSigner

open Base List

/-- The transaction spends an outpoint. -/
def Spends (tx : Transaction) (outpoint : OutPoint) : Prop :=
  ∃ input ∈ tx.input, input.previousOutput = outpoint

instance (tx : Transaction) (outpoint : OutPoint) : Decidable (Spends tx outpoint) :=
  inferInstanceAs (Decidable (∃ input ∈ tx.input, input.previousOutput = outpoint))

namespace Monitor.State

variable {blockHash : BlockHeader → BlockHash} {s s' : State} {d d' : BlockDecodeState}
  {event : PushEvent} {input : TxIn} {inputs : List TxIn}

/-! ## Events of a block that has begun -/

/-- The decode state after an event other than the beginning of a block. -/
def readEvent (s : State) (d : BlockDecodeState) : PushEvent → Asserted BlockDecodeState
  | .transactionStart version => .ok (startTransaction version d)
  | .transactionInput input => s.readInput input d
  | .transactionOutput output => readOutput output d
  | .transactionEnd lockTime txid => s.endTransaction lockTime txid d
  | .blockStart _ => .ok d
  | .blockEnd => .ok d

/-- The decode state after events other than the beginning of a block. -/
def readAll (s : State) (d : BlockDecodeState) (events : List PushEvent) :
    Asserted BlockDecodeState :=
  events.foldlM s.readEvent d

/-- The event does not begin a block. -/
def Inner : PushEvent → Prop
  | .blockStart _ => False
  | _ => True

theorem isNotReadyForPush_eq_false (hd : s.decodeState = some d) : s.isNotReadyForPush = false := by
  simp [isNotReadyForPush, hd]

theorem decodeState_eq_none (h : s.isNotReadyForPush = true) : s.decodeState = none := by
  rcases hd : s.decodeState with _ | d
  · rfl
  · rw [isNotReadyForPush_eq_false hd] at h
    cases h

theorem decode_of_some (hd : s.decodeState = some d)
    (f : BlockDecodeState → Asserted BlockDecodeState) :
    s.decode f = (f d >>= fun state => pure { s with decodeState := some state }) := by
  rw [decode, isNotReadyForPush_eq_false hd, hd]
  rfl

theorem decode_of_notReady (h : s.isNotReadyForPush = true)
    (f : BlockDecodeState → Asserted BlockDecodeState) : s.decode f = .ok s := by
  rw [decode, h]
  rfl

/-- An update of the decode state ignores the event or updates the state that is there. -/
theorem decode_eq_ok {f : BlockDecodeState → Asserted BlockDecodeState} :
    s.decode f = .ok s' ↔ (s.isNotReadyForPush = true ∧ s' = s) ∨
      ∃ d d', s.decodeState = some d ∧ f d = .ok d' ∧ s' = { s with decodeState := some d' } := by
  rcases hd : s.decodeState with _ | d
  · unfold decode
    cases hready : s.isNotReadyForPush with
    | true => simp [@eq_comm _ s']
    | false => simp [hd, expect, Bind.bind, Except.bind]
  · rw [decode_of_some hd, isNotReadyForPush_eq_false hd, bind_eq_ok]
    simp [@eq_comm _ s']

theorem push_of_some (hd : s.decodeState = some d) (hinner : Inner event) :
    s.push blockHash event =
      (s.readEvent d event >>= fun state => pure { s with decodeState := some state }) := by
  cases event with
  | blockStart header => exact hinner.elim
  | transactionStart version => exact decode_of_some hd _
  | transactionInput input => exact decode_of_some hd _
  | transactionOutput output => exact decode_of_some hd _
  | transactionEnd lockTime txid => exact decode_of_some hd _
  | blockEnd =>
    simp only [push, onBlockEnd, readEvent, ok_bind, ← hd]
    rfl

theorem push_of_notReady (h : s.isNotReadyForPush = true) (hinner : Inner event) :
    s.push blockHash event = .ok s := by
  cases event with
  | blockStart header => exact hinner.elim
  | blockEnd => rfl
  | _ => exact decode_of_notReady h _

theorem pushAll_nil : s.pushAll blockHash [] = .ok s := rfl

theorem pushAll_cons (event : PushEvent) (events : List PushEvent) :
    s.pushAll blockHash (event :: events) =
      (s.push blockHash event >>= fun s => s.pushAll blockHash events) :=
  foldlM_cons

theorem readAll_cons (event : PushEvent) (events : List PushEvent) :
    s.readAll d (event :: events) = (s.readEvent d event >>= fun d => s.readAll d events) :=
  foldlM_cons

theorem readAll_append (first second : List PushEvent) :
    s.readAll d (first ++ second) = (s.readAll d first >>= fun d => s.readAll d second) :=
  foldlM_append

/-- Pushing events once a block has begun only changes the decode state. -/
theorem pushAll_of_some (hd : s.decodeState = some d) {events : List PushEvent}
    (hinner : ∀ event ∈ events, Inner event) :
    s.pushAll blockHash events =
      (s.readAll d events >>= fun state => pure { s with decodeState := some state }) := by
  induction events generalizing s d with
  | nil =>
    rw [pushAll_nil, readAll, foldlM_nil, pure_bind, ← hd]
    rfl
  | cons event events ih =>
    rw [pushAll_cons, push_of_some hd (hinner event mem_cons_self), readAll_cons]
    simp only [bind_assoc, pure_bind]
    congr 1
    funext state
    exact ih rfl fun e he => hinner e (mem_cons_of_mem _ he)

/-! ## Reading a transaction -/

variable {tx : Transaction}

/-- The transaction spends the funding outpoint the monitor knows of. -/
def Closes (s : State) (tx : Transaction) : Prop :=
  ∃ input ∈ tx.input, some input.previousOutput = s.fundingOutpoint

instance (tx : Transaction) : Decidable (s.Closes tx) :=
  inferInstanceAs (Decidable (∃ input ∈ tx.input, some input.previousOutput = s.fundingOutpoint))

/-- The double spends in a list of inputs. -/
def spentInputs (s : State) (inputs : List TxIn) : List StateChange :=
  ((inputs.map TxIn.previousOutput).filter (· ∈ s.fundingInputs)).map .fundingDoubleSpent

/-- The confirmation of the funding transaction. -/
def confirmation (s : State) (txid : Txid) : List StateChange :=
  match s.fundingTxids.idxOf? txid with
  | some ind => [.fundingConfirmed ⟨txid, s.fundingVouts.getD ind 0⟩]
  | none => []

/-- The closing of the channel. -/
def closing (txid : Transaction → Txid) (s : State) (tx : Transaction) : List StateChange :=
  if s.Closes tx then [.closingConfirmed (txid tx) tx] else []

/-- The changes in a transaction. -/
def txChanges (txid : Transaction → Txid) (s : State) (tx : Transaction) : List StateChange :=
  s.spentInputs tx.input ++ s.confirmation (txid tx) ++ s.closing txid tx

/-- The transaction meets the assertions of the monitor. -/
structure TxSafe (txid : Transaction → Txid) (s : State) (tx : Transaction) : Prop where
  closing : s.Closes tx → tx.input.length = 1 ∧ tx.output.length ≤ maxCommitmentOutputs
  funding : ∀ ind, s.fundingTxids.idxOf? (txid tx) = some ind →
    ∃ vout, s.fundingVouts[ind]? = some vout ∧ vout < tx.output.length

theorem spentInputs_cons (input : TxIn) (inputs : List TxIn) :
    s.spentInputs (input :: inputs) = s.spentInputs [input] ++ s.spentInputs inputs := by
  simp only [spentInputs, ← map_append, ← filter_append]
  rfl

/-- The closing transaction an input begins, or the one that was there. -/
def closingAfter (s : State) (d : BlockDecodeState) (input : TxIn) : Option Transaction :=
  if some input.previousOutput = s.fundingOutpoint then
    some { version := d.version, lockTime := 0, input := [input], output := [] }
  else d.closingTx

theorem readInput_eq_ok :
    s.readInput input d = .ok d' ↔ ((s.closingAfter d input).isSome → d.inputNum = 0) ∧
      d' = { d with
        changes := d.changes ++ s.spentInputs [input]
        closingTx := s.closingAfter d input
        inputNum := d.inputNum + 1 } := by
  unfold readInput closingAfter
  simp only [bind_eq_ok, assert_eq_ok, pure_eq_ok, exists_const, @eq_comm _ d']
  by_cases hmem : input.previousOutput ∈ s.fundingInputs
  · simp [spentInputs, hmem]
  · simp [spentInputs, hmem]

theorem readOutput_eq_ok {output : TxOut} :
    readOutput output d = .ok d' ↔ (d.closingTx.isSome → d.outputNum < maxCommitmentOutputs) ∧
      d' = { d with
        closingTx := d.closingTx.map fun tx => { tx with output := tx.output ++ [output] }
        outputNum := d.outputNum + 1 } := by
  unfold readOutput
  simp only [bind_eq_ok, assert_eq_ok, pure_eq_ok, exists_const, Option.isSome_map, @eq_comm _ d']

theorem readInput_open (hopen : d.closingTx = none)
    (hne : some input.previousOutput ≠ s.fundingOutpoint) :
    s.readInput input d = .ok { d with
      changes := d.changes ++ s.spentInputs [input], inputNum := d.inputNum + 1 } := by
  have hafter : s.closingAfter d input = d.closingTx := if_neg hne
  rw [readInput_eq_ok, hafter, hopen]
  exact ⟨fun h => (nomatch h), rfl⟩

/-- An input that closes the channel has to be the first one. -/
theorem readInput_closing (heq : some input.previousOutput = s.fundingOutpoint) :
    s.readInput input d = .ok d' ↔ d.inputNum = 0 ∧ d' = { d with
      changes := d.changes ++ s.spentInputs [input]
      closingTx := some { version := d.version, lockTime := 0, input := [input], output := [] }
      inputNum := 1 } := by
  have hafter : s.closingAfter d input =
      some { version := d.version, lockTime := 0, input := [input], output := [] } := if_pos heq
  rw [readInput_eq_ok, hafter]
  constructor
  · rintro ⟨hnum, rfl⟩
    have hzero := hnum rfl
    rw [hzero]
    exact ⟨rfl, rfl⟩
  · rintro ⟨hzero, rfl⟩
    rw [hzero]
    exact ⟨fun _ => rfl, rfl⟩

/-- No input may follow one that closes the channel. -/
theorem readInput_closed (hclosed : d.closingTx.isSome) (hnum : d.inputNum ≠ 0) :
    s.readInput input d ≠ .ok d' := by
  intro h
  refine hnum ((readInput_eq_ok.mp h).1 ?_)
  unfold closingAfter
  by_cases heq : some input.previousOutput = s.fundingOutpoint
  · rw [if_pos heq]
    rfl
  · rw [if_neg heq]
    exact hclosed

/-- Inputs that do not close the channel are counted. -/
theorem readAll_inputs_open (hopen : d.closingTx = none)
    (hinputs : ∀ input ∈ inputs, some input.previousOutput ≠ s.fundingOutpoint) :
    s.readAll d (inputs.map .transactionInput) = .ok { d with
      changes := d.changes ++ s.spentInputs inputs, inputNum := d.inputNum + inputs.length } := by
  induction inputs generalizing d with
  | nil => simp [readAll, spentInputs]
  | cons input inputs ih =>
    rw [map_cons, readAll_cons, readEvent,
      readInput_open hopen (hinputs input mem_cons_self), ok_bind]
    refine (ih (d := { d with
      changes := d.changes ++ s.spentInputs [input], inputNum := d.inputNum + 1 })
      hopen fun i hi => hinputs i (mem_cons_of_mem _ hi)).trans ?_
    simp only [append_assoc, ← spentInputs_cons, length_cons]
    congr 2
    omega

/-- An input after the first one may not close the channel. -/
theorem readAll_inputs_late (hopen : d.closingTx = none) (hnum : d.inputNum ≠ 0)
    (h : s.readAll d (inputs.map .transactionInput) = .ok d') :
    ∀ input ∈ inputs, some input.previousOutput ≠ s.fundingOutpoint := by
  induction inputs generalizing d with
  | nil => exact fun input hi => absurd hi not_mem_nil
  | cons input inputs ih =>
    rw [map_cons, readAll_cons] at h
    obtain ⟨d₁, hinput, hrest⟩ := bind_ok h
    by_cases heq : some input.previousOutput = s.fundingOutpoint
    · exact absurd ((readInput_closing heq).mp hinput).1 hnum
    · rw [readEvent, readInput_open hopen heq] at hinput
      cases hinput
      intro i hi
      rcases mem_cons.mp hi with rfl | hi
      · exact heq
      · exact ih (d := { d with
          changes := d.changes ++ s.spentInputs [input], inputNum := d.inputNum + 1 })
          hopen (Nat.succ_ne_zero _) hrest i hi

/-- A closing transaction has a single input. -/
theorem readAll_inputs_closing (hopen : d.closingTx = none) (hnum : d.inputNum = 0)
    (hcloses : ∃ input ∈ inputs, some input.previousOutput = s.fundingOutpoint) :
    s.readAll d (inputs.map .transactionInput) = .ok d' ↔ inputs.length = 1 ∧ d' = { d with
      changes := d.changes ++ s.spentInputs inputs
      closingTx := some { version := d.version, lockTime := 0, input := inputs, output := [] }
      inputNum := inputs.length } := by
  obtain ⟨closer, hcloser, heq⟩ := hcloses
  rcases inputs with _ | ⟨input, _ | ⟨next, rest⟩⟩
  · exact absurd hcloser not_mem_nil
  · obtain rfl := mem_singleton.mp hcloser
    rw [map_singleton, readAll_cons, readEvent]
    constructor
    · intro h
      obtain ⟨d₁, hinput, hrest⟩ := bind_ok h
      cases hrest
      exact ⟨rfl, ((readInput_closing heq).mp hinput).2⟩
    · rintro ⟨-, rfl⟩
      rw [(readInput_closing heq).mpr ⟨hnum, rfl⟩]
      rfl
  · constructor
    · intro h
      exfalso
      rw [map_cons, readAll_cons] at h
      obtain ⟨d₁, hinput, hrest⟩ := bind_ok h
      by_cases hfirst : some input.previousOutput = s.fundingOutpoint
      · obtain ⟨-, rfl⟩ := (readInput_closing hfirst).mp hinput
        rw [map_cons, readAll_cons] at hrest
        obtain ⟨d₂, hnext, -⟩ := bind_ok hrest
        exact readInput_closed rfl Nat.one_ne_zero hnext
      · rw [readEvent, readInput_open hopen hfirst] at hinput
        cases hinput
        refine readAll_inputs_late (d := { d with
          changes := d.changes ++ s.spentInputs [input], inputNum := d.inputNum + 1 })
          hopen (Nat.succ_ne_zero _) hrest closer ?_ heq
        rcases mem_cons.mp hcloser with rfl | hmem
        · exact absurd heq hfirst
        · exact hmem
    · rintro ⟨hlength, -⟩
      cases hlength

/-- The outputs of a transaction that does not close the channel are counted. -/
theorem readAll_outputs_open (outputs : List TxOut) (hopen : d.closingTx = none) :
    s.readAll d (outputs.map .transactionOutput) =
      .ok { d with outputNum := d.outputNum + outputs.length } := by
  induction outputs generalizing d with
  | nil => rfl
  | cons output outputs ih =>
    have houtput : readOutput output d = .ok { d with outputNum := d.outputNum + 1 } := by
      rw [readOutput_eq_ok, hopen]
      exact ⟨fun h => (nomatch h), rfl⟩
    rw [map_cons, readAll_cons, readEvent, houtput, ok_bind]
    refine (ih (d := { d with outputNum := d.outputNum + 1 }) hopen).trans ?_
    simp only [length_cons]
    congr 2
    omega

/-- The outputs of a closing transaction are kept, up to the limit. -/
theorem readAll_outputs_closing {outputs : List TxOut} (hclosing : d.closingTx = some tx)
    (hnum : d.outputNum ≤ maxCommitmentOutputs) :
    s.readAll d (outputs.map .transactionOutput) = .ok d' ↔
      d.outputNum + outputs.length ≤ maxCommitmentOutputs ∧ d' = { d with
        closingTx := some { tx with output := tx.output ++ outputs }
        outputNum := d.outputNum + outputs.length } := by
  induction outputs generalizing d tx with
  | nil =>
    simp only [map_nil, length_nil, append_nil, Nat.add_zero, hnum, true_and]
    constructor
    · intro h
      rw [← Except.ok.inj h, ← hclosing]
    · rintro rfl
      rw [← hclosing]
      rfl
  | cons output outputs ih =>
    rw [map_cons, readAll_cons, bind_eq_ok]
    have houtput (d₁ : BlockDecodeState) : s.readEvent d (.transactionOutput output) = .ok d₁ ↔
        d.outputNum < maxCommitmentOutputs ∧ d₁ = { d with
          closingTx := some { tx with output := tx.output ++ [output] }
          outputNum := d.outputNum + 1 } := by
      rw [readEvent, readOutput_eq_ok, hclosing]
      simp only [Option.map_some, Option.isSome_some, true_implies]
    simp only [houtput, length_cons]
    constructor
    · rintro ⟨d₁, ⟨hlt, rfl⟩, hrest⟩
      obtain ⟨hle, rfl⟩ := (ih rfl (Nat.succ_le_of_lt hlt)).mp hrest
      refine ⟨by simp only at hle; omega, ?_⟩
      simp only [append_assoc, singleton_append]
      congr 1
      omega
    · rintro ⟨hle, rfl⟩
      refine ⟨_, ⟨by omega, rfl⟩, (ih rfl (by simp only; omega)).mpr ⟨by simp only; omega, ?_⟩⟩
      simp only [append_assoc, singleton_append]
      congr 1
      omega

/-- The end of a transaction, which checks the funding output and reports what was found. -/
theorem endTransaction_eq_ok {lockTime : Nat} {txid : Txid} :
    s.endTransaction lockTime txid d = .ok d' ↔
      (∀ ind, s.fundingTxids.idxOf? txid = some ind →
        ∃ vout, s.fundingVouts[ind]? = some vout ∧ vout < d.outputNum) ∧
      d' = { d with
        changes := d.changes ++ s.confirmation txid ++ closingChange lockTime txid d.closingTx
        closingTx := none } := by
  unfold endTransaction confirmation
  cases hind : s.fundingTxids.idxOf? txid with
  | none =>
    simp only [pure_bind, pure_eq_ok, reduceCtorEq, false_implies, implies_true, true_and,
      @eq_comm _ d']
  | some ind =>
    constructor
    · intro h
      obtain ⟨vout, hvout, h⟩ := bind_ok h
      obtain ⟨_, hlt, h⟩ := bind_ok h
      cases h
      have hvout' := expect_eq_ok.mp hvout
      refine ⟨fun _ hind => ⟨vout, Option.some.inj hind ▸ hvout', assert_eq_ok.mp hlt⟩, ?_⟩
      simp only [getD_eq_getElem?_getD, hvout']
      rfl
    · rintro ⟨hfunding, rfl⟩
      obtain ⟨vout, hvout, hlt⟩ := hfunding ind rfl
      simp only [getD_eq_getElem?_getD, hvout]
      exact bind_eq_ok.mpr ⟨vout, expect_eq_ok.mpr rfl, bind_eq_ok.mpr ⟨(),
        assert_eq_ok.mpr hlt, rfl⟩⟩

/-- Reading on keeps the block hash. -/
theorem blockHash_readEvent (h : s.readEvent d event = .ok d') : d'.blockHash = d.blockHash := by
  cases event with
  | blockStart header =>
    cases h
    rfl
  | blockEnd =>
    cases h
    rfl
  | transactionStart version =>
    cases h
    rfl
  | transactionInput input =>
    obtain ⟨_, -, h⟩ := bind_ok h
    cases h
    rfl
  | transactionOutput output =>
    obtain ⟨_, -, h⟩ := bind_ok h
    cases h
    rfl
  | transactionEnd lockTime txid =>
    obtain ⟨-, rfl⟩ := endTransaction_eq_ok.mp h
    rfl

/-- The decode state after a transaction. -/
def afterTx (txid : Transaction → Txid) (s : State) (tx : Transaction) (d : BlockDecodeState) :
    BlockDecodeState :=
  { d with
    changes := d.changes ++ s.txChanges txid tx
    version := tx.version
    inputNum := tx.input.length
    outputNum := tx.output.length
    closingTx := none }

theorem readAll_singleton (event : PushEvent) :
    s.readAll d [event] = s.readEvent d event := by
  rw [readAll_cons]
  exact bind_pure _

variable {txid : Transaction → Txid}

theorem readAll_transactionEvents (tx : Transaction) :
    s.readAll d (transactionEvents txid tx) =
      (s.readAll (startTransaction tx.version d) (tx.input.map .transactionInput) >>= fun d =>
        s.readAll d (tx.output.map .transactionOutput) >>= fun d =>
          s.endTransaction tx.lockTime (txid tx) d) := by
  rw [transactionEvents, readAll_append, readAll_append, readAll_cons, readEvent, ok_bind,
    bind_assoc]
  simp only [readAll_singleton, readEvent]

/-- A transaction that does not close the channel is read. -/
theorem readTransaction_open (hopen : ¬ s.Closes tx) :
    s.readAll d (transactionEvents txid tx) = .ok d' ↔
      s.TxSafe txid tx ∧ d' = s.afterTx txid tx d := by
  have hinputs : ∀ input ∈ tx.input, some input.previousOutput ≠ s.fundingOutpoint :=
    fun input hi heq => hopen ⟨input, hi, heq⟩
  rw [readAll_transactionEvents, readAll_inputs_open rfl hinputs, ok_bind,
    readAll_outputs_open _ rfl, ok_bind, endTransaction_eq_ok]
  simp only [startTransaction, Nat.zero_add, afterTx, txChanges, closing, closingChange,
    if_neg hopen, append_assoc, append_nil]
  exact and_congr_left fun _ =>
    ⟨fun h => ⟨fun hcloses => absurd hcloses hopen, h⟩, fun h => h.funding⟩

/-- A transaction that closes the channel is read when it has one input and few outputs. -/
theorem readTransaction_closing (hcloses : s.Closes tx) :
    s.readAll d (transactionEvents txid tx) = .ok d' ↔
      s.TxSafe txid tx ∧ d' = s.afterTx txid tx d := by
  rw [readAll_transactionEvents, bind_eq_ok]
  constructor
  · rintro ⟨d₁, hinputs, hrest⟩
    obtain ⟨hlength, rfl⟩ := (readAll_inputs_closing rfl rfl hcloses).mp hinputs
    obtain ⟨d₂, houtputs, hend⟩ := bind_ok hrest
    obtain ⟨hfew, rfl⟩ := (readAll_outputs_closing rfl (Nat.zero_le _)).mp houtputs
    obtain ⟨hfunding, rfl⟩ := endTransaction_eq_ok.mp hend
    simp only [startTransaction, Nat.zero_add] at hfew hfunding
    refine ⟨⟨fun _ => ⟨hlength, hfew⟩, hfunding⟩, ?_⟩
    simp [afterTx, txChanges, closing, closingChange, hcloses, startTransaction]
  · rintro ⟨hsafe, rfl⟩
    obtain ⟨hlength, hfew⟩ := hsafe.closing hcloses
    refine ⟨_, (readAll_inputs_closing rfl rfl hcloses).mpr ⟨hlength, rfl⟩, bind_eq_ok.mpr ⟨_,
      (readAll_outputs_closing rfl (Nat.zero_le _)).mpr ⟨?_, rfl⟩,
      endTransaction_eq_ok.mpr ⟨?_, ?_⟩⟩⟩
    · simpa only [startTransaction, Nat.zero_add] using hfew
    · simpa only [startTransaction, Nat.zero_add] using hsafe.funding
    · simp [afterTx, txChanges, closing, closingChange, hcloses, startTransaction]

theorem readTransaction_eq_ok :
    s.readAll d (transactionEvents txid tx) = .ok d' ↔
      s.TxSafe txid tx ∧ d' = s.afterTx txid tx d := by
  by_cases hcloses : s.Closes tx
  · exact readTransaction_closing hcloses
  · exact readTransaction_open hcloses

/-- The decode state after a list of transactions. -/
def afterTxs (txid : Transaction → Txid) (s : State) (txs : List Transaction)
    (d : BlockDecodeState) : BlockDecodeState :=
  txs.foldl (fun d tx => s.afterTx txid tx d) d

/-- Reading transactions checks them and appends their changes. -/
theorem readTransactions_eq_ok {txs : List Transaction} :
    s.readAll d (txs.flatMap (transactionEvents txid)) = .ok d' ↔
      (∀ tx ∈ txs, s.TxSafe txid tx) ∧ d' = s.afterTxs txid txs d := by
  induction txs generalizing d with
  | nil =>
    simp only [flatMap_nil, not_mem_nil, false_implies, implies_true, true_and]
    exact ⟨fun h => (Except.ok.inj h).symm, fun h => congrArg Except.ok h.symm⟩
  | cons tx txs ih =>
    rw [flatMap_cons, readAll_append, bind_eq_ok]
    simp only [readTransaction_eq_ok, ih, forall_mem_cons]
    constructor
    · rintro ⟨_, ⟨hsafe, rfl⟩, hrest, rfl⟩
      exact ⟨⟨hsafe, hrest⟩, rfl⟩
    · rintro ⟨⟨hsafe, hrest⟩, rfl⟩
      exact ⟨_, ⟨hsafe, rfl⟩, hrest, rfl⟩

/-- The changes in a list of transactions. -/
def changesOf (txid : Transaction → Txid) (s : State) (txs : List Transaction) :
    List StateChange :=
  txs.flatMap (s.txChanges txid)

theorem changes_afterTxs (txs : List Transaction) :
    (s.afterTxs txid txs d).changes = d.changes ++ s.changesOf txid txs := by
  induction txs generalizing d with
  | nil => simp [afterTxs, changesOf]
  | cons tx txs ih =>
    refine (ih (d := s.afterTx txid tx d)).trans ?_
    simp [afterTx, changesOf]

theorem blockHash_afterTxs (txs : List Transaction) :
    (s.afterTxs txid txs d).blockHash = d.blockHash := by
  induction txs generalizing d with
  | nil => rfl
  | cons tx txs ih => exact ih (d := s.afterTx txid tx d)

end Monitor.State

end ValidatingSigner
