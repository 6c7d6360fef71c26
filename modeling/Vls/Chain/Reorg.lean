import Vls.Base.Rare
import Vls.Chain.Tracked

/-!
# Taking a block back

A block that was added from a filter proof is removed again.  The monitor detects the same changes
as when the block was added, except for the closing of a channel that the block has funded.
-/

namespace ValidatingSigner

open Base Monitor State ChainMonitor List

namespace ChainTracker

variable {E : ChainEnv} {W : World E} {key : OutPoint} {chain : Chain} {s : State}
  {slot : ListenSlot} {body txs : List Transaction} {tx : Transaction}

/-! ## Detected changes -/

/-- A transaction with changes spends a funding input, funds the channel or closes it. -/
theorem txChanges_ne_nil (htxids : s.fundingTxids = [key.txid]) (h : s.txChanges E.txid tx ≠ []) :
    (∃ input ∈ s.fundingInputs, Spends tx input) ∨ Funds E key tx ∨ s.Closes tx := by
  by_contra hnone
  obtain ⟨hinputs, hfunds, hcloses⟩ : (¬ ∃ input ∈ s.fundingInputs, Spends tx input) ∧
      ¬ Funds E key tx ∧ ¬ s.Closes tx := by
    simpa only [not_or] using hnone
  refine h ?_
  have hspent : s.spentInputs tx.input = [] := by
    rw [spentInputs, map_eq_nil_iff, filter_eq_nil_iff]
    intro outpoint hmem hfunding
    exact hinputs ⟨outpoint, of_decide_eq_true hfunding, mem_map.mp hmem⟩
  have hconfirmed : s.confirmation (E.txid tx) = [] := by
    have hid : ¬ key.txid = E.txid tx := fun h => hfunds h.symm
    rw [confirmation, htxids]
    simp [idxOf?_cons, hid]
  rw [txChanges, hspent, hconfirmed, closing, if_neg hcloses]
  rfl

/-- The changes of a block are those of the transactions a complete proof brings. -/
theorem changesOf_eq (hnodup : body.Nodup) (hsub : txs.Sublist body)
    (hall : ∀ tx ∈ body, s.txChanges E.txid tx ≠ [] → tx ∈ txs) :
    s.changesOf E.txid txs = s.changesOf E.txid body :=
  flatMap_eq_of_sublist hsub hnodup hall

/-- An outpoint that is watched or spent below, and is spent by the newest block, is watched. -/
theorem watched_of_spends (hvalid : ConsensusValid E.txid (body :: chain)) {outpoint : OutPoint}
    (hnull : outpoint ≠ .null) (hspends : ∃ tx ∈ body, Spends tx outpoint)
    (hwatching : outpoint ∈ slot.watches ∨
      outpoint ∈ slot.seen ∧ ∃ depth, At (Spends · outpoint) chain depth) :
    outpoint ∈ slot.watches := by
  rcases hwatching with hwatched | ⟨-, hat⟩
  · exact hwatched
  · obtain ⟨tx, htx, hspends⟩ := hspends
    obtain ⟨tx', htx', hspends'⟩ := exists_at.mp hat
    exact absurd hspends' (hvalid.unspent hnull htx hspends htx')

/-- A complete proof brings every transaction of a block that has changes, when the outpoints the
block spends are watched. -/
theorem Covers.mem {isRemove : Bool} (hcovers : Covers E slot isRemove body txs)
    (hfollows : Follows E key chain s slot) (hguards : Guards E W.Occurs key chain s slot)
    (htx : tx ∈ body)
    (hwatched : ∀ outpoint : OutPoint, outpoint ≠ .null → Spends tx outpoint →
      (outpoint ∈ slot.watches ∨
        outpoint ∈ slot.seen ∧ ∃ depth, At (Spends · outpoint) chain depth) →
      outpoint ∈ slot.watches ∨ isRemove = true ∧ outpoint ∈ slot.seen)
    (hchanges : s.txChanges E.txid tx ≠ []) : tx ∈ txs := by
  refine hcovers.complete tx htx ?_
  rcases txChanges_ne_nil hfollows.txids hchanges with ⟨input, hinput, hspends⟩ | hfunds | hcloses
  · exact .inr ⟨input, hwatched input (hguards.inputs input hinput).1 hspends
      (hguards.watching input hinput), hspends⟩
  · refine .inl ?_
    rw [show E.txid tx = key.txid from hfunds]
    exact hfollows.watched
  · obtain ⟨hfunded, hspends⟩ := (closes_iff hfollows.outpoint).mp hcloses
    exact .inr ⟨key, hwatched key hfollows.notNull hspends (hfollows.watching hfunded), hspends⟩

theorem Covers.mem_add (hcovers : Covers E slot false body txs)
    (hfollows : Follows E key chain s slot) (hguards : Guards E W.Occurs key chain s slot)
    (hvalid : ConsensusValid E.txid (body :: chain)) (htx : tx ∈ body)
    (hchanges : s.txChanges E.txid tx ≠ []) : tx ∈ txs :=
  hcovers.mem hfollows hguards htx (fun _ hnull hspends hwatching =>
    .inl (watched_of_spends hvalid hnull ⟨tx, htx, hspends⟩ hwatching)) hchanges

/-! ## Changes found when the block is taken back -/

/-- The funding inputs a block spends. -/
def spentFundingInputs (s : State) (body : List Transaction) : List OutPoint :=
  body.flatMap fun tx => (tx.input.map TxIn.previousOutput).filter (· ∈ s.fundingInputs)

/-- The block does not both fund and close the channel, and does not spend more than one funding
input for the first time without funding it. -/
def Reversible (E : ChainEnv) (key : OutPoint) (s : State) (body : List Transaction) : Prop :=
  ¬ ((∃ tx ∈ body, Funds E key tx) ∧ ∃ tx ∈ body, Spends tx key) ∧
  ((¬ ∃ tx ∈ body, Funds E key tx) → s.fundingDoubleSpentHeight = none →
    (spentFundingInputs s body).length ≤ 1)

instance (E : ChainEnv) (key : OutPoint) (s : State) (body : List Transaction) :
    Decidable (Reversible E key s body) :=
  inferInstanceAs (Decidable (_ ∧ _))

/-- The funding transaction is confirmed once. -/
theorem length_confirmed_le (hfollows : Follows E key chain s slot)
    (hvalid : ConsensusValid E.txid (body :: chain)) :
    (confirmed (s.changesOf E.txid body)).length ≤ 1 := by
  rw [confirmed_changesOf]
  simp only [confirmed_confirmation hfollows.txids hfollows.vouts]
  refine length_flatMap_ite_le hvalid.nodup fun tx htx hid tx' htx' hid' => ?_
  have hunique := hvalid.unique
  rw [history_cons, map_append] at hunique
  exact inj_on_of_nodup_map hunique.of_append_right htx htx' (hid.trans hid'.symm)

/-- The channel is closed once. -/
theorem length_closings_le (hfollows : Follows E key chain s slot)
    {chain' : Chain} (hvalid : ConsensusValid E.txid (body :: chain')) :
    (closings (s.changesOf E.txid body)).length ≤ 1 := by
  rw [closings_changesOf]
  refine length_flatMap_ite_le hvalid.nodup fun tx htx hcloses tx' htx' hcloses' => ?_
  have hmem (tx : Transaction) (htx : tx ∈ body) : tx ∈ history (body :: chain') := by
    rw [history_cons]
    exact mem_append_right _ htx
  exact hvalid.eq_of_spends hfollows.notNull (hmem tx htx) (hmem tx' htx')
    ((closes_iff hfollows.outpoint).mp hcloses).2 ((closes_iff hfollows.outpoint).mp hcloses').2

/-! ## Taking the changes back -/

/-- The monitor after a block was added. -/
def afterBlock (E : ChainEnv) (s : State) (body : List Transaction) : State :=
  raised s (s.changesOf E.txid body)

/-- The changes found when the block is removed again. -/
def changesBack (E : ChainEnv) (s : State) (body : List Transaction) : List StateChange :=
  (afterBlock E s body).changesOf E.txid body

/-- A valid block meets the assertions of a monitor that agrees with the chain. -/
structure Addable (W : World E) (key : OutPoint) (chain : Chain) (body : List Transaction)
    (s : State) (slot : ListenSlot) : Prop where
  follows : Follows E key chain s slot
  guards : Guards E W.Occurs key chain s slot
  valid : ConsensusValid E.txid (body :: chain)
  safe : s.AddSafe (haveFundingConfirmed (s.changesOf E.txid body)) (s.changesOf E.txid body)

theorem confirmed_back :
    confirmed (changesBack E s body) = confirmed (s.changesOf E.txid body) := by
  unfold changesBack
  rw [confirmed_changesOf, confirmed_changesOf]
  rfl

theorem doubleSpent_back :
    doubleSpent (changesBack E s body) = doubleSpent (s.changesOf E.txid body) := by
  unfold changesBack
  rw [doubleSpent_changesOf, doubleSpent_changesOf]
  rfl

theorem haveFundingConfirmed_back : haveFundingConfirmed (changesBack E s body) =
    haveFundingConfirmed (s.changesOf E.txid body) := by
  unfold haveFundingConfirmed
  rw [confirmed_back]

theorem doubleSpent_body : doubleSpent (s.changesOf E.txid body) = spentFundingInputs s body :=
  doubleSpent_changesOf body

theorem detected_body : s.Detected E.txid body (s.changesOf E.txid body) :=
  Detected.of_changesOf _ _

theorem detected_back : (afterBlock E s body).Detected E.txid body (changesBack E s body) :=
  Detected.of_changesOf _ _

namespace Addable

variable (h : Addable W key chain body s slot)
include h

theorem follows_after : Follows E key (body :: chain) (afterBlock E s body)
    (slot.added (confirmed (s.changesOf E.txid body)) (spent (s.changesOf E.txid body))) :=
  h.follows.add detected_body h.valid (Sublist.refl _) h.safe

theorem guards_after : Guards E W.Occurs key (body :: chain) (afterBlock E s body)
    (slot.added (confirmed (s.changesOf E.txid body)) (spent (s.changesOf E.txid body))) :=
  h.guards.add h.follows (Sublist.refl _) detected_body h.safe

theorem haveFundingConfirmed_eq_false (hfunds : ¬ ∃ tx ∈ body, Funds E key tx) :
    haveFundingConfirmed (s.changesOf E.txid body) = false :=
  Bool.eq_false_iff.mpr fun hhave =>
    hfunds ((haveFundingConfirmed_iff h.follows detected_body).mp hhave)

/-- Unless the block funds the channel, what is known of the funding stays. -/
theorem funding_after (hfunds : ¬ ∃ tx ∈ body, Funds E key tx) :
    (afterBlock E s body).fundingHeight = s.fundingHeight ∧
      (afterBlock E s body).fundingOutpoint = s.fundingOutpoint := by
  simp [afterBlock, raised, State.added, confirmed_eq_nil h.follows detected_body hfunds]

/-- Unless the block funds the channel, the same closings are found again. -/
theorem closings_back (hfunds : ¬ ∃ tx ∈ body, Funds E key tx) :
    closings (changesBack E s body) = closings (s.changesOf E.txid body) := by
  unfold changesBack
  rw [closings_changesOf, closings_changesOf]
  have hcloses (tx : Transaction) : (afterBlock E s body).Closes tx ↔ s.Closes tx := by
    unfold Closes
    rw [(h.funding_after hfunds).2]
  simp only [hcloses]

/-- A closing that is found again spends the funding outpoint. -/
theorem spends_of_mem_back {tx : Transaction} (hmem : tx ∈ closings (changesBack E s body)) :
    ∃ tx ∈ body, Spends tx key := by
  obtain ⟨-, htx, hspends⟩ := (mem_closings detected_back h.follows_after.outpoint).mp hmem
  exact ⟨tx, htx, hspends⟩

/-- The double spends of a block that does not fund the channel are recorded. -/
theorem fundingDoubleSpentHeight_after (hfunds : ¬ ∃ tx ∈ body, Funds E key tx)
    (hdouble : doubleSpent (s.changesOf E.txid body) ≠ []) :
    (afterBlock E s body).fundingDoubleSpentHeight =
      some (s.fundingDoubleSpentHeight.getD (s.height + 1)) := by
  have hempty := isEmpty_eq_false_iff.mpr hdouble
  simp [afterBlock, raised, State.added, h.haveFundingConfirmed_eq_false hfunds, hempty]

/-- A recorded double spend is older than the block. -/
theorem fundingDoubleSpentHeight_ne : s.fundingDoubleSpentHeight ≠ some (s.height + 1) := by
  intro hdouble
  have := (h.guards.recorded _ hdouble).1
  omega

/-- A channel that the block funds is not closed before. -/
theorem not_closed (hfunds : ∃ tx ∈ body, Funds E key tx) :
    s.fundingHeight = none ∧ s.closingHeight = none := by
  have hunfunded := h.follows.not_funded h.valid hfunds
  refine ⟨hunfunded, ?_⟩
  rcases hclosing : s.closingHeight with _ | height
  · rfl
  · have hfunded := (h.follows.closed height hclosing).2.2.1
    rw [hunfunded] at hfunded
    cases hfunded

/-- A block that both funds and closes the channel cannot be taken back. -/
theorem apart_of_removeSafe {haveFunding : Bool}
    (hremove : (afterBlock E s body).RemoveSafe haveFunding (changesBack E s body)) :
    ¬ ((∃ tx ∈ body, Funds E key tx) ∧ ∃ tx ∈ body, Spends tx key) := by
  rintro ⟨hfunds, tx, htx, hspends⟩
  obtain ⟨hunfunded, hunclosed⟩ := h.not_closed hfunds
  have hopen : (afterBlock E s body).closingHeight = none := by
    refine (closingHeight_raised h.follows detected_body).mpr ⟨hunclosed, fun hclosed => ?_⟩
    rw [hunfunded] at hclosed
    cases hclosed.1
  have hfunded : (afterBlock E s body).fundingHeight.isSome = true := by
    rcases hheight : (afterBlock E s body).fundingHeight with _ | height
    · exact absurd hfunds ((fundingHeight_raised h.follows detected_body).mp hheight).2
    · rfl
  have hclosing : tx ∈ closings (changesBack E s body) :=
    (mem_closings detected_back h.follows_after.outpoint).mpr ⟨hfunded, htx, hspends⟩
  have hclosed := (hremove.closed (ne_nil_of_mem hclosing)).1
  rw [hopen] at hclosed
  cases hclosed

/-- A block that is taken back is reversible. -/
theorem reversible_of_removeSafe (hremove : (afterBlock E s body).RemoveSafe
    (haveFundingConfirmed (changesBack E s body)) (changesBack E s body)) :
    Reversible E key s body := by
  refine ⟨h.apart_of_removeSafe hremove, fun hfunds hnone => ?_⟩
  by_cases hempty : doubleSpent (s.changesOf E.txid body) = []
  · rw [← doubleSpent_body (E := E), hempty]
    exact Nat.zero_le 1
  · rw [haveFundingConfirmed_back] at hremove
    have hlength := (hremove.doubleSpent (h.haveFundingConfirmed_eq_false hfunds)
      (by rwa [doubleSpent_back])).2 (by
        rw [h.fundingDoubleSpentHeight_after hfunds hempty, hnone]
        rfl)
    rw [doubleSpent_back, doubleSpent_body] at hlength
    exact hlength.le

/-- A reversible block can be taken back. -/
theorem removeSafe_of_reversible (hreversible : Reversible E key s body) :
    (afterBlock E s body).RemoveSafe (haveFundingConfirmed (changesBack E s body))
      (changesBack E s body) := by
  obtain ⟨hapart, hfew⟩ := hreversible
  rw [haveFundingConfirmed_back]
  constructor
  · intro hne
    rw [confirmed_back] at hne ⊢
    have hempty := isEmpty_eq_false_iff.mpr hne
    refine ⟨by simp [afterBlock, raised, State.added, hempty], ?_⟩
    have hle := length_confirmed_le h.follows h.valid
    have hpos := length_pos_of_ne_nil hne
    omega
  · intro hfalse hne
    rw [doubleSpent_back] at hne ⊢
    have hfunds : ¬ ∃ tx ∈ body, Funds E key tx := fun hfunds => by
      rw [(haveFundingConfirmed_iff h.follows detected_body).mpr
        hfunds] at hfalse
      cases hfalse
    rw [h.fundingDoubleSpentHeight_after hfunds hne]
    refine ⟨rfl, fun htop => ?_⟩
    have hnone : s.fundingDoubleSpentHeight = none := by
      rcases hrecorded : s.fundingDoubleSpentHeight with _ | height
      · rfl
      · rw [hrecorded, Option.getD_some] at htop
        exact absurd (hrecorded.trans htop) h.fundingDoubleSpentHeight_ne
    have hle := hfew hfunds hnone
    have hpos := length_pos_of_ne_nil hne
    rw [doubleSpent_body] at hpos ⊢
    omega
  · intro hne
    obtain ⟨tx, hmem⟩ := exists_mem_of_ne_nil _ hne
    have hfunds : ¬ ∃ tx ∈ body, Funds E key tx :=
      fun hfunds => hapart ⟨hfunds, h.spends_of_mem_back hmem⟩
    rw [h.closings_back hfunds] at hne ⊢
    have hempty := isEmpty_eq_false_iff.mpr hne
    refine ⟨by simp [afterBlock, raised, State.added, hempty], ?_⟩
    have hle := length_closings_le h.follows h.valid
    have hpos := length_pos_of_ne_nil hne
    omega
  · intro tx hmem
    have hfunds : ¬ ∃ tx ∈ body, Funds E key tx :=
      fun hfunds => hapart ⟨hfunds, h.spends_of_mem_back hmem⟩
    rw [h.closings_back hfunds] at hmem
    exact h.safe.closings tx hmem

/-- The recorded double spend is restored. -/
theorem fundingDoubleSpentHeight_back :
    (lowered (afterBlock E s body) (changesBack E s body)).fundingDoubleSpentHeight =
      s.fundingDoubleSpentHeight := by
  by_cases hkeep : (haveFundingConfirmed (s.changesOf E.txid body) ||
      (doubleSpent (s.changesOf E.txid body)).isEmpty) = true
  · simp only [lowered, State.removed, haveFundingConfirmed_back, doubleSpent_back, hkeep]
    simp [afterBlock, raised, State.added, hkeep]
  · have hafter : (afterBlock E s body).fundingDoubleSpentHeight =
        some (s.fundingDoubleSpentHeight.getD (s.height + 1)) := by
      simp [afterBlock, raised, State.added, hkeep]
    have htop : (afterBlock E s body).height = s.height + 1 := rfl
    simp only [lowered, State.removed, haveFundingConfirmed_back, doubleSpent_back, hkeep, hafter,
      htop]
    rcases hrecorded : s.fundingDoubleSpentHeight with _ | height
    · simp
    · have hne : height ≠ s.height + 1 := fun heq =>
        h.fundingDoubleSpentHeight_ne (heq ▸ hrecorded)
      simp [hne]

/-- What is known of the funding is restored. -/
theorem funding_back :
    (lowered (afterBlock E s body) (changesBack E s body)).fundingHeight = s.fundingHeight ∧
      (lowered (afterBlock E s body) (changesBack E s body)).fundingOutpoint =
        s.fundingOutpoint := by
  by_cases hfunds : ∃ tx ∈ body, Funds E key tx
  · obtain ⟨hheight, houtpoint⟩ :=
      fundingHeight_lowered_none h.follows_after detected_back hfunds
    have hunfunded := (h.not_closed hfunds).1
    rw [hheight, houtpoint, h.follows.outpoint, hunfunded]
    exact ⟨rfl, rfl⟩
  · obtain ⟨hheight, houtpoint⟩ := fundingHeight_lowered h.follows_after detected_back hfunds
    rw [hheight, houtpoint]
    exact h.funding_after hfunds

/-- What is known of the closing is restored. -/
theorem closingHeight_back (hreversible : Reversible E key s body) :
    (lowered (afterBlock E s body) (changesBack E s body)).closingHeight = s.closingHeight := by
  have hkept (hopen : ¬ (s.fundingHeight.isSome = true ∧ ∃ tx ∈ body, Spends tx key)) :
      (afterBlock E s body).closingHeight = s.closingHeight := by
    simp [afterBlock, raised, State.added, (closings_isEmpty h.follows detected_body).mpr hopen]
  rw [closingHeight_lowered h.follows_after detected_back]
  by_cases hspends : ∃ tx ∈ body, Spends tx key
  · have hfunds : ¬ ∃ tx ∈ body, Funds E key tx := fun hfunds => hreversible.1 ⟨hfunds, hspends⟩
    rw [(h.funding_after hfunds).1]
    by_cases hfunded : s.fundingHeight.isSome = true
    · rw [if_pos ⟨hfunded, hspends⟩]
      rcases hclosing : s.closingHeight with _ | height
      · rfl
      · obtain ⟨tx, htx, hspends⟩ := hspends
        obtain ⟨tx', htx', hspends'⟩ := exists_at.mp ⟨_, (h.follows.closed height hclosing).2.1⟩
        exact absurd hspends' (h.valid.unspent h.follows.notNull htx hspends htx')
    · rw [if_neg fun hclosed => hfunded hclosed.1]
      exact hkept fun hclosed => hfunded hclosed.1
  · rw [if_neg fun hclosed => hspends hclosed.2]
    exact hkept fun hclosed => hspends hclosed.2

/-- What the block made the monitor forget is found again, and nothing else. -/
theorem mem_spent_back (hreversible : Reversible E key s body) {outpoint : OutPoint} :
    outpoint ∈ spent (changesBack E s body) ↔ outpoint ∈ spent (s.changesOf E.txid body) := by
  rw [mem_spent, mem_spent, doubleSpent_back]
  by_cases hfunds : ∃ tx ∈ body, Funds E key tx
  · have hnone : ∀ tx, tx ∉ closings (changesBack E s body) := fun tx hmem =>
      hreversible.1 ⟨hfunds, h.spends_of_mem_back hmem⟩
    have hnone' : ∀ tx, tx ∉ closings (s.changesOf E.txid body) := fun tx hmem => by
      have hfunded :=
        ((mem_closings detected_body h.follows.outpoint).mp hmem).1
      rw [(h.not_closed hfunds).1] at hfunded
      cases hfunded
    simp [hnone, hnone']
  · rw [h.closings_back hfunds]

/-- What the block made the monitor forget was watched before. -/
theorem watched_of_mem_spent {outpoint : OutPoint}
    (hmem : outpoint ∈ spent (s.changesOf E.txid body)) : outpoint ∈ slot.watches := by
  rcases (mem_spent_iff detected_body h.follows.outpoint h.safe.closings).mp hmem with
    hdouble | ⟨rfl, hfunded, hspends⟩
  · obtain ⟨hinput, hspends⟩ := detected_body.doubleSpent outpoint hdouble
    exact watched_of_spends h.valid (h.guards.inputs outpoint hinput).1 hspends
      (h.guards.watching outpoint hinput)
  · exact watched_of_spends h.valid h.follows.notNull hspends (h.follows.watching hfunded)

/-- What is watched is restored. -/
theorem watches_back (hreversible : Reversible E key s body) :
    ((slot.added (confirmed (s.changesOf E.txid body)) (spent (s.changesOf E.txid body))).removed
      (confirmed (changesBack E s body)) (spent (changesBack E s body))).watches =
        slot.watches := by
  have hnew {outpoint : OutPoint} (hmem : outpoint ∈ confirmed (s.changesOf E.txid body)) :
      outpoint ∉ slot.watches := by
    obtain ⟨rfl, hfunds⟩ := (mem_confirmed detected_body h.follows.txids h.follows.vouts).mp hmem
    intro hwatched
    have hfunded := h.follows.onlyFunded hwatched
    rw [(h.not_closed hfunds).1] at hfunded
    cases hfunded
  ext outpoint
  simp only [ListenSlot.added, ListenSlot.removed, Finset.mem_sdiff, Finset.mem_union,
    mem_toFinset, h.mem_spent_back hreversible, confirmed_back]
  constructor
  · rintro ⟨⟨hwatched | hadded, -⟩ | hspent, hnot⟩
    · exact hwatched
    · exact absurd hadded hnot
    · exact h.watched_of_mem_spent hspent
  · intro hwatched
    refine ⟨?_, fun hmem => hnew hmem hwatched⟩
    by_cases hspent : outpoint ∈ spent (s.changesOf E.txid body)
    · exact .inr hspent
    · exact .inl ⟨.inl hwatched, hspent⟩

end Addable

/-! ## One listener -/

/-- What a reorganization has to restore of a listener. -/
structure Restored (entry entry' : ChainMonitor × ListenSlot) : Prop where
  txidWatches : entry'.2.txidWatches = entry.2.txidWatches
  watches : entry'.2.watches = entry.2.watches
  height : entry'.1.state.height = entry.1.state.height
  fundingHeight : entry'.1.state.fundingHeight = entry.1.state.fundingHeight
  fundingOutpoint : entry'.1.state.fundingOutpoint = entry.1.state.fundingOutpoint
  fundingDoubleSpentHeight :
    entry'.1.state.fundingDoubleSpentHeight = entry.1.state.fundingDoubleSpentHeight
  closingHeight : entry'.1.state.closingHeight = entry.1.state.closingHeight

/-- A listener that has taken notice of the proof of a block. -/
structure Noticed (W : World E) (key : OutPoint) (chain : Chain) (body : List Transaction)
    (entry entry' : ChainMonitor × ListenSlot) : Prop where
  addable : Addable W key chain body entry.1.state entry.2
  read : ∀ tx ∈ body, entry.1.state.txChanges E.txid tx ≠ [] → entry.1.state.TxSafe E.txid tx
  state : entry'.1.state = afterBlock E entry.1.state body
  slot : entry'.2 = entry.2.added (confirmed (entry.1.state.changesOf E.txid body))
    (spent (entry.1.state.changesOf E.txid body))

theorem Tracked.noticed {entry entry' : ChainMonitor × ListenSlot}
    (h : Tracked W chain key entry) (hvalid : ConsensusValid E.txid (body :: chain))
    (hfits : entry.1.state.height + 1 < 2 ^ 32)
    (hnotice : AddNotice E false body entry entry') : Noticed W key chain body entry entry' := by
  cases hnotice with
  | ignored hstreamed _ => cases hstreamed
  | @noticed monitor slot txs changes height hcovers hdetected hexact hread hsafe hheight =>
    have hchanges : changes = monitor.state.changesOf E.txid body :=
      (hexact rfl).trans (changesOf_eq hvalid.nodup hcovers.sublist fun tx htx =>
        hcovers.mem_add h.follows h.guards hvalid htx)
    subst hchanges
    refine ⟨⟨h.follows, h.guards, hvalid, hsafe⟩, fun tx htx hne => ?_, ?_, rfl⟩
    · exact hread tx (hcovers.mem_add h.follows h.guards hvalid htx hne)
    · exact raised_eq hfits hheight

namespace Noticed

variable {entry entry' : ChainMonitor × ListenSlot} (h : Noticed W key chain body entry entry')
  {entry₂ : ChainMonitor × ListenSlot}
include h

theorem follows : Follows E key (body :: chain) entry'.1.state entry'.2 := by
  rw [h.state, h.slot]
  exact h.addable.follows_after

theorem guards : Guards E W.Occurs key (body :: chain) entry'.1.state entry'.2 := by
  rw [h.state, h.slot]
  exact h.addable.guards_after

/-- The changes found with a complete proof for removing the block. -/
theorem changes_back (hcovers : Covers E entry'.2 true body txs) :
    entry'.1.state.changesOf E.txid txs = changesBack E entry.1.state body := by
  rw [changesOf_eq h.addable.valid.nodup hcovers.sublist fun tx htx =>
    hcovers.mem h.follows h.guards htx fun _ _ _ hwatching =>
      hwatching.imp_right fun hseen => ⟨rfl, hseen.1⟩, h.state]
  rfl

/-- The transactions of a reversible block can be read again. -/
theorem txSafe (hreversible : Reversible E key entry.1.state body) {tx : Transaction}
    (htx : tx ∈ body) : entry'.1.state.TxSafe E.txid tx where
  closing hcloses := by
    obtain ⟨hfunded, hspends⟩ := (closes_iff h.follows.outpoint).mp hcloses
    have hfunds : ¬ ∃ tx ∈ body, Funds E key tx :=
      fun hfunds => hreversible.1 ⟨hfunds, tx, htx, hspends⟩
    rw [h.state, (h.addable.funding_after hfunds).1] at hfunded
    have hcloses : entry.1.state.Closes tx :=
      (closes_iff h.addable.follows.outpoint).mpr ⟨hfunded, hspends⟩
    refine (h.read tx htx ?_).closing hcloses
    simp [txChanges, closing, hcloses]
  funding ind hind := by
    have hstate := h.state
    have hind' : entry.1.state.fundingTxids.idxOf? (E.txid tx) = some ind := by
      rw [hstate] at hind
      exact hind
    obtain ⟨vout, hvout, hlt⟩ := (h.read tx htx (by
      simp [txChanges, confirmation, hind'])).funding ind hind'
    refine ⟨vout, ?_, hlt⟩
    rw [hstate]
    exact hvout

/-- A listener takes notice of the removal of a reversible block only. -/
theorem reversible (hnotice : RemoveNotice E body entry' entry₂) :
    Reversible E key entry.1.state body := by
  cases hnotice with
  | noticed hcovers hchanges hsafe hheight =>
    rw [hchanges, h.changes_back hcovers, h.state] at hsafe
    exact h.addable.reversible_of_removeSafe hsafe

/-- A listener takes notice of the removal of a reversible block. -/
theorem notifyRemove (hreversible : Reversible E key entry.1.state body)
    (hcovers : Covers E entry'.2 true body txs) (hash : BlockHash) :
    ∃ entry₂, ChainTracker.notifyRemove (listener E) (some txs) hash entry' =
      .ok entry₂ := by
  have hremove := h.addable.removeSafe_of_reversible hreversible
  rw [← h.changes_back hcovers, ← h.state] at hremove
  obtain ⟨s, hs⟩ : ∃ s, reading E entry'.1.state (some txs) hash = .ok s :=
    ⟨_, reading_some.mpr
      ⟨fun tx htx => h.txSafe hreversible (hcovers.sublist.subset htx), rfl⟩⟩
  obtain ⟨-, rfl⟩ := reading_some.mp hs
  have hheight : (E.overflow.sub32 entry'.1.state.height 1 : Asserted Nat) = .ok _ :=
    if_pos (by rw [h.state]; exact Nat.le_add_left 1 _)
  refine ⟨_, notifyRemove_eq_ok.mpr ⟨_, _, _, _, hs, (onRemoveBlockEnd_eq_ok rfl).mpr
    ⟨blockHash_afterTxs _, ?_, _, hheight, rfl⟩, rfl⟩⟩
  rw [changes_of_proof]
  exact ⟨hremove.1, hremove.2, hremove.3, hremove.4⟩

/-- A listener that has taken notice of the removal is as it was before the block. -/
theorem restored (hnotice : RemoveNotice E body entry' entry₂) : Restored entry entry₂ := by
  have hreversible := h.reversible hnotice
  cases hnotice with
  | @noticed monitor slot txs changes height hcovers hchanges hsafe hheight =>
    have hback := h.changes_back hcovers
    rw [← hchanges] at hback
    subst hback
    have hstate := h.state
    have hslot := h.slot
    simp only at hstate hslot
    have hfits : 1 ≤ monitor.state.height := by
      rw [hstate]
      exact Nat.le_add_left 1 _
    have hlowered : _ = lowered monitor.state (changesBack E entry.1.state body) :=
      lowered_eq hfits hheight
    rw [hstate] at hlowered
    obtain ⟨hfunding, houtpoint⟩ := h.addable.funding_back
    rw [hstate, hslot, hlowered]
    exact ⟨rfl, h.addable.watches_back hreversible, rfl, hfunding, houtpoint,
      h.addable.fundingDoubleSpentHeight_back, h.addable.closingHeight_back hreversible⟩

end Noticed

end ChainTracker

end ValidatingSigner
