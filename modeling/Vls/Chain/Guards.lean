import Vls.Chain.Follows

/-!
# A monitor guards the inputs of the funding transaction

Once the node has signed the funding transaction its inputs are watched, and a recorded double spend
is in the chain.  By the consensus rules the assertions on confirmations and double spends then hold
for every block.
-/

namespace ValidatingSigner

open Base Monitor State List

namespace ChainTracker

variable {E : ChainEnv} {occurs : Transaction → Prop} {fo : OutPoint} {s : State}
  {slot : ListenSlot} {chain : Chain} {body txs : List Transaction} {changes : List StateChange}

/-- The transaction spends the outpoint and is not the funding transaction. -/
def DoubleSpends (E : ChainEnv) (fo outpoint : OutPoint) (tx : Transaction) : Prop :=
  Spends tx outpoint ∧ ¬ Funds E fo tx

/-- What a monitor knows of the inputs of its funding transaction, among the transactions that may
occur in a chain. -/
structure Guards (E : ChainEnv) (occurs : Transaction → Prop) (fo : OutPoint) (chain : Chain)
    (s : State) (slot : ListenSlot) : Prop where
  inputs : ∀ input ∈ s.fundingInputs, input ≠ .null ∧
    ∀ tx, occurs tx → Funds E fo tx → Spends tx input
  watching : ∀ input ∈ s.fundingInputs,
    input ∈ slot.watches ∨ input ∈ slot.seen ∧ ∃ depth, At (Spends · input) chain depth
  recorded : ∀ h, s.fundingDoubleSpentHeight = some h → h ≤ s.height ∧
    ∃ input ∈ s.fundingInputs, At (DoubleSpends E fo input) chain (s.height - h)
  fresh : s.sawBlock = false → s.fundingDoubleSpentHeight = none

/-! ## Assertions -/

/-- The assertions on the changes of a block hold as soon as its closing transactions have a single
input. -/
theorem Guards.addSafe (hguards : Guards E occurs fo chain s slot)
    (hfollows : Follows E fo chain s slot) (hvalid : ConsensusValid E.txid (body :: chain))
    (hoccurs : ∀ tx ∈ history (body :: chain), occurs tx) (hsub : txs.Sublist body)
    (hdetected : s.Detected E.txid txs changes)
    (hsingle : ∀ tx ∈ closings changes, tx.input.length = 1) :
    s.AddSafe (haveFundingConfirmed changes) changes where
  confirmed hne := by
    obtain ⟨outpoint, hmem⟩ := exists_mem_of_ne_nil _ hne
    obtain ⟨-, funding, hfunding, hid⟩ :=
      (mem_confirmed hdetected hfollows.txids hfollows.vouts).mp hmem
    have hbody := hsub.subset hfunding
    rcases hdouble : s.fundingDoubleSpentHeight with _ | h
    · rfl
    · obtain ⟨-, input, hinput, hat⟩ := hguards.recorded h hdouble
      obtain ⟨hnull, hspends⟩ := hguards.inputs input hinput
      obtain ⟨tx, htx, hspends', -⟩ := exists_at.mp ⟨_, hat⟩
      have hfundingOccurs : occurs funding := hoccurs funding (by
        rw [history_cons]
        exact mem_append_right _ hbody)
      exact absurd hspends' (hvalid.unspent hnull hbody (hspends funding hfundingOccurs hid) htx)
  doubleSpent _ hne := by
    obtain ⟨input, hmem⟩ := exists_mem_of_ne_nil _ hne
    obtain ⟨hinput, tx, htx, hspends⟩ := hdetected.doubleSpent input hmem
    obtain ⟨hnull, hfunding⟩ := hguards.inputs input hinput
    rcases hheight : s.fundingHeight with _ | h
    · rfl
    · obtain ⟨funding, hmem, hid⟩ := exists_at.mp ⟨_, (hfollows.funded h hheight).2⟩
      have hfundingOccurs : occurs funding := hoccurs funding (by
        rw [history_cons]
        exact mem_append_left _ hmem)
      exact absurd (hfunding funding hfundingOccurs hid)
        (hvalid.unspent hnull (hsub.subset htx) hspends hmem)
  closings := hsingle

/-! ## Added blocks -/

theorem haveFundingConfirmed_iff (hfollows : Follows E fo chain s slot)
    (hdetected : s.Detected E.txid txs changes) :
    haveFundingConfirmed changes = true ↔ ∃ tx ∈ txs, Funds E fo tx := by
  by_cases hfunds : ∃ tx ∈ txs, Funds E fo tx
  · simp [haveFundingConfirmed, (confirmed_getLast hfollows hdetected hfunds).1, hfunds]
  · simp [haveFundingConfirmed, confirmed_eq_nil hfollows hdetected hfunds, hfunds]

/-- A block that a monitor takes notice of. -/
theorem Guards.add (hguards : Guards E occurs fo chain s slot)
    (hfollows : Follows E fo chain s slot) (hsub : txs.Sublist body)
    (hdetected : s.Detected E.txid txs changes)
    (hsafe : s.AddSafe (haveFundingConfirmed changes) changes) :
    Guards E occurs fo (body :: chain) (raised s changes)
      (slot.added (confirmed changes) (spent changes)) where
  inputs := hguards.inputs
  watching input hinput := by
    by_cases hspent : input ∈ spent changes
    · obtain ⟨tx, htx, hspends⟩ : ∃ tx ∈ txs, Spends tx input := by
        rcases (mem_spent_iff hdetected hfollows.outpoint hsafe.closings).mp hspent with
          h | ⟨rfl, -⟩
        · exact (hdetected.doubleSpent input h).2
        · exact absurd hinput hfollows.foreign
      exact .inr ⟨Finset.mem_union_right _ (mem_toFinset.mpr hspent), 0,
        at_zero.mpr ⟨tx, hsub.subset htx, hspends⟩⟩
    · rcases hguards.watching input hinput with hwatched | ⟨hseen, depth, hat⟩
      · exact .inl (Finset.mem_sdiff.mpr ⟨Finset.mem_union_left _ hwatched,
          fun h => hspent (mem_toFinset.mp h)⟩)
      · exact .inr ⟨Finset.mem_union_left _ hseen, depth + 1, at_succ.mpr hat⟩
  recorded h hh := by
    have hold (hh : s.fundingDoubleSpentHeight = some h) : h ≤ s.height + 1 ∧
        ∃ input ∈ s.fundingInputs, At (DoubleSpends E fo input) (body :: chain)
          (s.height + 1 - h) := by
      obtain ⟨hle, input, hinput, hat⟩ := hguards.recorded h hh
      exact ⟨Nat.le_succ_of_le hle, input, hinput, at_raised hle hat⟩
    by_cases hkeep : (haveFundingConfirmed changes || (doubleSpent changes).isEmpty) = true
    · exact hold (by simpa [raised, added, hkeep] using hh)
    · rcases hdouble : s.fundingDoubleSpentHeight with _ | h'
      · obtain rfl : s.height + 1 = h := by simpa [raised, added, hkeep, hdouble] using hh
        obtain ⟨hhave, hempty⟩ :
            haveFundingConfirmed changes = false ∧ doubleSpent changes ≠ [] := by
          simpa using hkeep
        obtain ⟨input, hmem⟩ := exists_mem_of_ne_nil _ hempty
        obtain ⟨hinput, tx, htx, hspends⟩ := hdetected.doubleSpent input hmem
        refine ⟨le_refl _, input, hinput, at_tip ⟨tx, hsub.subset htx, hspends, fun hid => ?_⟩⟩
        rw [(haveFundingConfirmed_iff hfollows hdetected).mpr ⟨tx, htx, hid⟩] at hhave
        cases hhave
      · obtain rfl : h' = h := by simpa [raised, added, hkeep, hdouble] using hh
        exact hold hdouble
  fresh h := nomatch h

/-- A block that a monitor ignores. -/
theorem Guards.ignore (hguards : Guards E occurs fo chain s slot) (hnew : s.sawBlock = false) :
    Guards E occurs fo (body :: chain) s slot where
  inputs := hguards.inputs
  watching input hinput := (hguards.watching input hinput).imp_right
    fun ⟨hseen, depth, hat⟩ => ⟨hseen, depth + 1, at_succ.mpr hat⟩
  recorded h hh := by
    rw [hguards.fresh hnew] at hh
    cases hh
  fresh := hguards.fresh

/-! ## Removed blocks -/

/-- A funding input that a removed block spends is detected. -/
theorem mem_doubleSpent (hguards : Guards E occurs fo chain s slot)
    (hcovers : Covers E slot true body txs) {input : OutPoint} (hinput : input ∈ s.fundingInputs)
    (hspends : ∃ tx ∈ body, Spends tx input) : input ∈ doubleSpent (s.changesOf E.txid txs) := by
  obtain ⟨tx, htx, hspends⟩ := hspends
  have hmem : tx ∈ txs := hcovers.complete tx htx (.inr ⟨input,
    (hguards.watching input hinput).imp_right fun h => ⟨rfl, h.1⟩, hspends⟩)
  rw [doubleSpent_changesOf]
  exact mem_flatMap.mpr ⟨tx, hmem, mem_filter.mpr
    ⟨mem_map.mpr hspends, decide_eq_true hinput⟩⟩

/-- A block of whose removal a monitor takes notice. -/
theorem Guards.remove (hguards : Guards E occurs fo (body :: chain) s slot)
    (hfollows : Follows E fo (body :: chain) s slot)
    (hvalid : ConsensusValid E.txid (body :: chain))
    (hoccurs : ∀ tx ∈ history (body :: chain), occurs tx) (hcovers : Covers E slot true body txs)
    (hchanges : changes = s.changesOf E.txid txs) :
    Guards E occurs fo chain (lowered s changes)
      (slot.removed (confirmed changes) (spent changes)) where
  inputs := hguards.inputs
  watching input hinput := by
    have hdetected : s.Detected E.txid txs changes := hchanges ▸ Detected.of_changesOf s txs
    have hnot : input ∉ (confirmed changes).toFinset := fun h => by
      obtain ⟨rfl, -⟩ := (mem_confirmed hdetected hfollows.txids hfollows.vouts).mp
        (mem_toFinset.mp h)
      exact hfollows.foreign hinput
    by_cases hspent : input ∈ spent changes
    · exact .inl (Finset.mem_sdiff.mpr
        ⟨Finset.mem_union_right _ (mem_toFinset.mpr hspent), hnot⟩)
    · rcases hguards.watching input hinput with hwatched | ⟨hseen, hat⟩
      · exact .inl (Finset.mem_sdiff.mpr ⟨Finset.mem_union_left _ hwatched, hnot⟩)
      · rcases exists_at_cons.mp hat with hspends | hat
        · refine absurd (mem_spent.mpr (.inl ?_)) hspent
          rw [hchanges]
          exact mem_doubleSpent hguards hcovers hinput hspends
        · exact .inr ⟨Finset.mem_sdiff.mpr ⟨hseen, fun h => hspent (mem_toFinset.mp h)⟩, hat⟩
  recorded h hh := by
    have hdetected : s.Detected E.txid txs changes := hchanges ▸ Detected.of_changesOf s txs
    have hdouble : s.fundingDoubleSpentHeight = some h ∧
        (h = s.height → haveFundingConfirmed changes = true ∨ doubleSpent changes = []) := by
      by_cases hkeep : (haveFundingConfirmed changes || (doubleSpent changes).isEmpty) = true
      · exact ⟨by simpa [lowered, removed, hkeep] using hh, fun _ => by simpa using hkeep⟩
      · by_cases htop : s.fundingDoubleSpentHeight = some s.height
        · simp [lowered, removed, hkeep, htop] at hh
        · have hdouble : s.fundingDoubleSpentHeight = some h := by
            simpa [lowered, removed, hkeep, htop] using hh
          exact ⟨hdouble, fun heq => absurd (heq ▸ hdouble) htop⟩
    obtain ⟨hle, input, hinput, hat⟩ := hguards.recorded h hdouble.1
    by_cases htop : h = s.height
    · rw [htop, Nat.sub_self] at hat
      obtain ⟨tx, htx, hspends, hother⟩ := at_zero.mp hat
      have hmem := mem_doubleSpent hguards hcovers hinput ⟨tx, htx, hspends⟩
      rcases hdouble.2 htop with hhave | hempty
      · obtain ⟨funding, hfunding, hid⟩ := (haveFundingConfirmed_iff hfollows hdetected).mp hhave
        obtain ⟨hnull, hfundingSpends⟩ := hguards.inputs input hinput
        have hhistory : funding ∈ history (body :: chain) := by
          rw [history_cons]
          exact mem_append_right _ (hcovers.sublist.subset hfunding)
        have hsame := hvalid.eq_of_spends hnull (by
          rw [history_cons]
          exact mem_append_right _ htx) hhistory hspends
          (hfundingSpends funding (hoccurs funding hhistory) hid)
        exact absurd (hsame ▸ hid) hother
      · rw [← hchanges, hempty] at hmem
        exact absurd hmem not_mem_nil
    · have hbelow : s.height - h = s.height - 1 - h + 1 := by omega
      rw [hbelow] at hat
      exact ⟨show h ≤ s.height - 1 by omega, input, hinput, at_succ.mp hat⟩
  fresh h := nomatch h

end ChainTracker

end ValidatingSigner
