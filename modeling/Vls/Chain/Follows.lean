import Vls.Chain.Delivery

/-!
# A monitor follows its channel

What a monitor knows of the funding and the closing of its channel agrees with the chain: a recorded
height is that of the block with the transaction, counted from the monitor's own height.  Added and
removed blocks preserve this.
-/

namespace ValidatingSigner

open Base Monitor State List

namespace ChainTracker

variable {E : ChainEnv} {fo : OutPoint} {s s' : State} {slot : ListenSlot} {chain : Chain}
  {body txs : List Transaction} {changes : List StateChange} {tx : Transaction}

/-- The transaction is the funding transaction of an outpoint. -/
def Funds (E : ChainEnv) (fo : OutPoint) (tx : Transaction) : Prop := E.txid tx = fo.txid

instance (E : ChainEnv) (fo : OutPoint) (tx : Transaction) : Decidable (Funds E fo tx) :=
  inferInstanceAs (Decidable (E.txid tx = fo.txid))

/-- What a monitor knows of the funding and the closing of its channel agrees with the chain. -/
structure Follows (E : ChainEnv) (fo : OutPoint) (chain : Chain) (s : State) (slot : ListenSlot) :
    Prop where
  notNull : fo ≠ .null
  txids : s.fundingTxids = [fo.txid]
  vouts : s.fundingVouts = [fo.vout]
  watched : fo.txid ∈ slot.txidWatches
  foreign : fo ∉ s.fundingInputs
  fresh : s.sawBlock = false → s.fundingHeight = none
  outpoint : s.fundingOutpoint = s.fundingHeight.map fun _ => fo
  funded : ∀ h, s.fundingHeight = some h → h ≤ s.height ∧ At (Funds E fo) chain (s.height - h)
  closed : ∀ h, s.closingHeight = some h → h ≤ s.height ∧
    At (Spends · fo) chain (s.height - h) ∧ s.fundingHeight.isSome = true ∧ fo ∈ slot.seen
  watching : s.fundingHeight.isSome = true →
    fo ∈ slot.watches ∨ fo ∈ slot.seen ∧ ∃ depth, At (Spends · fo) chain depth
  onlyFunded : fo ∈ slot.watches → s.fundingHeight.isSome = true

/-- A funded channel that is not recorded as closed is not spent. -/
def KnowsClosing (fo : OutPoint) (chain : Chain) (s : State) : Prop :=
  s.fundingHeight.isSome = true → s.closingHeight = none → ∀ depth, ¬ At (Spends · fo) chain depth

/-- A channel that is not recorded as funded is not funded. -/
def KnowsFunding (E : ChainEnv) (fo : OutPoint) (chain : Chain) (s : State) : Prop :=
  s.fundingHeight = none → ∀ depth, ¬ At (Funds E fo) chain depth

/-! ## What is detected -/

theorem confirmed_confirmation (htxids : s.fundingTxids = [fo.txid])
    (hvouts : s.fundingVouts = [fo.vout]) (id : Txid) :
    confirmed (s.confirmation id) = if id = fo.txid then [fo] else [] := by
  unfold confirmation
  rw [htxids, hvouts]
  by_cases hid : id = fo.txid
  · simp [idxOf?_cons, hid]
  · have hid' : ¬ fo.txid = id := fun h => hid h.symm
    simp [idxOf?_cons, hid, hid']

/-- A confirmation is detected in the funding transaction only, and is of the funding outpoint. -/
theorem mem_confirmed (hdetected : s.Detected E.txid txs changes)
    (htxids : s.fundingTxids = [fo.txid]) (hvouts : s.fundingVouts = [fo.vout])
    {outpoint : OutPoint} :
    outpoint ∈ confirmed changes ↔ outpoint = fo ∧ ∃ tx ∈ txs, Funds E fo tx := by
  rw [hdetected.confirmed, confirmed_changesOf, mem_flatMap]
  simp only [confirmed_confirmation htxids hvouts, Funds]
  constructor
  · rintro ⟨tx, htx, hmem⟩
    by_cases hid : E.txid tx = fo.txid
    · rw [if_pos hid, mem_singleton] at hmem
      exact ⟨hmem, tx, htx, hid⟩
    · rw [if_neg hid] at hmem
      exact absurd hmem not_mem_nil
  · rintro ⟨rfl, tx, htx, hid⟩
    exact ⟨tx, htx, by rw [if_pos hid]; exact mem_cons_self⟩

theorem closes_iff (houtpoint : s.fundingOutpoint = s.fundingHeight.map fun _ => fo) :
    s.Closes tx ↔ s.fundingHeight.isSome = true ∧ Spends tx fo := by
  unfold Closes
  rw [houtpoint]
  cases s.fundingHeight with
  | none => simp
  | some h => simp [Spends]

theorem mem_closings (hdetected : s.Detected E.txid txs changes)
    (houtpoint : s.fundingOutpoint = s.fundingHeight.map fun _ => fo) :
    tx ∈ closings changes ↔ s.fundingHeight.isSome = true ∧ tx ∈ txs ∧ Spends tx fo := by
  rw [hdetected.closings, closings_changesOf, mem_flatMap]
  constructor
  · rintro ⟨tx', htx', hmem⟩
    by_cases hcloses : s.Closes tx'
    · rw [if_pos hcloses, mem_singleton] at hmem
      subst hmem
      exact ⟨((closes_iff houtpoint).mp hcloses).1, htx', ((closes_iff houtpoint).mp hcloses).2⟩
    · rw [if_neg hcloses] at hmem
      exact absurd hmem not_mem_nil
  · rintro ⟨hfunded, htx, hspends⟩
    refine ⟨tx, htx, ?_⟩
    rw [if_pos ((closes_iff houtpoint).mpr ⟨hfunded, hspends⟩)]
    exact mem_cons_self

/-- A transaction with a single input spends a single outpoint. -/
theorem eq_of_spends_single (hlength : tx.input.length = 1) {outpoint outpoint' : OutPoint}
    (h : Spends tx outpoint) (h' : Spends tx outpoint') : outpoint = outpoint' := by
  obtain ⟨input, hinput⟩ := length_eq_one_iff.mp hlength
  obtain ⟨i, hi, rfl⟩ := h
  obtain ⟨i', hi', rfl⟩ := h'
  rw [hinput, mem_singleton] at hi hi'
  rw [hi, hi']

/-- What need not be watched any more is the funding outpoint of a closed channel or a funding
input. -/
theorem mem_spent_iff (hdetected : s.Detected E.txid txs changes)
    (houtpoint : s.fundingOutpoint = s.fundingHeight.map fun _ => fo)
    (hsingle : ∀ tx ∈ closings changes, tx.input.length = 1) {outpoint : OutPoint} :
    outpoint ∈ spent changes ↔ outpoint ∈ doubleSpent changes ∨
      outpoint = fo ∧ s.fundingHeight.isSome = true ∧ ∃ tx ∈ txs, Spends tx fo := by
  rw [mem_spent]
  refine or_congr_right ⟨?_, ?_⟩
  · rintro ⟨tx, hclosing, hspends⟩
    obtain ⟨hfunded, htx, hspends'⟩ := (mem_closings hdetected houtpoint).mp hclosing
    exact ⟨eq_of_spends_single (hsingle tx hclosing) hspends hspends', hfunded, tx, htx, hspends'⟩
  · rintro ⟨rfl, hfunded, tx, htx, hspends⟩
    exact ⟨tx, (mem_closings hdetected houtpoint).mpr ⟨hfunded, htx, hspends⟩, hspends⟩

/-! ## Depths -/

section Depths

variable {P : Transaction → Prop} {height h : Nat}

theorem at_tip (hbody : ∃ tx ∈ body, P tx) : At P (body :: chain) (height - height) := by
  rw [Nat.sub_self]
  exact at_zero.mpr hbody

theorem at_raised (hle : h ≤ height) (hat : At P chain (height - h)) :
    At P (body :: chain) (height + 1 - h) := by
  rw [Nat.succ_sub hle]
  exact at_succ.mpr hat

/-- What is in the chain is in its last block or below it. -/
theorem at_lowered (hat : At P (body :: chain) (height - h)) :
    (∃ tx ∈ body, P tx) ∨ h ≤ height - 1 ∧ At P chain (height - 1 - h) := by
  rcases hdepth : height - h with _ | depth
  · rw [hdepth] at hat
    exact .inl (at_zero.mp hat)
  · rw [hdepth] at hat
    rw [show height - 1 - h = depth by omega]
    exact .inr ⟨by omega, at_succ.mp hat⟩

end Depths

/-! ## Added blocks -/

/-- A monitor one block higher, with the changes of the block applied. -/
def raised (s : State) (changes : List StateChange) : State :=
  State.added (haveFundingConfirmed changes)
    { s with decodeState := none, sawBlock := true, height := s.height + 1 } changes

/-- A funding transaction in a new block is not known yet. -/
theorem Follows.not_funded (hfollows : Follows E fo chain s slot)
    (hvalid : ConsensusValid E.txid (body :: chain)) (hfunds : ∃ tx ∈ body, Funds E fo tx) :
    s.fundingHeight = none := by
  obtain ⟨tx, htx, hid⟩ := hfunds
  rcases hheight : s.fundingHeight with _ | h
  · rfl
  · exact absurd (hfollows.funded h hheight).2 (hvalid.not_funded_below htx hid)

/-- A block that a monitor ignores: the monitor has not seen any block. -/
theorem Follows.ignore (hfollows : Follows E fo chain s slot) (hnew : s.sawBlock = false) :
    Follows E fo (body :: chain) s slot := by
  have hnone : s.fundingHeight = none := hfollows.fresh hnew
  have hnot : ¬ s.fundingHeight.isSome = true := by simp [hnone]
  refine ⟨hfollows.notNull, hfollows.txids, hfollows.vouts, hfollows.watched, hfollows.foreign,
    hfollows.fresh, hfollows.outpoint, fun h hh => ?_, fun h hh => ?_, fun h => absurd h hnot,
    hfollows.onlyFunded⟩
  · exact absurd (Option.isSome_of_eq_some hh) hnot
  · exact absurd (hfollows.closed h hh).2.2.1 hnot

section Detected

variable (hfollows : Follows E fo chain s slot) (hdetected : s.Detected E.txid txs changes)

include hfollows hdetected

theorem confirmed_eq_nil (hnone : ¬ ∃ tx ∈ txs, Funds E fo tx) :
    confirmed changes = [] := by
  refine List.eq_nil_iff_forall_not_mem.mpr fun outpoint hmem => ?_
  exact hnone ((mem_confirmed hdetected hfollows.txids hfollows.vouts).mp hmem).2

theorem confirmed_getLast (hsome : ∃ tx ∈ txs, Funds E fo tx) :
    (confirmed changes).isEmpty = false ∧ (confirmed changes).getLast? = some fo := by
  have hmem : fo ∈ confirmed changes :=
    (mem_confirmed hdetected hfollows.txids hfollows.vouts).mpr ⟨rfl, hsome⟩
  have hne : confirmed changes ≠ [] := ne_nil_of_mem hmem
  refine ⟨isEmpty_eq_false_iff.mpr hne, ?_⟩
  rw [getLast?_eq_some_getLast hne]
  exact congrArg some ((mem_confirmed hdetected hfollows.txids hfollows.vouts).mp
    (getLast_mem hne)).1

theorem closings_isEmpty :
    (closings changes).isEmpty = true ↔
      ¬ (s.fundingHeight.isSome = true ∧ ∃ tx ∈ txs, Spends tx fo) := by
  rw [List.isEmpty_iff, List.eq_nil_iff_forall_not_mem]
  constructor
  · rintro hnone ⟨hfunded, tx, htx, hspends⟩
    exact hnone tx ((mem_closings hdetected hfollows.outpoint).mpr ⟨hfunded, htx, hspends⟩)
  · intro hnone tx hmem
    obtain ⟨hfunded, htx, hspends⟩ := (mem_closings hdetected hfollows.outpoint).mp hmem
    exact hnone ⟨hfunded, tx, htx, hspends⟩

/-- The funding outpoint leaves the watches only when it is spent. -/
theorem Follows.mem_spent (hsingle : ∀ tx ∈ closings changes, tx.input.length = 1) :
    fo ∈ spent changes ↔ s.fundingHeight.isSome = true ∧ ∃ tx ∈ txs, Spends tx fo := by
  rw [mem_spent_iff hdetected hfollows.outpoint hsingle]
  constructor
  · rintro (hspent | ⟨-, hclosed⟩)
    · exact absurd (hdetected.doubleSpent fo hspent).1 hfollows.foreign
    · exact hclosed
  · exact fun hclosed => .inr ⟨rfl, hclosed⟩

/-- A block that confirms the funding transaction. -/
theorem Follows.add_confirmed
    (hvalid : ConsensusValid E.txid (body :: chain)) (hsub : txs.Sublist body)
    (hsafe : s.AddSafe (haveFundingConfirmed changes) changes)
    (hfunds : ∃ tx ∈ txs, Funds E fo tx) :
    Follows E fo (body :: chain) (raised s changes)
      (slot.added (confirmed changes) (spent changes)) := by
  obtain ⟨tx, htx, hid⟩ := hfunds
  have hbody : ∃ tx ∈ body, Funds E fo tx := ⟨tx, hsub.subset htx, hid⟩
  have hnone := hfollows.not_funded hvalid hbody
  obtain ⟨hempty, hlast⟩ := confirmed_getLast hfollows hdetected ⟨tx, htx, hid⟩
  have hheight : (raised s changes).fundingHeight = some (s.height + 1) := by
    simp [raised, added, hempty]
  have hnot : ¬ s.fundingHeight.isSome = true := by simp [hnone]
  have hopen : s.closingHeight = none := Option.eq_none_iff_forall_ne_some.mpr fun h hclosing =>
    hnot (hfollows.closed h hclosing).2.2.1
  have hclosing : (raised s changes).closingHeight = none := by
    have hempty' : (closings changes).isEmpty = true :=
      (closings_isEmpty hfollows hdetected).mpr fun h => hnot h.1
    simp [raised, added, hempty', hopen]
  have hspent : fo ∉ spent changes := fun h =>
    hnot ((hfollows.mem_spent hdetected hsafe.closings).mp h).1
  have hmem : fo ∈ confirmed changes :=
    (mem_confirmed hdetected hfollows.txids hfollows.vouts).mpr ⟨rfl, tx, htx, hid⟩
  refine ⟨hfollows.notNull, hfollows.txids, hfollows.vouts, hfollows.watched, hfollows.foreign,
    fun h => absurd h.symm Bool.false_ne_true, ?_, ?_, ?_, ?_, ?_⟩
  · rw [hheight]
    simp [raised, added, hlast]
  · intro h hh
    rw [hheight] at hh
    cases hh
    exact ⟨le_refl _, at_tip hbody⟩
  · intro h hh
    rw [hclosing] at hh
    cases hh
  · intro _
    refine .inl (Finset.mem_sdiff.mpr ⟨Finset.mem_union_right _ ?_, ?_⟩)
    · exact mem_toFinset.mpr hmem
    · exact fun h => hspent (mem_toFinset.mp h)
  · intro _
    rw [hheight]
    rfl

/-- A block that does not confirm the funding transaction. -/
theorem Follows.add_other (hsub : txs.Sublist body)
    (hsafe : s.AddSafe (haveFundingConfirmed changes) changes)
    (hfunds : ¬ ∃ tx ∈ txs, Funds E fo tx) :
    Follows E fo (body :: chain) (raised s changes)
      (slot.added (confirmed changes) (spent changes)) := by
  have hempty : confirmed changes = [] := confirmed_eq_nil hfollows hdetected hfunds
  have hheight : (raised s changes).fundingHeight = s.fundingHeight := by
    simp [raised, added, hempty]
  have hspent := hfollows.mem_spent hdetected hsafe.closings
  have hspentBody (h : fo ∈ spent changes) : ∃ tx ∈ body, Spends tx fo := by
    obtain ⟨-, tx, htx, hspends⟩ := hspent.mp h
    exact ⟨tx, hsub.subset htx, hspends⟩
  refine ⟨hfollows.notNull, hfollows.txids, hfollows.vouts, hfollows.watched, hfollows.foreign,
    fun h => absurd h.symm Bool.false_ne_true, ?_, ?_, ?_, ?_, ?_⟩
  · rw [hheight, ← hfollows.outpoint]
    simp [raised, added, hempty]
  · intro h hh
    rw [hheight] at hh
    obtain ⟨hle, hfunded⟩ := hfollows.funded h hh
    exact ⟨Nat.le_succ_of_le hle, at_raised hle hfunded⟩
  · intro h hh
    rw [hheight]
    by_cases hclosed : fo ∈ spent changes
    · have hnot : (closings changes).isEmpty = false :=
        Bool.eq_false_iff.mpr fun hem =>
          (closings_isEmpty hfollows hdetected).mp hem (hspent.mp hclosed)
      obtain rfl : s.height + 1 = h := by simpa [raised, added, hnot] using hh
      exact ⟨le_refl _, at_tip (hspentBody hclosed), (hspent.mp hclosed).1,
        Finset.mem_union_right _ (mem_toFinset.mpr hclosed)⟩
    · have hem : (closings changes).isEmpty = true :=
        (closings_isEmpty hfollows hdetected).mpr fun h => hclosed (hspent.mpr h)
      have hclosing : s.closingHeight = some h := by simpa [raised, added, hem] using hh
      obtain ⟨hle, hat, hfunded, hseen⟩ := hfollows.closed h hclosing
      exact ⟨Nat.le_succ_of_le hle, at_raised hle hat, hfunded, Finset.mem_union_left _ hseen⟩
  · intro hfunded
    rw [hheight] at hfunded
    by_cases hclosed : fo ∈ spent changes
    · exact .inr ⟨Finset.mem_union_right _ (mem_toFinset.mpr hclosed), 0,
        at_zero.mpr (hspentBody hclosed)⟩
    · rcases hfollows.watching hfunded with hwatched | ⟨hseen, depth, hat⟩
      · exact .inl (Finset.mem_sdiff.mpr ⟨Finset.mem_union_left _ hwatched,
          fun h => hclosed (mem_toFinset.mp h)⟩)
      · exact .inr ⟨Finset.mem_union_left _ hseen, depth + 1, at_succ.mpr hat⟩
  · intro hwatched
    rw [hheight]
    rw [hempty] at hwatched
    rcases Finset.mem_union.mp (Finset.mem_sdiff.mp hwatched).1 with hwatched | hwatched
    · exact hfollows.onlyFunded hwatched
    · exact absurd hwatched (Finset.notMem_empty _)

theorem Follows.add (hvalid : ConsensusValid E.txid (body :: chain)) (hsub : txs.Sublist body)
    (hsafe : s.AddSafe (haveFundingConfirmed changes) changes) :
    Follows E fo (body :: chain) (raised s changes)
      (slot.added (confirmed changes) (spent changes)) := by
  by_cases hfunds : ∃ tx ∈ txs, Funds E fo tx
  · exact hfollows.add_confirmed hdetected hvalid hsub hsafe hfunds
  · exact hfollows.add_other hdetected hsub hsafe hfunds

theorem fundingHeight_raised :
    (raised s changes).fundingHeight = none ↔
      s.fundingHeight = none ∧ ¬ ∃ tx ∈ txs, Funds E fo tx := by
  by_cases hfunds : ∃ tx ∈ txs, Funds E fo tx
  · have hempty := (confirmed_getLast hfollows hdetected hfunds).1
    simp [raised, added, hempty, hfunds]
  · have hempty := confirmed_eq_nil hfollows hdetected hfunds
    simp [raised, added, hempty, hfunds]

theorem closingHeight_raised :
    (raised s changes).closingHeight = none ↔
      s.closingHeight = none ∧ ¬ (s.fundingHeight.isSome = true ∧ ∃ tx ∈ txs, Spends tx fo) := by
  rw [← closings_isEmpty hfollows hdetected]
  by_cases hempty : (closings changes).isEmpty = true
  · simp [raised, added, hempty]
  · simp [raised, added, hempty]

/-- A monitor that notices every block knows the funding of its channel. -/
theorem KnowsFunding.add (hcovers : Covers E slot false body txs)
    (h : KnowsFunding E fo chain s) : KnowsFunding E fo (body :: chain) (raised s changes) := by
  intro hnone depth hat
  obtain ⟨hnone, hfunds⟩ := (fundingHeight_raised hfollows hdetected).mp hnone
  rcases exists_at_cons.mp ⟨depth, hat⟩ with ⟨tx, htx, hid⟩ | ⟨depth, hat⟩
  · refine hfunds ⟨tx, hcovers.complete tx htx (.inl ?_), hid⟩
    rw [show E.txid tx = fo.txid from hid]
    exact hfollows.watched
  · exact h hnone depth hat

/-- A monitor knows the closing of its channel unless the channel is funded and closed by the same
block. -/
theorem KnowsClosing.add
    (hvalid : ConsensusValid E.txid (body :: chain)) (hcovers : Covers E slot false body txs)
    (hapart : ¬ ((∃ tx ∈ body, Funds E fo tx) ∧ ∃ tx ∈ body, Spends tx fo))
    (h : KnowsClosing fo chain s) : KnowsClosing fo (body :: chain) (raised s changes) := by
  intro hsome hopen depth hat
  obtain ⟨hopen, hnot⟩ := (closingHeight_raised hfollows hdetected).mp hopen
  by_cases hfunded : s.fundingHeight.isSome = true
  · rcases exists_at_cons.mp ⟨depth, hat⟩ with ⟨tx, htx, hspends⟩ | ⟨depth, hat⟩
    · rcases hfollows.watching hfunded with hwatched | ⟨-, depth', hat'⟩
      · exact hnot ⟨hfunded, tx, hcovers.complete tx htx (.inr ⟨fo, .inl hwatched, hspends⟩),
          hspends⟩
      · obtain ⟨tx', htx', hspends'⟩ := exists_at.mp ⟨depth', hat'⟩
        exact hvalid.unspent hfollows.notNull htx hspends htx' hspends'
    · exact h hfunded hopen depth hat
  · have hfunds : ∃ tx ∈ txs, Funds E fo tx := by
      by_contra hfunds
      rw [(fundingHeight_raised hfollows hdetected).mpr
        ⟨Option.not_isSome_iff_eq_none.mp hfunded, hfunds⟩] at hsome
      cases hsome
    obtain ⟨funding, hfunding, hid⟩ := hfunds
    have hbody := hcovers.sublist.subset hfunding
    rcases exists_at_cons.mp ⟨depth, hat⟩ with hspends | ⟨depth, hat⟩
    · exact hapart ⟨⟨funding, hbody, hid⟩, hspends⟩
    · exact hvalid.not_spent_below hfollows.notNull hbody hid hat

/-! ## Removed blocks -/

/-- A monitor one block lower, with the changes of the block taken back. -/
def lowered (s : State) (changes : List StateChange) : State :=
  { State.removed (haveFundingConfirmed changes) { s with decodeState := none, sawBlock := true }
      changes with
    height := s.height - 1 }

theorem fundingHeight_lowered_none (hfunds : ∃ tx ∈ txs, Funds E fo tx) :
    (lowered s changes).fundingHeight = none ∧ (lowered s changes).fundingOutpoint = none := by
  have hempty := (confirmed_getLast hfollows hdetected hfunds).1
  simp [lowered, removed, hempty]

theorem fundingHeight_lowered (hfunds : ¬ ∃ tx ∈ txs, Funds E fo tx) :
    (lowered s changes).fundingHeight = s.fundingHeight ∧
      (lowered s changes).fundingOutpoint = s.fundingOutpoint := by
  have hempty := confirmed_eq_nil hfollows hdetected hfunds
  simp [lowered, removed, hempty]

/-- A funding height that remains is that of a channel whose funding transaction was not removed. -/
theorem funded_of_lowered (hfunded : (lowered s changes).fundingHeight.isSome = true) :
    (¬ ∃ tx ∈ txs, Funds E fo tx) ∧ s.fundingHeight.isSome = true := by
  by_cases hfunds : ∃ tx ∈ txs, Funds E fo tx
  · rw [(fundingHeight_lowered_none hfollows hdetected hfunds).1] at hfunded
    cases hfunded
  · rw [(fundingHeight_lowered hfollows hdetected hfunds).1] at hfunded
    exact ⟨hfunds, hfunded⟩

theorem closingHeight_lowered :
    (lowered s changes).closingHeight =
      if s.fundingHeight.isSome = true ∧ ∃ tx ∈ txs, Spends tx fo then none
      else s.closingHeight := by
  by_cases hempty : (closings changes).isEmpty = true
  · rw [if_neg ((closings_isEmpty hfollows hdetected).mp hempty)]
    simp [lowered, removed, hempty]
  · rw [if_pos (not_not.mp fun h => hempty ((closings_isEmpty hfollows hdetected).mpr h))]
    simp [lowered, removed, hempty]

end Detected

/-- A spending transaction in a removed block that has been seen is detected. -/
theorem Covers.spends (hcovers : Covers E slot true body txs) (hseen : fo ∈ slot.seen)
    (hspends : ∃ tx ∈ body, Spends tx fo) : ∃ tx ∈ txs, Spends tx fo := by
  obtain ⟨tx, htx, hspends⟩ := hspends
  exact ⟨tx, hcovers.complete tx htx (.inr ⟨fo, .inr ⟨rfl, hseen⟩, hspends⟩), hspends⟩

variable (hfollows : Follows E fo (body :: chain) s slot)
  (hvalid : ConsensusValid E.txid (body :: chain))

include hfollows hvalid

/-- A block of whose removal a monitor takes notice. -/
theorem Follows.remove (hcovers : Covers E slot true body txs)
    (hdetected : s.Detected E.txid txs changes)
    (hsafe : s.RemoveSafe (haveFundingConfirmed changes) changes) :
    Follows E fo chain (lowered s changes) (slot.removed (confirmed changes) (spent changes)) := by
  have hspent := hfollows.mem_spent hdetected hsafe.closings
  have hconfirmed : fo ∈ confirmed changes ↔ fo = fo ∧ ∃ tx ∈ txs, Funds E fo tx :=
    mem_confirmed hdetected hfollows.txids hfollows.vouts
  refine ⟨hfollows.notNull, hfollows.txids, hfollows.vouts, hfollows.watched, hfollows.foreign,
    fun h => absurd h.symm Bool.false_ne_true, ?_, ?_, ?_, ?_, ?_⟩
  · by_cases hfunds : ∃ tx ∈ txs, Funds E fo tx
    · obtain ⟨hheight, houtpoint⟩ := fundingHeight_lowered_none hfollows hdetected hfunds
      rw [hheight, houtpoint]
      rfl
    · obtain ⟨hheight, houtpoint⟩ := fundingHeight_lowered hfollows hdetected hfunds
      rw [hheight, houtpoint]
      exact hfollows.outpoint
  · intro h hh
    obtain ⟨hfunds, -⟩ := funded_of_lowered hfollows hdetected (Option.isSome_of_eq_some hh)
    rw [(fundingHeight_lowered hfollows hdetected hfunds).1] at hh
    obtain ⟨-, hat⟩ := hfollows.funded h hh
    rcases at_lowered hat with ⟨tx, htx, hid⟩ | hbelow
    · refine absurd ⟨tx, hcovers.complete tx htx (.inl ?_), hid⟩ hfunds
      rw [show E.txid tx = fo.txid from hid]
      exact hfollows.watched
    · exact hbelow
  · intro h hh
    rw [closingHeight_lowered hfollows hdetected] at hh
    by_cases hclosed : s.fundingHeight.isSome = true ∧ ∃ tx ∈ txs, Spends tx fo
    · rw [if_pos hclosed] at hh
      cases hh
    · rw [if_neg hclosed] at hh
      obtain ⟨-, hat, hfunded, hseen⟩ := hfollows.closed h hh
      rcases at_lowered hat with hspends | ⟨hle, hat⟩
      · exact absurd ⟨hfunded, hcovers.spends hseen hspends⟩ hclosed
      · have hfunds : ¬ ∃ tx ∈ txs, Funds E fo tx := by
          rintro ⟨tx, htx, hid⟩
          exact hvalid.not_spent_below hfollows.notNull (hcovers.sublist.subset htx) hid hat
        refine ⟨hle, hat, ?_, ?_⟩
        · rw [(fundingHeight_lowered hfollows hdetected hfunds).1]
          exact hfunded
        · exact Finset.mem_sdiff.mpr ⟨hseen, fun h => hclosed (hspent.mp (mem_toFinset.mp h))⟩
  · intro hfunded
    obtain ⟨hfunds, hfunded⟩ := funded_of_lowered hfollows hdetected hfunded
    have hnot : fo ∉ (confirmed changes).toFinset := fun h =>
      hfunds (hconfirmed.mp (mem_toFinset.mp h)).2
    by_cases hclosed : fo ∈ spent changes
    · exact .inl (Finset.mem_sdiff.mpr
        ⟨Finset.mem_union_right _ (mem_toFinset.mpr hclosed), hnot⟩)
    · rcases hfollows.watching hfunded with hwatched | ⟨hseen, hat⟩
      · exact .inl (Finset.mem_sdiff.mpr ⟨Finset.mem_union_left _ hwatched, hnot⟩)
      · rcases exists_at_cons.mp hat with hspends | hat
        · exact absurd (hspent.mpr ⟨hfunded, hcovers.spends hseen hspends⟩) hclosed
        · exact .inr ⟨Finset.mem_sdiff.mpr ⟨hseen, fun h => hclosed (mem_toFinset.mp h)⟩,
            hat⟩
  · intro hwatched
    obtain ⟨hwatched, hnot⟩ := Finset.mem_sdiff.mp hwatched
    have hfunds : ¬ ∃ tx ∈ txs, Funds E fo tx := fun h =>
      hnot (mem_toFinset.mpr (hconfirmed.mpr ⟨rfl, h⟩))
    rw [(fundingHeight_lowered hfollows hdetected hfunds).1]
    rcases Finset.mem_union.mp hwatched with hwatched | hclosed
    · exact hfollows.onlyFunded hwatched
    · exact (hspent.mp (mem_toFinset.mp hclosed)).1

/-- A monitor that notices the removal of every block knows the funding of its channel. -/
theorem KnowsFunding.remove (hsub : txs.Sublist body) (hdetected : s.Detected E.txid txs changes)
    (h : KnowsFunding E fo (body :: chain) s) : KnowsFunding E fo chain (lowered s changes) := by
  intro hnone depth hat
  by_cases hfunds : ∃ tx ∈ txs, Funds E fo tx
  · obtain ⟨tx, htx, hid⟩ := hfunds
    exact hvalid.not_funded_below (hsub.subset htx) hid hat
  · rw [(fundingHeight_lowered hfollows hdetected hfunds).1] at hnone
    exact h hnone (depth + 1) (at_succ.mpr hat)

/-- A monitor that notices the removal of every block knows the closing of its channel. -/
theorem KnowsClosing.remove (hsub : txs.Sublist body) (hdetected : s.Detected E.txid txs changes)
    (h : KnowsClosing fo (body :: chain) s) : KnowsClosing fo chain (lowered s changes) := by
  intro hfunded hopen depth hat
  obtain ⟨-, hfunded⟩ := funded_of_lowered hfollows hdetected hfunded
  rw [closingHeight_lowered hfollows hdetected] at hopen
  by_cases hclosed : s.fundingHeight.isSome = true ∧ ∃ tx ∈ txs, Spends tx fo
  · obtain ⟨-, tx, htx, hspends⟩ := hclosed
    obtain ⟨tx', htx', hspends'⟩ := exists_at.mp ⟨depth, hat⟩
    exact hvalid.unspent hfollows.notNull (hsub.subset htx) hspends htx' hspends'
  · rw [if_neg hclosed] at hopen
    exact h hfunded hopen (depth + 1) (at_succ.mpr hat)

end ChainTracker

end ValidatingSigner
