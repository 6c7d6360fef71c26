import Vls.Chain.Detection

/-!
# Applying the changes of a block

The changes of a block are applied one by one, each with its own assertions.  Their combined effect
on the heights, and when all assertions hold, depends only on which confirmations, double spends and
closings the block contains.
-/

namespace ValidatingSigner

open Base

namespace Monitor

/-! ## What the changes contain -/

/-- The funding outpoints that are confirmed. -/
def confirmed : List StateChange → List OutPoint :=
  List.filterMap fun
    | .fundingConfirmed outpoint => some outpoint
    | _ => none

/-- The funding inputs that are spent. -/
def doubleSpent : List StateChange → List OutPoint :=
  List.filterMap fun
    | .fundingDoubleSpent outpoint => some outpoint
    | _ => none

/-- The closing transactions. -/
def closings : List StateChange → List Transaction :=
  List.filterMap fun
    | .closingConfirmed _ tx => some tx
    | _ => none

/-- The outpoints that need not be watched any more. -/
def spent : List StateChange → List OutPoint :=
  List.flatMap fun
    | .fundingConfirmed _ => []
    | .fundingDoubleSpent outpoint => [outpoint]
    | .closingConfirmed _ tx => tx.input.map TxIn.previousOutput

section Cons

variable (outpoint : OutPoint) (txid : Txid) (tx : Transaction) (changes : List StateChange)

@[simp] theorem confirmed_nil : confirmed [] = [] := rfl

@[simp] theorem confirmed_fundingConfirmed :
    confirmed (.fundingConfirmed outpoint :: changes) = outpoint :: confirmed changes := rfl

@[simp] theorem confirmed_fundingDoubleSpent :
    confirmed (.fundingDoubleSpent outpoint :: changes) = confirmed changes := rfl

@[simp] theorem confirmed_closingConfirmed :
    confirmed (.closingConfirmed txid tx :: changes) = confirmed changes := rfl

@[simp] theorem doubleSpent_nil : doubleSpent [] = [] := rfl

@[simp] theorem doubleSpent_fundingConfirmed :
    doubleSpent (.fundingConfirmed outpoint :: changes) = doubleSpent changes := rfl

@[simp] theorem doubleSpent_fundingDoubleSpent :
    doubleSpent (.fundingDoubleSpent outpoint :: changes) = outpoint :: doubleSpent changes := rfl

@[simp] theorem doubleSpent_closingConfirmed :
    doubleSpent (.closingConfirmed txid tx :: changes) = doubleSpent changes := rfl

@[simp] theorem closings_nil : closings [] = [] := rfl

@[simp] theorem closings_fundingConfirmed :
    closings (.fundingConfirmed outpoint :: changes) = closings changes := rfl

@[simp] theorem closings_fundingDoubleSpent :
    closings (.fundingDoubleSpent outpoint :: changes) = closings changes := rfl

@[simp] theorem closings_closingConfirmed :
    closings (.closingConfirmed txid tx :: changes) = tx :: closings changes := rfl

end Cons

/-- Whether the changes of a block contain a confirmation. -/
def haveFundingConfirmed (changes : List StateChange) : Bool := !(confirmed changes).isEmpty

theorem any_isFundingConfirmed (changes : List StateChange) :
    changes.any StateChange.isFundingConfirmed = haveFundingConfirmed changes := by
  induction changes with
  | nil => rfl
  | cons change changes ih =>
    rw [List.any_cons, ih]
    cases change <;> simp [StateChange.isFundingConfirmed, haveFundingConfirmed]

theorem haveFundingConfirmed_of_ne_nil {changes : List StateChange} (h : confirmed changes ≠ []) :
    haveFundingConfirmed changes = true := by
  rw [haveFundingConfirmed, List.isEmpty_eq_false_iff.mpr h]
  rfl

theorem mem_spent {changes : List StateChange} {outpoint : OutPoint} :
    outpoint ∈ spent changes ↔
      outpoint ∈ doubleSpent changes ∨ ∃ tx ∈ closings changes, Spends tx outpoint := by
  induction changes with
  | nil => simp [spent]
  | cons change changes ih =>
    have hspent : outpoint ∈ spent (change :: changes) ↔
        outpoint ∈ spent [change] ∨ outpoint ∈ spent changes := by
      simp [spent]
    rw [hspent, ih]
    cases change with
    | fundingConfirmed o => simp [spent]
    | fundingDoubleSpent o => simp [spent, or_assoc]
    | closingConfirmed txid tx => simp [spent, Spends, or_left_comm]

/-- The input of a closing transaction is handed back when it is the only one. -/
theorem closingInput_bind_eq_ok {s : State} {tx : Transaction} {r : Applied} (txid : Txid) :
    (closingInput tx >>= fun input => pure (s, [], [input])) = .ok r ↔
      tx.input.length = 1 ∧ r = (s, [], spent [.closingConfirmed txid tx]) := by
  unfold closingInput
  rcases hinput : tx.input with _ | ⟨input, _ | ⟨next, rest⟩⟩ <;>
    simp [spent, hinput, @eq_comm _ r]

namespace State

/-! ## Applying changes one by one -/

variable {s : State} {haveFunding : Bool} {changes : List StateChange} {r : Applied}

/-- Every change meets its assertion when it is applied. -/
def Guarded (guard : State → StateChange → Prop) (next : State → StateChange → State) :
    State → List StateChange → Prop
  | _, [] => True
  | s, change :: changes => guard s change ∧ Guarded guard next (next s change) changes

/-- Changes that are applied under a guard are applied in turn. -/
theorem applyChanges_eq_ok {apply : State → StateChange → Asserted Applied}
    {guard : State → StateChange → Prop} {next : State → StateChange → State}
    (happly : ∀ s change r, apply s change = .ok r ↔
      guard s change ∧ r = (next s change, confirmed [change], spent [change])) :
    s.applyChanges apply changes = .ok r ↔
      Guarded guard next s changes ∧
        r = (changes.foldl next s, confirmed changes, spent changes) := by
  induction changes generalizing s r with
  | nil => simp [applyChanges, Guarded, spent, @eq_comm _ r]
  | cons change changes ih =>
    have hconfirmed : confirmed (change :: changes) = confirmed [change] ++ confirmed changes := by
      cases change <;> rfl
    have hspent : spent (change :: changes) = spent [change] ++ spent changes := by
      simp [spent]
    rw [applyChanges, bind_eq_ok, Guarded, List.foldl_cons, hconfirmed, hspent]
    constructor
    · rintro ⟨⟨s₁, adds, removes⟩, hchange, hrest⟩
      obtain ⟨⟨s₂, adds', removes'⟩, hchanges, hr⟩ := bind_ok hrest
      obtain ⟨hguard, heq⟩ := (happly _ _ _).mp hchange
      obtain ⟨rfl, rfl, rfl⟩ := by simpa only [Prod.mk.injEq] using heq
      obtain ⟨hguards, heq'⟩ := ih.mp hchanges
      obtain ⟨rfl, rfl, rfl⟩ := by simpa only [Prod.mk.injEq] using heq'
      exact ⟨⟨hguard, hguards⟩, (pure_eq_ok.mp hr).symm⟩
    · rintro ⟨⟨hguard, hguards⟩, rfl⟩
      exact ⟨_, (happly _ _ _).mpr ⟨hguard, rfl⟩, bind_eq_ok.mpr ⟨_, ih.mpr ⟨hguards, rfl⟩, rfl⟩⟩

/-! ## Added blocks -/

/-- The assertion on a change of an added block. -/
def addGuard (haveFunding : Bool) (s : State) : StateChange → Prop
  | .fundingConfirmed _ => s.fundingDoubleSpentHeight = none
  | .fundingDoubleSpent _ => haveFunding = false → s.fundingHeight = none
  | .closingConfirmed _ tx => tx.input.length = 1

/-- The state after a change of an added block. -/
def addNext (haveFunding : Bool) (s : State) : StateChange → State
  | .fundingConfirmed outpoint =>
    { s with fundingHeight := some s.height, fundingOutpoint := some outpoint }
  | .fundingDoubleSpent _ =>
    if haveFunding then s
    else { s with fundingDoubleSpentHeight := some (s.fundingDoubleSpentHeight.getD s.height) }
  | .closingConfirmed _ _ => { s with closingHeight := some s.height }

theorem addChange_eq_ok (s : State) (change : StateChange) (r : Applied) :
    s.addChange haveFunding change = .ok r ↔ s.addGuard haveFunding change ∧
      r = (s.addNext haveFunding change, confirmed [change], spent [change]) := by
  cases change with
  | fundingConfirmed outpoint =>
    rw [addChange, bind_eq_ok]
    simp only [assert_eq_ok, pure_eq_ok, exists_const, @eq_comm _ r]
    rfl
  | fundingDoubleSpent outpoint =>
    cases haveFunding with
    | true => simp [addChange, addGuard, addNext, spent, @eq_comm _ r]
    | false =>
      simp only [addChange, Bool.false_eq_true, if_false, bind_eq_ok, assert_eq_ok, pure_eq_ok,
        exists_const, addGuard, true_implies, @eq_comm _ r]
      rfl
  | closingConfirmed txid tx =>
    rw [addChange, closingInput_bind_eq_ok txid]
    rfl

/-- The assertions of an added block hold. -/
@[mk_iff addSafe_iff] structure AddSafe (haveFunding : Bool) (s : State)
    (changes : List StateChange) : Prop where
  confirmed : confirmed changes ≠ [] → s.fundingDoubleSpentHeight = none
  doubleSpent : haveFunding = false → doubleSpent changes ≠ [] → s.fundingHeight = none
  closings : ∀ tx ∈ closings changes, tx.input.length = 1

/-- The state after the changes of an added block. -/
def added (haveFunding : Bool) (s : State) (changes : List StateChange) : State :=
  { s with
    fundingHeight := if (confirmed changes).isEmpty then s.fundingHeight else some s.height
    fundingOutpoint := (confirmed changes).getLast?.or s.fundingOutpoint
    fundingDoubleSpentHeight :=
      if haveFunding || (doubleSpent changes).isEmpty then s.fundingDoubleSpentHeight
      else some (s.fundingDoubleSpentHeight.getD s.height)
    closingHeight := if (closings changes).isEmpty then s.closingHeight else some s.height }

theorem foldl_addNext (s : State) :
    changes.foldl (addNext haveFunding) s = s.added haveFunding changes := by
  induction changes generalizing s with
  | nil => simp [added]
  | cons change changes ih =>
    rw [List.foldl_cons, ih]
    cases change with
    | fundingConfirmed outpoint =>
      simp [added, addNext, List.getLast?_cons]
    | fundingDoubleSpent outpoint =>
      cases haveFunding <;> simp [added, addNext]
    | closingConfirmed txid tx => simp [added, addNext]

theorem guarded_add (hhave : confirmed changes ≠ [] → haveFunding = true) (s : State) :
    Guarded (addGuard haveFunding) (addNext haveFunding) s changes ↔
      s.AddSafe haveFunding changes := by
  induction changes generalizing s with
  | nil => simp [Guarded, addSafe_iff]
  | cons change changes ih =>
    cases change with
    | fundingConfirmed outpoint =>
      obtain rfl : haveFunding = true := hhave (List.cons_ne_nil _ _)
      rw [Guarded, ih fun _ => rfl]
      simp [addSafe_iff, addGuard, addNext]
      tauto
    | fundingDoubleSpent outpoint =>
      rw [Guarded, ih hhave]
      cases haveFunding with
      | true => simp [addSafe_iff, addGuard, addNext]
      | false =>
        have hnone : confirmed changes = [] := not_not.mp fun h => nomatch hhave h
        simp [addSafe_iff, addGuard, addNext, hnone]
        tauto
    | closingConfirmed txid tx =>
      rw [Guarded, ih hhave]
      simp [addSafe_iff, addGuard, addNext]
      tauto

/-! ## Removed blocks -/

/-- The assertion on a change of a removed block. -/
def removeGuard (haveFunding : Bool) (s : State) : StateChange → Prop
  | .fundingConfirmed _ => s.fundingHeight = some s.height
  | .fundingDoubleSpent _ => haveFunding = false → s.fundingDoubleSpentHeight.isSome
  | .closingConfirmed _ tx => s.closingHeight = some s.height ∧ tx.input.length = 1

/-- The state after a change of a removed block. -/
def removeNext (haveFunding : Bool) (s : State) : StateChange → State
  | .fundingConfirmed _ => { s with fundingHeight := none, fundingOutpoint := none }
  | .fundingDoubleSpent _ =>
    if haveFunding then s
    else { s with fundingDoubleSpentHeight :=
      if s.fundingDoubleSpentHeight = some s.height then none else s.fundingDoubleSpentHeight }
  | .closingConfirmed _ _ => { s with closingHeight := none }

theorem removeChange_eq_ok (s : State) (change : StateChange) (r : Applied) :
    s.removeChange haveFunding change = .ok r ↔ s.removeGuard haveFunding change ∧
      r = (s.removeNext haveFunding change, confirmed [change], spent [change]) := by
  cases change with
  | fundingConfirmed outpoint =>
    rw [removeChange, bind_eq_ok]
    simp only [assert_eq_ok, pure_eq_ok, exists_const, @eq_comm _ r]
    rfl
  | fundingDoubleSpent outpoint =>
    cases haveFunding with
    | true => simp [removeChange, removeGuard, removeNext, spent, @eq_comm _ r]
    | false =>
      simp only [removeChange, Bool.false_eq_true, if_false, bind_eq_ok, assert_eq_ok, pure_eq_ok,
        exists_const, removeGuard, true_implies, @eq_comm _ r]
      rfl
  | closingConfirmed txid tx =>
    rw [removeChange, bind_eq_ok]
    simp only [assert_eq_ok, exists_const, closingInput_bind_eq_ok txid, ← and_assoc]
    rfl

/-- The assertions of a removed block hold. -/
@[mk_iff removeSafe_iff] structure RemoveSafe (haveFunding : Bool) (s : State)
    (changes : List StateChange) : Prop where
  confirmed : confirmed changes ≠ [] →
    s.fundingHeight = some s.height ∧ (confirmed changes).length = 1
  doubleSpent : haveFunding = false → doubleSpent changes ≠ [] →
    s.fundingDoubleSpentHeight.isSome ∧
      (s.fundingDoubleSpentHeight = some s.height → (doubleSpent changes).length = 1)
  closed : closings changes ≠ [] →
    s.closingHeight = some s.height ∧ (closings changes).length = 1
  closings : ∀ tx ∈ closings changes, tx.input.length = 1

/-- The state after the changes of a removed block, at the height of the block. -/
def removed (haveFunding : Bool) (s : State) (changes : List StateChange) : State :=
  { s with
    fundingHeight := if (confirmed changes).isEmpty then s.fundingHeight else none
    fundingOutpoint := if (confirmed changes).isEmpty then s.fundingOutpoint else none
    fundingDoubleSpentHeight :=
      if haveFunding || (doubleSpent changes).isEmpty then s.fundingDoubleSpentHeight
      else if s.fundingDoubleSpentHeight = some s.height then none else s.fundingDoubleSpentHeight
    closingHeight := if (closings changes).isEmpty then s.closingHeight else none }

theorem foldl_removeNext (s : State) :
    changes.foldl (removeNext haveFunding) s = s.removed haveFunding changes := by
  induction changes generalizing s with
  | nil => simp [removed]
  | cons change changes ih =>
    rw [List.foldl_cons, ih]
    cases change with
    | fundingConfirmed outpoint =>
      simp [removed, removeNext]
      rfl
    | fundingDoubleSpent outpoint =>
      cases haveFunding with
      | true => rfl
      | false =>
        by_cases hheight : s.fundingDoubleSpentHeight = some s.height <;>
          simp [removed, removeNext, hheight]
    | closingConfirmed txid tx =>
      simp [removed, removeNext]
      rfl

theorem guarded_remove (hhave : confirmed changes ≠ [] → haveFunding = true) (s : State) :
    Guarded (removeGuard haveFunding) (removeNext haveFunding) s changes ↔
      s.RemoveSafe haveFunding changes := by
  induction changes generalizing s with
  | nil => simp [Guarded, removeSafe_iff]
  | cons change changes ih =>
    cases change with
    | fundingConfirmed outpoint =>
      obtain rfl : haveFunding = true := hhave (List.cons_ne_nil _ _)
      rw [Guarded, ih fun _ => rfl]
      simp [removeSafe_iff, removeGuard, removeNext]
      tauto
    | fundingDoubleSpent outpoint =>
      rw [Guarded, ih hhave]
      cases haveFunding with
      | true => simp [removeSafe_iff, removeGuard, removeNext]
      | false =>
        have hnone : confirmed changes = [] := not_not.mp fun h => nomatch hhave h
        by_cases hheight : s.fundingDoubleSpentHeight = some s.height
        · simp [removeSafe_iff, removeGuard, removeNext, hnone, hheight]
        · simp [removeSafe_iff, removeGuard, removeNext, hnone, hheight]
          tauto
    | closingConfirmed txid tx =>
      rw [Guarded, ih hhave]
      simp [removeSafe_iff, removeGuard, removeNext]
      tauto

/-! ## The end of a block -/

variable {d : BlockDecodeState} {o : Overflow} {hash : BlockHash}

/-- A block is added once it has been read: the changes are applied one block higher. -/
theorem onAddBlockEnd_eq_ok (hd : s.decodeState = some d) :
    s.onAddBlockEnd o hash = .ok r ↔ d.blockHash = hash ∧
      s.AddSafe (haveFundingConfirmed d.changes) d.changes ∧
      ∃ height, (o.u32 (s.height + 1) : Asserted Nat) = .ok height ∧
        r = (({ s with decodeState := none, sawBlock := true, height := height } : State).added
          (haveFundingConfirmed d.changes) d.changes, confirmed d.changes, spent d.changes) := by
  rw [onAddBlockEnd, isNotReadyForPush_eq_false hd]
  simp only [Bool.false_eq_true, if_false, bind_eq_ok, expect_eq_ok, assert_eq_ok, exists_const, hd,
    Option.some.injEq, exists_eq_left', any_isFundingConfirmed,
    applyChanges_eq_ok addChange_eq_ok, guarded_add haveFundingConfirmed_of_ne_nil, foldl_addNext]
  constructor
  · rintro ⟨hhash, height, hheight, hsafe, rfl⟩
    exact ⟨hhash, ⟨hsafe.1, hsafe.2, hsafe.3⟩, height, hheight, rfl⟩
  · rintro ⟨hhash, hsafe, height, hheight, rfl⟩
    exact ⟨hhash, height, hheight, ⟨hsafe.1, hsafe.2, hsafe.3⟩, rfl⟩

/-- A block is removed once it has been read: the changes are taken back, then the height. -/
theorem onRemoveBlockEnd_eq_ok (hd : s.decodeState = some d) :
    s.onRemoveBlockEnd o hash = .ok r ↔ d.blockHash = hash ∧
      s.RemoveSafe (haveFundingConfirmed d.changes) d.changes ∧
      ∃ height, (o.sub32 s.height 1 : Asserted Nat) = .ok height ∧
        r = ({ ({ s with decodeState := none } : State).removed
          (haveFundingConfirmed d.changes) d.changes with height := height },
          confirmed d.changes, spent d.changes) := by
  rw [onRemoveBlockEnd, isNotReadyForPush_eq_false hd]
  simp only [Bool.false_eq_true, if_false, bind_eq_ok, expect_eq_ok, assert_eq_ok, exists_const, hd,
    Option.some.injEq, exists_eq_left', any_isFundingConfirmed, pure_eq_ok,
    applyChanges_eq_ok removeChange_eq_ok, guarded_remove haveFundingConfirmed_of_ne_nil,
    foldl_removeNext]
  constructor
  · rintro ⟨hhash, _, ⟨hsafe, rfl⟩, height, hheight, rfl⟩
    exact ⟨hhash, ⟨hsafe.1, hsafe.2, hsafe.3, hsafe.4⟩, height, hheight, rfl⟩
  · rintro ⟨hhash, hsafe, height, hheight, rfl⟩
    exact ⟨hhash, _, ⟨⟨hsafe.1, hsafe.2, hsafe.3, hsafe.4⟩, rfl⟩, height, hheight, rfl⟩

end State

end Monitor

end ValidatingSigner
