import Vls.Channel.Correctness.MutualClose

/-!
# Closes of any shape

A transaction handed in as a close may have any number of outputs, and the paths that come with it
any indices.  The request is answered unless the transaction has no outputs, an assignment that
meets the terms of a close comes with a path on which the wallet aborts, or the fee overflows a
build that checks for it.
-/

namespace ValidatingSigner

open Base Effect SimpleValidator PolicyFilter Sample

/-- The ways to give the outputs of a transaction to the holder and the counterparty, each with the
wallet path of the holder's output. -/
def outputAssignments : List TxOut → List (List Nat) → List ValidateArgs
  | [], [] => [⟨0, 0, none, none, []⟩]
  | [out], [path] =>
    [⟨out.value, 0, some out.scriptPubkey, none, path⟩,
      ⟨0, out.value, none, some out.scriptPubkey, []⟩]
  | [out0, out1], [path0, path1] =>
    [⟨out0.value, out1.value, some out0.scriptPubkey, some out1.scriptPubkey, path0⟩,
      ⟨out1.value, out0.value, some out1.scriptPubkey, some out0.scriptPubkey, path1⟩]
  | _, _ => []

namespace SimpleValidator

variable {ξ χ : Type} (v : SimpleValidator) (L : ClosingLibrary) (W : NodeWallet ξ χ)
  (setup : ChannelSetup) (e : EnforcementState)

/-- The fee of a close overflows a build that checks for it. -/
def FeeOverflows (args : ValidateArgs) : Prop :=
  (∃ holderInfo counterpartyInfo, CloseShape setup e args holderInfo counterpartyInfo) ∧
    args.toHolderValueSat + args.toCounterpartyValueSat ≤ setup.channelValueSat ∧
    v.overflow = .checked ∧
    2 ^ 64 ≤ (setup.channelValueSat -
      (args.toHolderValueSat + args.toCounterpartyValueSat)) * 1000 + 999

/-- The wallet aborts on the path of the holder's output of a close on acceptable terms. -/
def PathAborts (args : ValidateArgs) : Prop :=
  (∃ holderInfo counterpartyInfo, CloseTerms v L setup e args holderInfo counterpartyInfo) ∧
    args.holderScript ≠ none ∧ args.walletPath.length = W.style.getKeyPathLen ∧
    ¬ NormalPath args.walletPath

/-- Checking a close aborts. -/
def CloseAborts (args : ValidateArgs) : Prop :=
  v.FeeOverflows setup e args ∨ v.PathAborts L W setup e args

/-- Checking a transaction as a close does not abort: it has outputs, and no assignment that is
tried aborts. -/
def Answered (tx : Transaction) (opaths : List (List Nat)) : Prop :=
  opaths.length = tx.output.length → tx.output.length ≤ 2 → e.currentHolderCommitInfo ≠ none →
    e.currentCounterpartyCommitInfo ≠ none →
    tx.output ≠ [] ∧ ∀ likely unlikely, v.assignments e tx opaths = .ok (likely, unlikely) →
      ¬ v.CloseAborts L W setup e likely ∧
        (v.validateMutualCloseTx L W.toWallet setup e likely = .ok () ∨
          ¬ v.CloseAborts L W setup e unlikely)

section Aborts

variable {v L W setup e} {args : ValidateArgs}

theorem withFunction_eq_abort {α : Type} {function m : String} {r : Result α} :
    withFunction function r = .error (.abort m) ↔ r = .error (.abort m) := by
  rcases r with ((_ | _) | _) | _ <;> simp [withFunction]

/-- Checking the terms of a close aborts iff its fee overflows. -/
theorem validateCloseTerms_abort_iff (hfilter : v.policy.filter = .default) :
    (∃ m, v.validateCloseTerms L setup e args = .error (.abort m)) ↔
      v.FeeOverflows setup e args := by
  constructor
  · rintro ⟨m, h⟩
    have hrefusal : NoRefusal (v.validateCloseTerms L setup e args) := by
      rw [h]
      exact fun _ h => nomatch h
    obtain ⟨holderInfo, counterpartyInfo, hshape⟩ := exists_shape hfilter hrefusal
    rw [validateCloseTerms_of_shape hshape] at h
    rcases bind_eq_error.mp h with h | ⟨u, -, h⟩
    · exact ⟨⟨holderInfo, counterpartyInfo, hshape⟩,
        validateFee_abort_iff.mp ⟨m, withFunction_eq_abort.mp h⟩⟩
    · unfold checkCloseValues at h
      split_ifs at h
      all_goals
        rcases bind_eq_error.mp h with h | ⟨u, -, h⟩
        · exact absurd h policyErr_ne_abort
        · exact absurd h policyErr_ne_abort
  · rintro ⟨⟨holderInfo, counterpartyInfo, hshape⟩, hfee⟩
    obtain ⟨m, hm⟩ := validateFee_abort_iff.mpr hfee
    rw [validateCloseTerms_of_shape hshape]
    exact ⟨m, bind_eq_error.mpr (.inl (withFunction_eq_abort.mpr hm))⟩

/-- Checking the destination of a close aborts iff the wallet does. -/
theorem validateCloseDestination_abort_iff (hW : W.library.Derives) :
    (∃ m, v.validateCloseDestination W.toWallet args = .error (.abort m)) ↔
      args.holderScript ≠ none ∧ args.walletPath.length = W.style.getKeyPathLen ∧
        ¬ NormalPath args.walletPath := by
  unfold validateCloseDestination
  cases hscript : args.holderScript with
  | none => simp
  | some script =>
    have hcanSpend : (∃ m, W.canSpend args.walletPath script = .error (.abort m)) ↔ _ :=
      NodeWallet.canSpend_abort_iff hW
    rw [← hcanSpend]
    simp only [ne_eq, reduceCtorEq, not_false_eq_true, true_and]
    constructor
    · rintro ⟨m, h⟩
      rcases bind_eq_error.mp h with h | ⟨spendable, hspendable, h⟩
      · refine ⟨m, ?_⟩
        change orWalletError _ (W.canSpend args.walletPath script) = _ at h
        cases hcan : W.canSpend args.walletPath script with
        | ok b => rw [hcan] at h; cases h
        | error fault =>
          rw [hcan] at h
          cases fault with
          | refuse r => cases h
          | abort m' => exact h
      · have hpath := NodeWallet.normalPath_of_canSpend hW (orWalletError_eq_ok.mp hspendable)
        obtain ⟨allowed, hallowed⟩ : ∃ b, W.allowlistContains script args.walletPath = .ok b :=
          NodeWallet.exists_allowlistContains hW hpath
        split_ifs at h
        rcases bind_eq_error.mp h with h | ⟨b, -, h⟩
        · change Asserted.lift (W.allowlistContains script args.walletPath) = _ at h
          rw [hallowed] at h
          cases h
        · exact absurd h policyErr_ne_abort
    · rintro ⟨m, h⟩
      refine ⟨m, bind_eq_error.mpr (.inl ?_)⟩
      change orWalletError _ (W.canSpend args.walletPath script) = _
      rw [h]
      rfl

/-- Checking a close aborts iff its fee overflows or the wallet aborts. -/
theorem validateMutualCloseTx_abort_iff (hfilter : v.policy.filter = .default)
    (hW : W.library.Derives) :
    (∃ m, v.validateMutualCloseTx L W.toWallet setup e args = .error (.abort m)) ↔
      v.CloseAborts L W setup e args := by
  unfold CloseAborts PathAborts
  rw [← validateCloseTerms_abort_iff (L := L) hfilter, ← validateCloseDestination_abort_iff hW,
    ← validateCloseTerms_eq_ok (u := ()) hfilter]
  constructor
  · rintro ⟨m, h⟩
    rcases bind_eq_error.mp h with h | ⟨u, hterms, h⟩
    · exact .inl ⟨m, h⟩
    · exact .inr ⟨hterms, m, h⟩
  · rintro (⟨m, h⟩ | ⟨hterms, m, h⟩)
    · exact ⟨m, bind_eq_error.mpr (.inl h)⟩
    · exact ⟨m, bind_eq_error.mpr (.inr ⟨(), hterms, h⟩)⟩

end Aborts

/-! ## The assignments -/

section Assignments

variable {v L W setup e} {tx : Transaction} {opaths : List (List Nat)}

theorem assignments_of_nil (htx : tx.output = []) (hopaths : opaths = []) :
    v.assignments e tx opaths = .error (.abort "index out of bounds") := by
  unfold assignments
  rw [htx, hopaths]

/-- Exchanging the parties of a close does not change its transaction. -/
theorem builtTransaction_swap (hL : L.Lawful) (toHolder toCounterparty : Nat)
    (holderScript counterpartyScript : Script) (fundingOutpoint : OutPoint) :
    L.builtTransaction
        ⟨toHolder, toCounterparty, holderScript, counterpartyScript, fundingOutpoint⟩ =
      L.builtTransaction
        ⟨toCounterparty, toHolder, counterpartyScript, holderScript, fundingOutpoint⟩ :=
  hL.canonical _ _ rfl List.perm_append_comm

/-- The two closes of a transaction with one or two outputs are all there are, and both are built to
the same transaction. -/
theorem exists_assignments (hL : L.Lawful) (hlen : opaths.length = tx.output.length)
    (hne : tx.output ≠ []) (htwo : tx.output.length ≤ 2) (fundingOutpoint : OutPoint) :
    ∃ likely unlikely, v.assignments e tx opaths = .ok (likely, unlikely) ∧
      (∀ a, a ∈ outputAssignments tx.output opaths ↔ a = likely ∨ a = unlikely) ∧
      L.builtTransaction (likely.closing fundingOutpoint) =
        L.builtTransaction (unlikely.closing fundingOutpoint) := by
  unfold assignments
  rcases hout : tx.output with _ | ⟨out0, _ | ⟨out1, _ | ⟨out2, outs⟩⟩⟩
  · exact absurd hout hne
  · rw [hout] at hlen
    obtain ⟨path, rfl⟩ := List.length_eq_one_iff.mp hlen
    cases e.holderValueIsLarger v.policy.epsilonSat
    · refine ⟨_, _, rfl, fun a => by simp [outputAssignments, or_comm], ?_⟩
      exact builtTransaction_swap hL _ _ _ _ _
    · refine ⟨_, _, rfl, fun a => by simp [outputAssignments], ?_⟩
      exact builtTransaction_swap hL _ _ _ _ _
  · rw [hout] at hlen
    obtain ⟨path0, path1, rfl⟩ := List.length_eq_two.mp hlen
    cases e.holderValueIsLarger v.policy.epsilonSat
    · refine ⟨_, _, rfl, fun a => by simp [outputAssignments], ?_⟩
      exact builtTransaction_swap hL _ _ _ _ _
    · refine ⟨_, _, rfl, fun a => by simp [outputAssignments, or_comm], ?_⟩
      exact builtTransaction_swap hL _ _ _ _ _
  · rw [hout] at htwo
    simp at htwo

/-- There is no way to close with more than two outputs, or with paths for other outputs. -/
theorem outputAssignments_eq_nil
    (h : opaths.length ≠ tx.output.length ∨ 2 < tx.output.length) :
    outputAssignments tx.output opaths = [] := by
  unfold outputAssignments
  split <;> simp_all

end Assignments

/-! ## The answer -/

section Answer

variable {v L W setup e} {tx : Transaction} {opaths : List (List Nat)}
  {validate : ValidateArgs → Result Unit} {fundingOutpoint : OutPoint}

/-- A check of the whole transaction is answered exactly: it does not abort, and it accepts the
transaction iff some assignment passes and is built to the transaction. -/
def AnsweredExactly (L : ClosingLibrary) (validate : ValidateArgs → Result Unit)
    (fundingOutpoint : OutPoint) (tx : Transaction) (opaths : List (List Nat)) {α : Type}
    (r : Result α) : Prop :=
  (∀ m, r ≠ .error (.abort m)) ∧
    ((∃ a, r = .ok a) ↔ ∃ args ∈ outputAssignments tx.output opaths, validate args = .ok () ∧
      L.builtTransaction (args.closing fundingOutpoint) = tx)

/-- The transaction that some assignment is built to, checked against the one that is given. -/
def recompose (filter : PolicyFilter) (L : ClosingLibrary) (fundingOutpoint : OutPoint)
    (tx : Transaction) (args : ValidateArgs) : Result ClosingTransaction := do
  filter.policyErr (L.builtTransaction (args.closing fundingOutpoint) ≠ tx)
    "policy-onchain-format-standard" "decode_and_validate_mutual_close_tx" "recomposed tx mismatch"
  return args.closing fundingOutpoint

/-- With both commitments there, what is left is to try the assignments. -/
theorem decode_of_infos (hlen : opaths.length = tx.output.length) (htwo : tx.output.length ≤ 2)
    (hholder : e.currentHolderCommitInfo ≠ none)
    (hcounterparty : e.currentCounterpartyCommitInfo ≠ none) :
    v.decodeAndValidateMutualCloseTx L W.toWallet setup e tx opaths =
      (v.assignments e tx opaths >>= fun pair =>
        v.firstValid L W.toWallet setup e pair.1 pair.2 >>=
          recompose v.policy.filter L setup.fundingOutpoint tx) := by
  unfold decodeAndValidateMutualCloseTx
  rw [refuseIf_of_not (not_lt.mpr htwo), ok_bind,
    assert_eq_ok (u := ()) |>.mpr hlen, ok_bind,
    policyErr_of_not hholder, ok_bind, policyErr_of_not hcounterparty,
    ok_bind]
  rfl

/-- A transaction is compared with what the assignment that passed is built to. -/
theorem answered_recompose (hfilter : v.policy.filter = .default)
    {likely unlikely args : ValidateArgs}
    (hassign : ∀ a, a ∈ outputAssignments tx.output opaths ↔ a = likely ∨ a = unlikely)
    (hbuilt : L.builtTransaction (likely.closing fundingOutpoint) =
      L.builtTransaction (unlikely.closing fundingOutpoint))
    (hargs : args = likely ∨ args = unlikely) (hvalid : validate args = .ok ()) :
    AnsweredExactly L validate fundingOutpoint tx opaths
      (recompose v.policy.filter L fundingOutpoint tx args) := by
  have hsame : ∀ a, a = likely ∨ a = unlikely →
      L.builtTransaction (a.closing fundingOutpoint) =
        L.builtTransaction (likely.closing fundingOutpoint) := by
    rintro a (rfl | rfl)
    · rfl
    · exact hbuilt.symm
  refine ⟨fun m h => ?_, ?_⟩
  · rcases bind_eq_error.mp h with h | ⟨u, -, h⟩
    · exact absurd h policyErr_ne_abort
    · cases h
  · constructor
    · rintro ⟨closing, h⟩
      obtain ⟨u, hcheck, -⟩ := bind_ok h
      rw [hfilter, default_policyErr_eq_ok, not_not] at hcheck
      exact ⟨args, (hassign args).mpr hargs, hvalid, hcheck⟩
    · rintro ⟨a, hmem, -, ha⟩
      have hargs : L.builtTransaction (args.closing fundingOutpoint) = tx := by
        rw [hsame args hargs, ← hsame a ((hassign a).mp hmem), ha]
      exact ⟨args.closing fundingOutpoint,
        bind_eq_ok.mpr ⟨(), policyErr_of_not (not_not.mpr hargs), rfl⟩⟩

/-- A refusal is an exact answer when no assignment passes. -/
theorem answered_refuse {α : Type} {r : Result α} (hr : ∃ refusal, r = .error (.refuse refusal))
    (h : ∀ args ∈ outputAssignments tx.output opaths, validate args ≠ .ok ()) :
    AnsweredExactly L validate fundingOutpoint tx opaths r := by
  obtain ⟨refusal, rfl⟩ := hr
  refine ⟨fun m => nofun, ?_⟩
  constructor
  · rintro ⟨a, ha⟩
    cases ha
  · rintro ⟨args, hmem, hvalid, -⟩
    exact absurd hvalid (h args hmem)

theorem not_answered_abort {α : Type} {r : Result α} {m : String} (hr : r = .error (.abort m)) :
    ¬ AnsweredExactly L validate fundingOutpoint tx opaths r := fun h => h.1 m hr

/-- With both commitments there and outputs to assign, the answer is exact iff no assignment that is
tried aborts. -/
theorem answered_assignments_iff (hfilter : v.policy.filter = .default) (hW : W.library.Derives)
    {likely unlikely : ValidateArgs}
    (hassign : ∀ a, a ∈ outputAssignments tx.output opaths ↔ a = likely ∨ a = unlikely)
    (hbuilt : L.builtTransaction (likely.closing setup.fundingOutpoint) =
      L.builtTransaction (unlikely.closing setup.fundingOutpoint)) :
    AnsweredExactly L (v.validateMutualCloseTx L W.toWallet setup e) setup.fundingOutpoint tx opaths
        (v.firstValid L W.toWallet setup e likely unlikely >>=
          recompose v.policy.filter L setup.fundingOutpoint tx) ↔
      ¬ v.CloseAborts L W setup e likely ∧
        (v.validateMutualCloseTx L W.toWallet setup e likely = .ok () ∨
          ¬ v.CloseAborts L W setup e unlikely) := by
  rw [← validateMutualCloseTx_abort_iff hfilter hW, ← validateMutualCloseTx_abort_iff hfilter hW]
  unfold firstValid
  rcases hlikely : v.validateMutualCloseTx L W.toWallet setup e likely with (r | m) | ⟨⟨⟩⟩
  · rcases hunlikely : v.validateMutualCloseTx L W.toWallet setup e unlikely with (r' | m) | ⟨⟨⟩⟩
    · refine iff_of_true (answered_refuse ⟨r, rfl⟩ ?_) (by simp)
      intro args hmem
      rcases (hassign args).mp hmem with rfl | rfl
      · simp [hlikely]
      · simp [hunlikely]
    · exact iff_of_false (not_answered_abort rfl) (by simp)
    · exact iff_of_true (answered_recompose hfilter hassign hbuilt (.inr rfl) hunlikely) (by simp)
  · exact iff_of_false (not_answered_abort rfl) (by simp)
  · exact iff_of_true (answered_recompose hfilter hassign hbuilt (.inl rfl) hlikely) (by simp)

/-- A transaction with too many outputs is refused, and so is one while a commitment is missing. -/
theorem decode_refused (hfilter : v.policy.filter = .default)
    (hlen : opaths.length = tx.output.length)
    (h : ¬ (tx.output.length ≤ 2 ∧ e.currentHolderCommitInfo ≠ none ∧
      e.currentCounterpartyCommitInfo ≠ none)) :
    ∃ refusal, v.decodeAndValidateMutualCloseTx L W.toWallet setup e tx opaths =
      .error (.refuse refusal) := by
  unfold decodeAndValidateMutualCloseTx
  by_cases htwo : tx.output.length ≤ 2
  swap
  · rw [refuseIf, if_pos (not_le.mp htwo)]
    exact ⟨_, rfl⟩
  rw [refuseIf_of_not (not_lt.mpr htwo), ok_bind, assert_eq_ok (u := ()) |>.mpr hlen, ok_bind,
    hfilter]
  by_cases hholder : e.currentHolderCommitInfo = none
  · rw [policyErr, if_pos hholder]
    exact ⟨_, rfl⟩
  rw [policyErr_of_not hholder, ok_bind]
  have hcounterparty : e.currentCounterpartyCommitInfo = none := by
    by_contra hsome
    exact h ⟨htwo, hholder, hsome⟩
  rw [policyErr, if_pos hcounterparty]
  exact ⟨_, rfl⟩

/-- A transaction with a path for every output is answered exactly iff the answer does not abort. -/
theorem answered_decode_iff (hfilter : v.policy.filter = .default) (hL : L.Lawful)
    (hW : W.library.Derives) (hlen : opaths.length = tx.output.length) :
    AnsweredExactly L (v.validateMutualCloseTx L W.toWallet setup e) setup.fundingOutpoint tx opaths
        (v.decodeAndValidateMutualCloseTx L W.toWallet setup e tx opaths) ↔
      v.Answered L W setup e tx opaths := by
  by_cases hready : tx.output.length ≤ 2 ∧ e.currentHolderCommitInfo ≠ none ∧
      e.currentCounterpartyCommitInfo ≠ none
  swap
  · refine iff_of_true (answered_refuse (decode_refused hfilter hlen hready) ?_)
      fun _ htwo hholder hcounterparty => absurd ⟨htwo, hholder, hcounterparty⟩ hready
    intro args hmem hvalid
    by_cases htwo : tx.output.length ≤ 2
    · obtain ⟨u, hterms, -⟩ := bind_ok hvalid
      obtain ⟨holder, counterparty, hterms⟩ := (validateCloseTerms_eq_ok hfilter).mp hterms
      exact hready ⟨htwo, by rw [hterms.holder]; simp, by rw [hterms.counterparty]; simp⟩
    · rw [outputAssignments_eq_nil (.inr (not_le.mp htwo))] at hmem
      exact absurd hmem List.not_mem_nil
  obtain ⟨htwo, hholder, hcounterparty⟩ := hready
  rw [decode_of_infos hlen htwo hholder hcounterparty]
  by_cases hnil : tx.output = []
  · have hopaths : opaths = [] := List.length_eq_zero_iff.mp (by rw [hlen, hnil]; rfl)
    rw [assignments_of_nil hnil hopaths]
    exact iff_of_false (not_answered_abort rfl)
      fun h => (h hlen htwo hholder hcounterparty).1 hnil
  · obtain ⟨likely, unlikely, hpair, hassign, hbuilt⟩ :=
      exists_assignments (v := v) (e := e) hL hlen hnil htwo setup.fundingOutpoint
    rw [hpair, ok_bind, answered_assignments_iff hfilter hW hassign hbuilt]
    constructor
    · rintro h - - - -
      refine ⟨hnil, fun likely' unlikely' hpair' => ?_⟩
      obtain ⟨rfl, rfl⟩ := Prod.mk.inj (Except.ok.inj (hpair'.symm.trans hpair))
      exact h
    · exact fun h => (h hlen htwo hholder hcounterparty).2 likely unlikely hpair

end Answer

end SimpleValidator

/-- A request to sign a transaction as a close is answered, and accepted exactly when an assignment
of its outputs passes and is built to it, iff the transaction has outputs and no assignment that is
tried aborts. -/
theorem mutual_close_robust_iff {ξ χ : Type} {ch : Channel} {v : SimpleValidator}
    {L : ClosingLibrary} {W : NodeWallet ξ χ} (hcloses : ClosesWith ch v L W.toWallet)
    (hfilter : v.policy.filter = .default) (hL : L.Lawful) (hW : W.library.Derives)
    {call : Call} (hpersist : call.persistOk = true)
    (hsigns : ∀ closing, ∃ sig, ch.keys.signClosingTransaction closing = some sig)
    (s : Session) (tx : Transaction) (opaths : List (List Nat)) :
    AnsweredExactly L (v.validateMutualCloseTx L W.toWallet ch.setup s.estate)
        ch.setup.fundingOutpoint tx opaths (exec (ch.signMutualCloseTx call tx opaths) s).1 ↔
      v.Answered L W ch.setup s.estate tx opaths := by
  rw [fst_exec_signMutualCloseTx, hcloses.decode]
  by_cases hlen : opaths.length = tx.output.length
  swap
  · have hne := hlen
    rw [refuseIf, if_pos hne]
    refine iff_of_true (answered_refuse ⟨_, rfl⟩ ?_) fun h => absurd h hlen
    rw [outputAssignments_eq_nil (.inl hlen)]
    exact fun args hmem => absurd hmem List.not_mem_nil
  rw [refuseIf_of_not (not_not.mpr hlen), ok_bind, ← answered_decode_iff hfilter hL hW hlen]
  have hfinish : ∀ closing, ∃ signed,
      (orFailed "failed to sign" (ch.keys.signClosingTransaction closing) >>= fun sig =>
        closeStored call ⟨closing, sig⟩) = .ok signed := by
    intro closing
    obtain ⟨sig, hsig⟩ := hsigns closing
    exact ⟨⟨closing, sig⟩, bind_eq_ok.mpr ⟨sig, by rw [hsig]; rfl,
      closeStored_eq_ok.mpr ⟨hpersist, rfl⟩⟩⟩
  refine and_congr (forall_congr' fun m => not_congr ?_) (iff_congr ?_ Iff.rfl)
  · rw [bind_eq_error]
    refine or_iff_left ?_
    rintro ⟨closing, -, h⟩
    obtain ⟨signed, hsigned⟩ := hfinish closing
    rw [hsigned] at h
    cases h
  · constructor
    · rintro ⟨signed, h⟩
      obtain ⟨closing, hclosing, -⟩ := bind_ok h
      exact ⟨closing, hclosing⟩
    · rintro ⟨closing, hclosing⟩
      obtain ⟨signed, hsigned⟩ := hfinish closing
      exact ⟨signed, bind_eq_ok.mpr ⟨closing, hclosing, hsigned⟩⟩

namespace Sample

/-- A wallet with one key, which pays the script of one byte. -/
def nodeWallet : NodeWallet Unit Unit where
  library := ⟨fun _ _ => .ok (), fun _ => ⟨0⟩, fun _ _ => .ok ⟨0⟩, fun _ => [1], fun _ => [2],
    fun _ => [3]⟩
  style := .native
  accountKey := ()
  allowlist := []

/-- The channel with the checks on closes and this wallet. -/
def walletChannel (o : Overflow) : Channel :=
  { channel o with
    validator := ((validator o).withCloses closingLibrary nodeWallet.toWallet).toValidator }

/-- A close with some outputs. -/
def closingTx (output : List TxOut) : Transaction := ⟨2, 0, [⟨⟨0, 0⟩, [], 2 ^ 32 - 1, []⟩], output⟩

end Sample

/-- A close that pays the holder is answered exactly. -/
theorem mutual_close_robust_iff_paying :
    nodeWallet.library.Derives ∧
      AnsweredExactly closingLibrary
        ((validator .wrapping).validateMutualCloseTx closingLibrary
          nodeWallet.toWallet setup closingSession.estate)
        ⟨0, 0⟩ (closingTx [⟨999000, [1]⟩]) [[7]]
        (exec ((walletChannel .wrapping).signMutualCloseTx ⟨chain, true⟩
          (closingTx [⟨999000, [1]⟩]) [[7]]) closingSession).1 := by
  have hW : nodeWallet.library.Derives :=
    ⟨fun _ _ => ⟨(), rfl⟩, fun _ _ => ⟨⟨0⟩, rfl⟩⟩
  refine ⟨hW, ?_⟩
  refine (mutual_close_robust_iff (closesWith_of_eq (.inl rfl)) rfl closingLibrary_lawful hW
    rfl (fun _ => ⟨⟨1⟩, rfl⟩) closingSession _ _).mpr fun _ _ _ _ => ⟨by decide, ?_⟩
  intro likely unlikely hpair
  have hvalid : (validator .wrapping).validateMutualCloseTx closingLibrary
      nodeWallet.toWallet setup closingSession.estate likely = .ok () := by
    obtain ⟨rfl, -⟩ := Prod.mk.inj (Except.ok.inj hpair)
    decide +kernel
  refine ⟨fun haborts => ?_, .inl hvalid⟩
  obtain ⟨m, hm⟩ := (validateMutualCloseTx_abort_iff rfl hW).mpr haborts
  cases hvalid.symm.trans hm

/-- A close without outputs aborts the signer, and so does a path with a hardened index. -/
theorem mutual_close_aborts :
    (exec ((walletChannel .wrapping).signMutualCloseTx ⟨chain, true⟩
        (closingTx []) []) closingSession).1 =
      .error (.abort "index out of bounds") ∧
    (exec ((walletChannel .wrapping).signMutualCloseTx ⟨chain, true⟩
        (closingTx [⟨999000, [1]⟩]) [[2 ^ 31]]) closingSession).1 =
      .error (.abort unwrapMessage) := by
  constructor <;> decide +kernel

end ValidatingSigner
