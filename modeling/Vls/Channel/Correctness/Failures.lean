import Vls.Channel.Served

/-!
# Failed requests

A commitment request that is refused leaves the channel and the node as they were.  A refused
revocation does so too, unless it reveals the secret of the current commitment: that secret is kept
before the counter refuses to move.
-/

namespace ValidatingSigner

open Base Effect Overflow PolicyFilter Sample

/-! ## Commitments -/

/-- The request signs a counterparty commitment, accepts a holder commitment or signs the current
one. -/
def Request.IsCommitmentCall : Request → Prop
  | .signCounterpartyCommitmentTx _ _ _ _ _ _ _ => True
  | .signCounterpartyCommitmentTxPhase2 _ _ _ _ _ _ _ => True
  | .validateHolderCommitmentTx _ _ _ _ _ _ _ => True
  | .validateHolderCommitmentTxPhase2 _ _ _ _ _ _ _ => True
  | .signHolderCommitmentTxPhase2 _ => True
  | _ => False

/-- The request is refused because storing fails. -/
def Call.FailsToPersist (call : Call) (refusal : Refusal) : Prop :=
  call.persistOk = false ∧ refusal = internalError "persist failed"

section Refused

variable {α : Type} {call : Call} {s t : Session} {refusal : Refusal} {r : Result α}

theorem Ended.failsToPersist {before e : EnforcementState} {node : NodeState} {reply : α}
    (h : Ended call before e node reply r t) (hr : r = .error (.refuse refusal)) :
    call.FailsToPersist refusal := by
  cases h with
  | stored _ => cases hr
  | notStored hfailed => exact ⟨hfailed, (Fault.refuse.inj (Except.error.inj hr)).symm⟩

/-- A refused operation that writes only what it then stores has changed nothing, unless storing
fails. -/
theorem Outcome.unchanged {P : Result α → Session → Prop} (h : Outcome s P r t)
    (hr : r = .error (.refuse refusal)) (hpersist : ¬ call.FailsToPersist refusal)
    (hP : P r t → ∃ before e node reply, Ended call before e node reply r t) : t = s := by
  cases h with
  | failed _ => rfl
  | aborted _ _ _ => cases hr
  | ended h =>
    obtain ⟨before, e, node, reply, hended⟩ := hP h
    exact absurd (hended.failsToPersist hr) hpersist

theorem refused_of_map {β : Type} {f : α → β}
    (h : (Except.error (.refuse refusal) : Result β) = r.map f) : r = .error (.refuse refusal) := by
  cases r with
  | error fault => exact congrArg Except.error (Except.error.inj h).symm
  | ok a => cases h

end Refused

/-- A commitment request that is refused for any reason but a failure to store leaves the
enforcement state of the channel and the state of the node as they were. -/
theorem Channel.refused_commitment_call_frame (ch : Channel) (call : Call) (s t : Session)
    (request : Request) (hcall : request.IsCommitmentCall) (refusal : Refusal)
    (h : exec (ch.execute call request) s = (.error (.refuse refusal), t))
    (hpersist : ¬ call.FailsToPersist refusal) : t.estate = s.estate ∧ t.node = s.node := by
  suffices t = s from this ▸ ⟨rfl, rfl⟩
  cases request with
  | signCounterpartyCommitmentTx tx witscripts point n feerate offered received =>
    obtain ⟨r₀, hop, hr⟩ := exec_bind_pure h
    refine (signCounterpartyCommitmentTx_outcome (UInt64.toNat_lt n) hop).unchanged
      (refused_of_map hr) hpersist ?_
    rintro ⟨signed, update, e, node, -, -, hended⟩
    exact ⟨_, _, _, _, hended⟩
  | signCounterpartyCommitmentTxPhase2 point n feerate toHolder toCounterparty offered received =>
    obtain ⟨r₀, hop, hr⟩ := exec_bind_pure h
    refine (signCounterpartyCommitmentTxPhase2_outcome hop).unchanged
      (refused_of_map hr) hpersist ?_
    rintro ⟨signed, update, e, node, -, -, hended⟩
    exact ⟨_, _, _, _, hended⟩
  | validateHolderCommitmentTx tx witscripts n feerate offered received signatures =>
    obtain ⟨r₀, hop, hr⟩ := exec_bind_pure h
    refine (validateHolderCommitmentTx_outcome hop).unchanged (refused_of_map hr) hpersist ?_
    rintro ⟨update, -, nextPoint, secret, e, node, -, hended⟩
    exact ⟨_, _, _, _, hended⟩
  | validateHolderCommitmentTxPhase2 n feerate toHolder toCounterparty offered received
      signatures =>
    obtain ⟨r₀, hop, hr⟩ := exec_bind_pure h
    refine (validateHolderCommitmentTxPhase2_outcome hop).unchanged (refused_of_map hr) hpersist ?_
    rintro ⟨update, -, nextPoint, secret, e, node, -, hended⟩
    exact ⟨_, _, _, _, hended⟩
  | signHolderCommitmentTxPhase2 n =>
    obtain ⟨r₀, hop, hr⟩ := exec_bind_pure h
    refine (signHolderCommitmentTxPhase2_outcome hop).unchanged (refused_of_map hr) hpersist ?_
    rintro ⟨signed, -, hended⟩
    exact ⟨_, _, _, _, hended⟩
  | getPerCommitmentPoint n => exact hcall.elim
  | getPerCommitmentSecret n => exact hcall.elim
  | validateCounterpartyRevocation n secret => exact hcall.elim
  | signHolderCommitmentTxForRecovery => exact hcall.elim
  | signHolderCommitmentTxPhase2Redundant n feerate toHolder toCounterparty offered received =>
    exact hcall.elim
  | signMutualCloseTx tx opaths => exact hcall.elim
  | signMutualCloseTxPhase2 toHolder toCounterparty holderScript counterpartyScript path =>
    exact hcall.elim

/-- A counterparty commitment far ahead of the revocations is refused and changes nothing. -/
theorem Channel.refused_commitment_call_frame_sample :
    ∃ refusal t, exec ((channel .checked).execute ⟨chain, true⟩
        (signCounterparty 5 ⟨7⟩)) ⟨.new 999000, node, .new 999000⟩ =
      (.error (.refuse refusal), t) ∧
      t.estate = .new 999000 ∧ t.node = node := by
  refine ⟨_, _, rfl, ?_⟩
  exact refused_commitment_call_frame (channel .checked) ⟨chain, true⟩
    ⟨.new 999000, node, .new 999000⟩ _ (signCounterparty 5 ⟨7⟩) trivial _ rfl
    fun h => (nomatch h.1)

/-! ## Revocations -/

namespace Channel

variable {ch : Channel} {e : EnforcementState} {n : Nat} {secret : Bytes32}

/-- Storing a secret changes the state iff the secret is new to the store and chains in it. -/
theorem storeSecret_changed_iff (hn : n < 2 ^ 64) :
    (∃ e', ch.storeSecret e n secret = .ok e' ∧ e' ≠ e) ↔
      ∃ secrets, e.counterpartySecrets = some secrets ∧ n ≤ INITIAL_COMMITMENT_NUMBER ∧
        secrets.Chains ch.library.sha256 (INITIAL_COMMITMENT_NUMBER - n) secret ∧
        INITIAL_COMMITMENT_NUMBER - n < secrets.getMinSeenSecret := by
  unfold storeSecret
  cases hsecrets : e.counterpartySecrets with
  | none =>
    constructor
    · rintro ⟨e', h, hne⟩
      exact absurd (Except.ok.inj h).symm hne
    · rintro ⟨secrets, h, -⟩
      cases h
  | some secrets =>
    constructor
    · rintro ⟨e', hstore, hne⟩
      obtain ⟨index, hindex, h⟩ := bind_ok hstore
      cases hprovide : secrets.provideSecret ch.library.sha256 index secret with
      | error u =>
        simp only [hprovide] at h
        obtain ⟨u, -, h⟩ := bind_ok h
        exact absurd (pure_eq_ok.mp h).symm hne
      | ok secrets' =>
        simp only [hprovide, Except.ok.injEq] at h
        have hchanged : secrets' ≠ secrets := by
          intro heq
          rw [heq, ← hsecrets] at h
          exact hne h.symm
        obtain ⟨hchains, hmin⟩ :=
          CounterpartyCommitmentSecrets.provideSecret_changed_iff.mp ⟨secrets', hprovide, hchanged⟩
        have hpow := secrets.getMinSeenSecret_le_pow
        have hmod := eq_mod_of_sub (by decide) hindex
        have hle : n ≤ INITIAL_COMMITMENT_NUMBER ∧ index = INITIAL_COMMITMENT_NUMBER - n := by
          unfold INITIAL_COMMITMENT_NUMBER at hmod ⊢
          omega
        obtain ⟨hle, rfl⟩ := hle
        exact ⟨secrets, rfl, hle, hchains, hmin⟩
    · rintro ⟨secrets₁, hsome, hle, hchains, hmin⟩
      cases hsome
      obtain ⟨secrets', hprovide, hchanged⟩ :=
        CounterpartyCommitmentSecrets.provideSecret_changed_iff.mpr ⟨hchains, hmin⟩
      refine ⟨{ e with counterpartySecrets := some secrets' }, ?_, fun heq => ?_⟩
      · refine bind_eq_ok.mpr ⟨INITIAL_COMMITMENT_NUMBER - n, ?_, ?_⟩
        · exact if_pos hle
        · simp only [hprovide]
      · have := congrArg EnforcementState.counterpartySecrets heq
        rw [hsecrets] at this
        exact hchanged (Option.some.inj this)

/-- The counter refuses to move past the current commitment. -/
theorem setNextCounterpartyRevokeNum_of_current {v : Validator} (hfilter : v.filter = .default)
    {num : Nat} (hword : num + 2 < 2 ^ 64) (hpos : num ≠ 0)
    (hcommit : num = e.nextCounterpartyCommitNum) :
    ∃ refusal, v.setNextCounterpartyRevokeNum e num = .error (.refuse refusal) := by
  obtain ⟨refusal, hrefused⟩ : ∃ refusal, v.filter.policyErr (num + 1 > e.nextCounterpartyCommitNum)
      "policy-commitment-previous-revoked" "set_next_counterparty_revoke_num"
      s!"{num} too large relative to next_counterparty_commit_num {e.nextCounterpartyCommitNum}" =
        .error (.refuse refusal) := by
    rw [hfilter, policyErr, if_pos (by omega)]
    exact ⟨_, rfl⟩
  refine ⟨refusal, bind_eq_error.mpr (.inr ⟨(), policyErr_of_not hpos, ?_⟩)⟩
  refine bind_eq_error.mpr (.inr ⟨_, u64_of_lt _ hword, ?_⟩)
  refine bind_eq_error.mpr (.inr ⟨(), policyErr_of_not (by omega), ?_⟩)
  refine bind_eq_error.mpr (.inr ⟨_, u64_of_lt _ (by omega), ?_⟩)
  exact bind_eq_error.mpr (.inl hrefused)

/-- The secret of the current counterparty commitment, which the store would keep. -/
structure Premature (ch : Channel) (v : SimpleValidator) (e : EnforcementState) (n : Nat)
    (secret : Bytes32) : Prop where
  inStep : e.nextCounterpartyRevokeNum = n ∨ e.nextCounterpartyRevokeNum = n + 1
  current : n + 1 = e.nextCounterpartyCommitNum
  point : e.currentCounterpartyPoint = some (v.library.publicKey secret)
  kept : ∃ secrets, e.counterpartySecrets = some secrets ∧ n ≤ INITIAL_COMMITMENT_NUMBER ∧
    secrets.Chains ch.library.sha256 (INITIAL_COMMITMENT_NUMBER - n) secret ∧
    INITIAL_COMMITMENT_NUMBER - n < secrets.getMinSeenSecret

/-- The revocation leaves the enforcement state as it was whenever it is refused, unless storing
fails. -/
def RevocationAtomic (ch : Channel) (e : EnforcementState) (n : Nat) (secret : Bytes32) : Prop :=
  ∀ call node stored refusal t,
    exec (ch.validateCounterpartyRevocation call n secret) ⟨e, node, stored⟩ =
      (.error (.refuse refusal), t) →
    ¬ call.FailsToPersist refusal → t.estate = e

/-- A premature secret passes the checks of the validator. -/
theorem Premature.validated {v : SimpleValidator} (h : ch.Premature v e n secret) :
    v.validateCounterpartyRevocation e n secret = .ok () := by
  obtain ⟨secrets, -, hle, -⟩ := h.kept
  unfold INITIAL_COMMITMENT_NUMBER at hle
  have hstep : outOfStep v.overflow n e.nextCounterpartyRevokeNum = .ok false := by
    unfold outOfStep
    rcases h.inStep with hnext | hnext
    · rw [if_pos hnext]
    · rw [if_neg (by omega)]
      exact bind_eq_ok.mpr ⟨_, u64_of_lt _ (by omega), by simp [hnext]⟩
  have hprevious : e.getPreviousCounterpartyPoint v.overflow n =
      .ok (some (v.library.publicKey secret)) := by
    refine bind_eq_ok.mpr ⟨_, u64_of_lt _ (by omega), ?_⟩
    rw [if_pos h.current, h.point]
    rfl
  refine bind_eq_ok.mpr ⟨_, hstep, bind_eq_ok.mpr ⟨(), ?_, bind_eq_ok.mpr ⟨_, hprevious, ?_⟩⟩⟩
  · exact policyErr_of_not (by simp)
  · exact policyErr_of_not (by simp)

/-- The remembered point of an earlier counterparty commitment is that of the current one or of the
one before. -/
theorem current_or_previous_of_point {o : Overflow} {point : PublicKey} (hn : n + 2 < 2 ^ 64)
    (h : e.getPreviousCounterpartyPoint o n = .ok (some point)) :
    (n + 1 = e.nextCounterpartyCommitNum ∧ e.currentCounterpartyPoint = some point) ∨
      n + 2 = e.nextCounterpartyCommitNum := by
  obtain ⟨one, hone, h⟩ := bind_ok h
  rw [eq_of_u64 hone (.inr (by omega))] at h
  by_cases hcurrent : n + 1 = e.nextCounterpartyCommitNum
  · rw [if_pos hcurrent] at h
    exact .inl ⟨hcurrent, pure_eq_ok.mp h⟩
  · rw [if_neg hcurrent] at h
    obtain ⟨two, htwo, h⟩ := bind_ok h
    rw [eq_of_u64 htwo (.inr hn)] at h
    by_cases hprevious : n + 2 = e.nextCounterpartyCommitNum
    · exact .inr hprevious
    · rw [if_neg hprevious] at h
      cases pure_eq_ok.mp h

/-- A revocation whose secret is kept before the counter refuses to move is premature. -/
theorem premature_of_refused {v : SimpleValidator} {e' : EnforcementState} {num : Nat}
    {refusal : Refusal} (hfilter : v.policy.filter = .default) (hn : n < 2 ^ 64)
    (hvalid : v.validateCounterpartyRevocation e n secret = .ok ())
    (hstore : ch.storeSecret e n secret = .ok e') (hne : e' ≠ e)
    (hnum : ch.overflow.u64 (n + 1) = (.ok num : Result Nat))
    (hset : ch.validator.setNextCounterpartyRevokeNum e' num = .error (.refuse refusal)) :
    ch.Premature v e n secret := by
  have hkept := (storeSecret_changed_iff hn).mp ⟨e', hstore, hne⟩
  obtain ⟨secrets, -, hle, -⟩ := id hkept
  unfold INITIAL_COMMITMENT_NUMBER at hle
  obtain ⟨hstep, hpoint⟩ := SimpleValidator.validateCounterpartyRevocation_ok hfilter hvalid
  rw [Nat.mod_eq_of_lt (by omega)] at hstep
  obtain rfl := eq_of_u64 hnum (.inr (by omega))
  rcases current_or_previous_of_point (by omega) hpoint with ⟨hcurrent, hpoint⟩ | hprevious
  · exact ⟨hstep, hcurrent, hpoint, hkept⟩
  · obtain ⟨hcommit, hrevoke⟩ : e'.nextCounterpartyCommitNum = e.nextCounterpartyCommitNum ∧
        e'.nextCounterpartyRevokeNum = e.nextCounterpartyRevokeNum := by
      obtain ⟨_, rfl⟩ := storeSecret_ok hstore
      exact ⟨rfl, rfl⟩
    rw [Validator.setNextCounterpartyRevokeNum_of_previous (by omega) (by omega) (by omega)
      (by omega)] at hset
    cases hset

/-- With the default filter a refused revocation leaves the enforcement state as it was iff it does
not reveal the secret of the current commitment. -/
theorem revocation_atomic_iff (ch : Channel) (v : SimpleValidator)
    (hv : ch.validator = v.toValidator ∨ ch.validator = v.onchain.toValidator)
    (hfilter : v.policy.filter = .default) (e : EnforcementState) (n : UInt64) (secret : Bytes32) :
    ch.RevocationAtomic e n.toNat secret ↔ ¬ ch.Premature v e n.toNat secret := by
  have hdefault : ch.validator.filter = .default := by
    rcases hv with hv | hv <;> rw [hv] <;> exact hfilter
  have hvalidate : ch.validator.validateCounterpartyRevocation =
      v.validateCounterpartyRevocation := by
    rcases hv with hv | hv <;> rw [hv] <;> rfl
  constructor
  · intro hatomic h
    obtain ⟨e', hstore, hne⟩ := (storeSecret_changed_iff n.toNat_lt).mpr h.kept
    obtain ⟨secrets, -, hle, -⟩ := h.kept
    unfold INITIAL_COMMITMENT_NUMBER at hle
    have hcommit : n.toNat + 1 = e'.nextCounterpartyCommitNum := by
      obtain ⟨_, rfl⟩ := storeSecret_ok hstore
      exact h.current
    obtain ⟨refusal, hset⟩ :=
      setNextCounterpartyRevokeNum_of_current hdefault (by omega) (Nat.succ_ne_zero _) hcommit
    refine hne (hatomic ⟨chain, true⟩ node e refusal ⟨e', node, e⟩ ?_
      fun h => (nomatch h.1))
    rw [validateCounterpartyRevocation, exec_get_bind]
    refine exec_lift_bind_iff.mpr (.inr ⟨(), hvalidate ▸ h.validated, ?_⟩)
    refine exec_lift_bind_iff.mpr (.inr ⟨e', hstore, ?_⟩)
    rw [setEstate, exec_modify_bind]
    refine exec_lift_bind_iff.mpr (.inr ⟨_, u64_of_lt _ (by omega), ?_⟩)
    exact exec_lift_bind_iff.mpr (.inl ⟨_, hset, rfl, rfl⟩)
  · intro hpremature call node stored refusal t h hpersist
    rcases validateCounterpartyRevocation_outcome h with _ | _ | ⟨e', hvalid, hstore, hended⟩
    · rfl
    rcases hended with ⟨num, refusal', hnum, hset, -, rfl⟩ | ⟨num, e'', -, -, hended⟩
    · by_contra hne
      exact hpremature (premature_of_refused hfilter n.toNat_lt (hvalidate ▸ hvalid) hstore hne
        hnum hset)
    · exact absurd (hended.failsToPersist rfl) hpersist

/-- A secret that comes before the first commitment is refused and not kept. -/
theorem revocation_atomic_iff_sample :
    (channel .checked).RevocationAtomic (.new 1000000) 0 7 := by
  refine (revocation_atomic_iff (channel .checked) (Sample.validator .checked) (.inl rfl) rfl
    (.new 1000000) 0 7).mpr fun h => ?_
  exact (nomatch h.current)

/-- The call is refused and leaves another enforcement state. -/
def refusesWithTrace (ch : Channel) (e : EnforcementState) (n : Nat) (secret : Bytes32) : Bool :=
  match exec (ch.validateCounterpartyRevocation ⟨chain, true⟩ n secret)
      ⟨e, node, e⟩ with
  | (.error (.refuse _), t) => t.estate ≠ e
  | _ => false

theorem not_atomic_of_refusesWithTrace (h : ch.refusesWithTrace e n secret = true) :
    ¬ ch.RevocationAtomic e n secret := by
  intro hatomic
  unfold refusesWithTrace at h
  split at h
  · rename_i refusal t hrun
    have hsame := hatomic _ _ _ refusal t hrun fun h => (nomatch h.1)
    exact of_decide_eq_true h hsame
  · cases h

/-- Once the first counterparty commitment is signed its secret is refused, but kept. -/
theorem premature_secret_kept :
    ∃ e, ((channel .checked).machine.final (initial 1000000)
        [ask true (signCounterparty 0 ⟨7⟩)]).live = some e ∧
      ¬ (channel .checked).RevocationAtomic e 0 7 := by
  have hlive : ((channel .checked).machine.final (initial 1000000)
      [ask true (signCounterparty 0 ⟨7⟩)]).live.isSome = true := by
    decide +kernel
  refine ⟨_, (Option.some_get hlive).symm, not_atomic_of_refusesWithTrace ?_⟩
  decide +kernel +revert

end Channel

end ValidatingSigner
