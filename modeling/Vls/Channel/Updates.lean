import Vls.Channel.Ledger
import Vls.Node.Payments

/-!
# Commitment updates

A served request either leaves the current commitments of its channel and the node's payments as
they are, or it is a commitment update: one commitment is replaced by an accepted one, and the
amounts of the new pair are checked against the node's ledger and written to it.
-/

namespace ValidatingSigner

open Base SimpleValidator NodeState EnforcementState

/-- The session has moved by a commitment update. -/
structure Channel.Updated (ch : Channel) (v : SimpleValidator) (s t : Session)
    (newHolderTx newCounterpartyTx : Option CommitmentInfo2) (update : CommitmentUpdate) :
    Prop where
  payments : ch.PaymentsChecked s.estate s.node newHolderTx newCounterpartyTx update
  applied : s.node.applyPayments ch.overflow ch.validator ch.id0 update.incoming update.outgoing
    update.delta = .ok t.node
  commitments : t.estate.commitments = s.estate.commitments.replace newHolderTx newCounterpartyTx
  initial : t.estate.initialHolderValue = s.estate.initialHolderValue
  within : s.estate.commitments.Within v.policy.maxHtlcValueSat ch.setup →
    t.estate.commitments.Within v.policy.maxHtlcValueSat ch.setup

/-- The session has kept the commitments of the channel and the payments of the node. -/
structure Session.Unmoved (s t : Session) : Prop where
  node : t.node = s.node
  commitments : t.estate.commitments = s.estate.commitments
  initial : t.estate.initialHolderValue = s.estate.initialHolderValue

namespace EnforcementState

variable {o : Overflow} {e e' : EnforcementState} {num : Nat}

/-- Moving to a counterparty commitment makes it the current one, unless the number does not
advance. -/
theorem setNextCounterpartyCommitNum_info {point : PublicKey} {info : CommitmentInfo2}
    (h : e.setNextCounterpartyCommitNum o num point info = .ok e') :
    e'.currentHolderCommitInfo = e.currentHolderCommitInfo ∧
      e'.initialHolderValue = e.initialHolderValue ∧
      (e'.currentCounterpartyCommitInfo = some info ∨
        num < (e.nextCounterpartyCommitNum + 1) % 2 ^ 64 ∧
          e'.currentCounterpartyCommitInfo = e.currentCounterpartyCommitInfo) := by
  obtain ⟨u, -, h⟩ := bind_ok h
  obtain ⟨next, hnext, h⟩ := bind_ok h
  rw [← Overflow.eq_mod_of_uint hnext]
  by_cases hge : num ≥ next
  · simp only [if_pos hge] at h
    cases h
    refine ⟨?_, ?_, .inl rfl⟩ <;> dsimp only <;> split_ifs <;> rfl
  · have hne : ¬ num = next := by omega
    simp only [if_neg hge, if_neg hne] at h
    cases h
    refine ⟨?_, ?_, .inr ⟨by omega, ?_⟩⟩ <;> dsimp only <;> split_ifs <;> rfl

end EnforcementState

namespace Channel

variable {ch : Channel} {v : SimpleValidator} {call : Call} {s t : Session} {n : Nat}
  {update : CommitmentUpdate} {newHolderTx newCounterpartyTx : Option CommitmentInfo2}

section

variable (hv : ch.validator = v.toValidator) (hfilter : v.policy.filter = .default)

include hv hfilter

/-- A signed counterparty commitment is an update. -/
theorem CounterpartyAdvanced.updated {point : PublicKey} {tx : CommitmentTransaction}
    {e : EnforcementState} {node : NodeState}
    (h : ch.CounterpartyAdvanced call s n point tx update e node) (he : t.estate = e)
    (hnode : t.node = node) : ch.Updated v s t none (some update.info) update := by
  subst he hnode
  obtain ⟨num, hnum, hset⟩ := h.advance
  have hvalid := h.checked.valid
  rw [hv] at hvalid
  obtain ⟨hcommit, -, hretry⟩ := validateCounterpartyCommitmentTx_ok hfilter hvalid
  have hdefault := filter_default hv hfilter
  obtain ⟨-, -, -, hprogress, hset⟩ := Validator.setNextCounterpartyCommitNum_ok hdefault hset
  obtain ⟨hholder, hinitial, hinfo⟩ := setNextCounterpartyCommitNum_info hset
  have hcurrent : t.estate.currentCounterpartyCommitInfo = some update.info := by
    rcases hinfo with hinfo | ⟨hlt, hinfo⟩
    · exact hinfo
    · rcases Validator.checkCounterpartyProgression_ok hdefault hprogress with
        ⟨hsame, -⟩ | ⟨-, hnext⟩
      · rw [Overflow.eq_mod_of_uint hnum] at hsame
        rw [hinfo]
        exact (previousCounterparty_last hsame (hretry hsame).2).symm
      · omega
  have hreplace : t.estate.commitments = s.estate.commitments.replace none (some update.info) := by
    rw [commitments, hholder, hcurrent]
    rfl
  refine ⟨h.checked.payments, h.apply, hreplace, hinitial, fun hw => ?_⟩
  rw [hreplace]
  refine ⟨hw.holder, fun info hinfo => ?_⟩
  cases hinfo
  exact ⟨h.checked.side, validateCommitmentTx_ok hfilter hcommit⟩

/-- An accepted holder commitment is an update. -/
theorem HolderAdvanced.updated {signatures : CommitmentSignatures}
    {secret : Option ReleasedSecret} {e : EnforcementState} {node : NodeState}
    (h : ch.HolderAdvanced call s n signatures update secret e node) (he : t.estate = e)
    (hnode : t.node = node) : ch.Updated v s t (some update.info) none update := by
  subst he hnode
  obtain ⟨num, -, hset⟩ := h.advance
  obtain ⟨point, hvalid⟩ := h.checked.valid
  rw [hv] at hvalid
  obtain ⟨hcommit, -⟩ := validateHolderCommitmentTx_ok hfilter hvalid
  have hdefault := filter_default hv hfilter
  obtain ⟨-, hestate⟩ := Validator.setNextHolderCommitNum_ok hdefault hset
  have hreplace : t.estate.commitments = s.estate.commitments.replace (some update.info) none := by
    rw [hestate]
    rfl
  refine ⟨h.checked.payments, h.apply, hreplace, by rw [hestate]; rfl, fun hw => ?_⟩
  rw [hreplace]
  refine ⟨fun info hinfo => ?_, hw.counterparty⟩
  cases hinfo
  exact ⟨h.checked.side, validateCommitmentTx_ok hfilter hcommit⟩

/-- A served request moves nothing, or is a commitment update. -/
theorem Served.unmoved_or_updated {request : Request} {r : Result Reply}
    (h : ch.Served call s request r t) :
    s.Unmoved t ∨ ∃ newHolderTx newCounterpartyTx update,
      ch.Updated v s t newHolderTx newCounterpartyTx update := by
  have hdefault := filter_default hv hfilter
  have hclosed {α : Type} {reply : α} {r : Result α}
      (hended : Ended call s.stored s.estate.close s.node reply r t) : s.Unmoved t :=
    ⟨hended.node_eq, by rw [hended.estate_eq]; rfl, by rw [hended.estate_eq]; rfl⟩
  cases h with
  | point point => exact .inl ⟨rfl, rfl, rfl⟩
  | secret n released hn h => exact .inl ⟨rfl, rfl, rfl⟩
  | counterparty _ _ h hended =>
    exact .inr ⟨_, _, _, h.updated hv hfilter hended.estate_eq hended.node_eq⟩
  | holder _ h hended =>
    exact .inr ⟨_, _, _, h.updated hv hfilter hended.estate_eq hended.node_eq⟩
  | holderSigned _ _ hended => exact .inl (hclosed hended)
  | closeSigned hended => exact .inl (hclosed hended)
  | revocationStored refusal _ _ hstore =>
    obtain ⟨secrets, rfl⟩ := storeSecret_ok hstore
    exact .inl ⟨rfl, rfl, rfl⟩
  | revocation _ _ hstore _ hset hended =>
    obtain ⟨secrets, rfl⟩ := storeSecret_ok hstore
    obtain ⟨-, -, -, -, hset⟩ := Validator.setNextCounterpartyRevokeNum_ok hdefault hset
    obtain ⟨u, -, hset⟩ := bind_ok hset
    obtain ⟨next, -, hset⟩ := bind_ok hset
    cases hset
    exact .inl ⟨hended.node_eq, by rw [hended.estate_eq]; rfl, by rw [hended.estate_eq]⟩

end

section

variable (h : ch.Updated v s t newHolderTx newCounterpartyTx update)

include h

/-- An update writes the amounts of the new commitments for every payment it touches; for any other
payment there were none and there are none. -/
theorem Updated.amounts (hw : s.estate.commitments.Within v.policy.maxHtlcValueSat ch.setup)
    (hash : PaymentHash) :
    (hash ∈ summaryHashes update.incoming update.outgoing ∧
      (t.node.payment hash).incoming =
        (s.node.payment hash).incoming.insert ch.id0 (t.estate.commitments.incoming hash) ∧
      (t.node.payment hash).outgoing =
        (s.node.payment hash).outgoing.insert ch.id0 (t.estate.commitments.outgoing hash)) ∨
    (((t.node.payment hash).incoming = (s.node.payment hash).incoming ∧
        (t.node.payment hash).outgoing = (s.node.payment hash).outgoing) ∧
      (s.estate.commitments.incoming hash = 0 ∧ s.estate.commitments.outgoing hash = 0) ∧
      t.estate.commitments.incoming hash = 0 ∧ t.estate.commitments.outgoing hash = 0) := by
  have hw' := h.within hw
  rw [h.commitments] at hw' ⊢
  obtain ⟨hmemIn, hin⟩ := incomingPaymentsSummary_ok h.payments.incoming hash
  obtain ⟨hmemOut, hout⟩ := paymentsSummary_ok h.payments.outgoing hash
  have happlied := applyPayments_ok h.applied
  rw [(happlied.amounts_eq hash).1, (happlied.amounts_eq hash).2, ← hin hw'.fits, ← hout hw'.fits]
  by_cases hmem : hash ∈ summaryHashes update.incoming update.outgoing
  · rw [if_pos hmem, if_pos hmem]
    exact .inl ⟨hmem, rfl, rfl⟩
  · rw [if_neg hmem, if_neg hmem]
    have hnot := not_or.mp (mt mem_summaryHashes.mpr hmem)
    refine .inr ⟨⟨rfl, rfl⟩, ⟨?_, ?_⟩, amounts_of_notMem hmem⟩
    · exact Commitments.incoming_eq_zero fun hcurrent => hnot.1 (hmemIn.mpr (.inl hcurrent))
    · exact Commitments.outgoing_eq_zero fun hcurrent => hnot.2 (hmemOut.mpr (.inl hcurrent))

/-- An update does not touch a payment that has no HTLCs before and after it. -/
theorem Updated.notMem_summaryHashes {hash : PaymentHash}
    (hold : hash ∉ s.estate.commitments.incomingHtlcs.map (·.paymentHash) ∧
      hash ∉ s.estate.commitments.outgoingHtlcs.map (·.paymentHash))
    (hnew : hash ∉ t.estate.commitments.incomingHtlcs.map (·.paymentHash) ∧
      hash ∉ t.estate.commitments.outgoingHtlcs.map (·.paymentHash)) :
    hash ∉ summaryHashes update.incoming update.outgoing := by
  rw [h.commitments] at hnew
  rw [mem_summaryHashes, not_or]
  rw [(incomingPaymentsSummary_ok h.payments.incoming hash).1,
    (paymentsSummary_ok h.payments.outgoing hash).1]
  exact ⟨fun hmem => hmem.elim hold.1 fun htwice => hnew.1 htwice.mem_incomingHtlcs,
    fun hmem => hmem.elim hold.2 hnew.2⟩

/-- An update adds at most one commitment's worth to what the ledger holds as outgoing. -/
theorem Updated.total_outgoing_le
    (hw : s.estate.commitments.Within v.policy.maxHtlcValueSat ch.setup) (hash : PaymentHash) :
    (t.node.payment hash).outgoing.total ≤
      (s.node.payment hash).outgoing.total + v.policy.maxHtlcValueSat := by
  rcases h.amounts hw hash with ⟨-, -, hout⟩ | ⟨⟨-, hout⟩, -⟩
  · have hinsert := Table.total_insert (s.node.payment hash).outgoing ch.id0
      (t.estate.commitments.outgoing hash)
    have hle := (h.within hw).outgoing_le hash
    rw [hout]
    omega
  · rw [hout]
    exact Nat.le_add_right _ _

end

/-- A payment that an update touches, and that is invoiced or not recorded yet, is balanced after
it. -/
theorem Updated.balanced (hv : ch.validator = v.toValidator)
    (hfilter : v.policy.filter = .default)
    (h : ch.Updated v s t newHolderTx newCounterpartyTx update) {hash : PaymentHash}
    (hmem : hash ∈ summaryHashes update.incoming update.outgoing)
    (hchecked : hash ∈ s.node.invoices ∨ hash ∉ s.node.payments)
    (hfit : ch.overflow = .checked ∨ (t.node.payment hash).outgoing.total * 1000 < 2 ^ 64) :
    (t.node.payment hash).outgoing.total * 1000 ≤
      (t.node.payment hash).incoming.total * 1000 +
        (s.node.invoices.lookup hash).elim 0 (·.amountMsat + v.policy.maxRoutingFeeMsat) := by
  have happlied := applyPayments_ok h.applied
  have hin := (happlied.amounts_eq hash).1.trans (if_pos hmem)
  have hout := (happlied.amounts_eq hash).2.trans (if_pos hmem)
  have hdefault := filter_default hv hfilter
  have hbalanced := validatePayments_ok hdefault h.payments.valid hmem
  rw [hv] at hbalanced
  rw [hout] at hfit
  rw [hin, hout]
  exact balanced_of_not_isUnbalanced hfilter hbalanced hchecked hfit

end Channel

end ValidatingSigner
