import Vls.Node.Correctness.InFlight

/-!
# Conservation of the balance

With balance enforcement the excess that a node records is covered by what its channels let it
claim: what it can claim over all channels, together with what went out for approved payments when
they were fulfilled, is at least what it brought in and the excess.
-/

namespace ValidatingSigner

open Base NodeState Sample List

/-! ## Learning preimages -/

theorem foldl_learn (known : PaymentHash → Bool) (hashes : List PaymentHash) (hash : PaymentHash) :
    hashes.foldl learn known hash = (known hash || decide (hash ∈ hashes)) := by
  induction hashes generalizing known with
  | nil => simp
  | cons h hashes ih =>
    rw [foldl_cons, ih, learn, Function.update_apply]
    by_cases hh : hash = h <;> simp [hh]

namespace Node

variable {N : Node} {v : SimpleValidator} {m m' : NodeMemory N.size}
  {estates : Fin N.size → EnforcementState} {known : PaymentHash → Bool}

/-- What the holder can claim over all channels when it knows the preimages of `known`. -/
def claimableWith (N : Node) (known : PaymentHash → Bool)
    (estates : Fin N.size → EnforcementState) : Nat :=
  ∑ i, (estates i).commitments.claimable known (N.channels i).setup (estates i).initialHolderValue

/-- What the holder can claim over all channels. -/
def claimable (N : Node) (m : NodeMemory N.size) : Nat :=
  N.claimableWith m.node.hasPreimage m.estates

/-- Learning a preimage gains at least what comes in less what goes out. -/
theorem claimableWith_learn {limit : Nat}
    (hw : ∀ i, (estates i).commitments.Within limit (N.channels i).setup) {hash : PaymentHash}
    (hnew : known hash = false) :
    N.claimableWith known estates + ∑ i, (estates i).commitments.incoming hash ≤
      N.claimableWith (learn known hash) estates + ∑ i, (estates i).commitments.outgoing hash := by
  unfold claimableWith
  rw [← Finset.sum_add_distrib, ← Finset.sum_add_distrib]
  exact Finset.sum_le_sum fun i _ => (hw i).claimable_learn hnew _

/-- Learning preimages of payments that bring in what they send loses nothing. -/
theorem claimableWith_le_foldl_learn {limit : Nat}
    (hw : ∀ i, (estates i).commitments.Within limit (N.channels i).setup)
    {hashes : List PaymentHash} (hnodup : hashes.Nodup) (hnew : ∀ hash ∈ hashes, known hash = false)
    (hgain : ∀ hash ∈ hashes, ∑ i, (estates i).commitments.outgoing hash ≤
      ∑ i, (estates i).commitments.incoming hash) :
    N.claimableWith known estates ≤ N.claimableWith (hashes.foldl learn known) estates := by
  induction hashes generalizing known with
  | nil => exact le_rfl
  | cons h hashes ih =>
    obtain ⟨hnot, hnodup⟩ := nodup_cons.mp hnodup
    have hfirst := claimableWith_learn hw (hnew h mem_cons_self)
    have hin := hgain h mem_cons_self
    refine le_trans (by omega : _ ≤ N.claimableWith (learn known h) estates) ?_
    refine ih hnodup (fun k hk => ?_) fun k hk => hgain k (mem_cons_of_mem h hk)
    have hne : k ≠ h := fun heq => hnot (heq ▸ hk)
    rw [learn, Function.update_of_ne hne]
    exact hnew k (mem_cons_of_mem h hk)

/-- Writing one channel changes a sum over the channels by what it changes there. -/
theorem sum_write (f : Fin N.size → EnforcementState → Nat) (m : NodeMemory N.size)
    (i : Fin N.size) (s : Session) :
    ∑ j, f j ((m.write i s).estates j) + f i (m.estates i) =
      ∑ j, f j (m.estates j) + f i s.estate := by
  have hrest : ∑ j ∈ Finset.univ.erase i, f j ((m.write i s).estates j) =
      ∑ j ∈ Finset.univ.erase i, f j (m.estates j) := by
    refine Finset.sum_congr rfl fun j hj => ?_
    rw [estates_write, if_neg (Finset.ne_of_mem_erase hj)]
  have hnew := Finset.add_sum_erase Finset.univ (fun j => f j ((m.write i s).estates j))
    (Finset.mem_univ i)
  have hold := Finset.add_sum_erase Finset.univ (fun j => f j (m.estates j)) (Finset.mem_univ i)
  rw [← hnew, ← hold, hrest, estates_write, if_pos rfl]
  omega

/-! ## Updates -/

/-- Overflow is checked, or what the ledger holds as outgoing for a payment is a machine word even
with one more commitment's worth and the amount of an issued invoice. -/
def HasBalanceRoom (N : Node) (v : SimpleValidator) (m : NodeMemory N.size) : Prop :=
  N.overflow = .checked ∨ ∀ hash,
    (m.node.payment hash).outgoing.total + v.policy.maxHtlcValueSat +
      ((m.node.issuedInvoices.lookup hash).elim 0 (·.amountMsat)) / 1000 < 2 ^ 64

section Update

variable {i : Fin N.size} {s : Session} {newHolderTx newCounterpartyTx : Option CommitmentInfo2}
  {update : CommitmentUpdate}

/-- An update marks only payments that bring in what they send. -/
theorem gain_of_learned (hfollows : N.Follows v m)
    (htracked : ∀ hash, N.Tracked m hash) (hroom : N.HasBalanceRoom v m)
    (hupdated : (N.channels i).Updated v (N.session m i) s newHolderTx newCounterpartyTx update)
    {hash : PaymentHash} (hold : m.node.hasPreimage hash = false)
    (hnew : s.node.hasPreimage hash = true) :
    ∑ j, ((m.write i s).estates j).commitments.outgoing hash ≤
      ∑ j, ((m.write i s).estates j).commitments.incoming hash := by
  have happlied := applyPayments_ok hupdated.applied
  have htotals := ((htracked hash).of_updated (hfollows.within i) hupdated).totals
    (hfollows.of_updated hupdated)
  have hgrowth := hupdated.total_outgoing_le (hfollows.within i) hash
  rw [← htotals.1, ← htotals.2]
  rw [hasPreimage_eq] at hold hnew
  by_cases hmem : hash ∈ summaryHashes update.incoming update.outgoing
  · obtain ⟨paid, hpays, hlookup⟩ := happlied.inside hash hmem
    have hin := (happlied.amounts_eq hash).1.trans (if_pos hmem)
    have hout := (happlied.amounts_eq hash).2.trans (if_pos hmem)
    have hpaid : paid = true := by
      by_contra hpaid
      rw [payment, hlookup] at hnew
      simp only [Option.getD_some, RoutedPayment.isFulfilled, hpaid, Bool.and_false,
        Bool.false_eq_true, if_false] at hnew
      exact Bool.false_ne_true (hold.symm.trans hnew)
    subst hpaid
    have hfit : (N.channels i).overflow = .checked ∨ (s.node.payment hash).outgoing.total +
        ((m.node.issuedInvoices.lookup hash).elim 0 (·.amountMsat)) / 1000 < 2 ^ 64 := by
      refine hroom.imp (fun ho => ?_) fun hlt => lt_of_le_of_lt ?_ (hlt hash)
      · rw [Channel.overflow, N.validator_eq]
        exact ho
      · exact Nat.add_le_add_right hgrowth _
    rw [hout] at hfit
    change (s.node.payment hash).outgoing.total ≤ (s.node.payment hash).incoming.total
    rw [hin, hout]
    exact (paysIssuedInvoice_true hpays hfit).2
  · rw [payment, happlied.outside hash hmem] at hnew
    exact absurd (hold.symm.trans hnew) Bool.false_ne_true

/-- The preimages known after an update, as learnt in turn. -/
theorem hasPreimage_of_updated
    (hupdated : (N.channels i).Updated v (N.session m i) s newHolderTx newCounterpartyTx update) :
    ∃ hashes : List PaymentHash, hashes.Nodup ∧
      (∀ hash ∈ hashes, m.node.hasPreimage hash = false ∧ s.node.hasPreimage hash = true) ∧
      s.node.hasPreimage = hashes.foldl learn m.node.hasPreimage := by
  have happlied := applyPayments_ok hupdated.applied
  refine ⟨(summaryHashes update.incoming update.outgoing).filter fun hash =>
    !m.node.hasPreimage hash && s.node.hasPreimage hash, (nodup_dedup _).filter _,
    fun hash hmem => ?_, ?_⟩
  · simpa using (mem_filter.mp hmem).2
  · funext hash
    rw [foldl_learn]
    have hcases : s.node.hasPreimage hash = m.node.hasPreimage hash ∨ _ :=
      happlied.hasPreimage_cases hash
    cases hold : m.node.hasPreimage hash with
    | true =>
      rw [Bool.true_or]
      rcases hcases with h | ⟨-, h⟩
      · exact h.trans hold
      · exact h
    | false =>
      rcases hcases with h | ⟨hmem, h⟩
      · rw [h, hold, Bool.false_or, eq_comm, decide_eq_false_iff_not, mem_filter]
        simp [h, hold]
      · rw [h, Bool.false_or, eq_comm, decide_eq_true_iff, mem_filter]
        exact ⟨hmem, by simp [h, hold]⟩

/-- An update moves the excess by no more than the claimable balance. -/
theorem claimable_of_updated (hv : N.validator = v.toValidator)
    (hbalance : v.policy.enforceBalance = true) (hfollows : N.Follows v m)
    (htracked : ∀ hash, N.Tracked m hash) (hroom : N.HasBalanceRoom v m)
    (hupdated : (N.channels i).Updated v (N.session m i) s newHolderTx newCounterpartyTx update) :
    N.claimable m + s.node.excessAmount ≤ N.claimable (m.write i s) + m.node.excessAmount := by
  have hw := hfollows.within i
  have hw' := hupdated.within hw
  have hexcess := (applyPayments_ok hupdated.applied).excess
  have henforce : v.toValidator.enforceBalance = true := hbalance
  rw [(N.validator_eq i).trans hv, if_pos henforce] at hexcess
  have hreplace : s.estate.commitments =
      (m.estates i).commitments.replace newHolderTx newCounterpartyTx := hupdated.commitments
  have hinitial : s.estate.initialHolderValue = (m.estates i).initialHolderValue :=
    hupdated.initial
  rw [hreplace] at hw'
  obtain ⟨hcurrent, hnew⟩ := EnforcementState.claimableBalances_ok hw hw' hupdated.payments.delta
  rw [← hreplace, ← hinitial] at hnew
  have hsum := sum_write (fun j e => e.commitments.claimable m.node.hasPreimage
    (N.channels j).setup e.initialHolderValue) m i s
  -- First the commitments with the preimages as they were, then the preimages the update reveals.
  have hmoved : N.claimableWith m.node.hasPreimage m.estates + s.node.excessAmount =
      N.claimableWith m.node.hasPreimage (m.write i s).estates + m.node.excessAmount := by
    change _ + update.delta.current = m.node.excessAmount + _ at hexcess
    change update.delta.current = (m.estates i).commitments.claimable m.node.hasPreimage _ _
      at hcurrent
    change update.delta.new = s.estate.commitments.claimable m.node.hasPreimage _ _ at hnew
    unfold claimableWith
    omega
  obtain ⟨hashes, hnodup, hlearned, hknown⟩ := hasPreimage_of_updated hupdated
  have hgain := claimableWith_le_foldl_learn (hfollows.of_updated hupdated).within hnodup
    (fun hash hmem => (hlearned hash hmem).1) fun hash hmem =>
      gain_of_learned hfollows htracked hroom hupdated (hlearned hash hmem).1
        (hlearned hash hmem).2
  rw [← hknown] at hgain
  change N.claimableWith m.node.hasPreimage m.estates + _ ≤
    N.claimableWith s.node.hasPreimage (m.write i s).estates + _
  omega

end Update

end Node

/-! ## Preimages -/

namespace NodeState

/-- What the ledger holds as outgoing for `hash`, if it is approved and a preimage for it is now
recorded. -/
def paidInvoice (s : NodeState) (hash : PaymentHash) : Nat :=
  if hash ∈ s.payments ∧ s.hasPreimage hash = false ∧ hash ∈ s.invoices then
    (s.payment hash).outgoing.total
  else 0

/-- What goes out for the approved payments that some preimages fulfil. -/
def paidInvoices (o : Overflow) (v : Validator) (sha256 : Bytes32 → Bytes32) :
    NodeState → List PaymentPreimage → Nat
  | _, [] => 0
  | s, preimage :: preimages =>
    s.paidInvoice (sha256 preimage) +
      match s.htlcFulfilled o v sha256 preimage with
      | .ok s' => paidInvoices o v sha256 s' preimages
      | .error _ => 0

/-- Recording a preimage moves the excess by at most what comes in less what goes out, and leaves it
for an approved payment. -/
theorem Fulfilled.excess_le {o : Overflow} {v : Validator} {s s' : NodeState} {hash : PaymentHash}
    {preimage : PaymentPreimage} (h : s.Fulfilled o v hash preimage s')
    (hbalance : v.enforceBalance = true)
    (hfit : o = .checked ∨ (s.payment hash).outgoing.total < 2 ^ 64) :
    s'.excessAmount + (s.payment hash).outgoing.total ≤
      s.excessAmount + (s.payment hash).incoming.total + s.paidInvoice hash := by
  obtain ⟨incoming, outgoing, htotals, hexcess⟩ := h.excess
  obtain ⟨⟨hin, -⟩, hout⟩ := RoutedPayment.incomingOutgoing_ok htotals
  rw [← hout hfit]
  unfold fulfilledExcess at hexcess
  by_cases hinvoiced : hash ∈ s.invoices
  · rw [if_pos hinvoiced, Except.ok.injEq] at hexcess
    rw [paidInvoice, if_pos ⟨h.mem, h.unknown, hinvoiced⟩, ← hout hfit, ← hexcess]
    omega
  · rw [if_neg hinvoiced, if_pos hbalance] at hexcess
    obtain ⟨sum, hsum, hexcess⟩ := bind_ok hexcess
    rw [expect_eq_ok] at hsum hexcess
    split_ifs at hsum hexcess with hword hle
    rw [Option.some.injEq] at hsum hexcess
    omega

end NodeState

namespace Node

variable {N : Node} {v : SimpleValidator} {m m' : NodeMemory N.size}

/-- Recording preimages moves the excess by no more than the claimable balance and what goes out for
approved payments. -/
theorem claimable_of_fulfilled (hv : N.validator = v.toValidator)
    (hbalance : v.policy.enforceBalance = true) (hfollows : N.Follows v m)
    (htracked : ∀ hash, N.Tracked m hash)
    (hroom : ∀ hash, N.overflow = .checked ∨ (m.node.payment hash).outgoing.total < 2 ^ 64)
    {sha256 : Bytes32 → Bytes32} {preimages : List PaymentPreimage} {s : NodeState}
    (h : m.node.htlcsFulfilled N.overflow N.validator sha256 preimages = .ok s) :
    N.claimable m + s.excessAmount ≤ N.claimable { m with node := s } + m.node.excessAmount +
      m.node.paidInvoices N.overflow N.validator sha256 preimages := by
  induction preimages generalizing m with
  | nil =>
    cases h
    exact Nat.le_add_right _ _
  | cons preimage preimages ih =>
    obtain ⟨s₁, hfirst, hrest⟩ := bind_ok h
    rw [paidInvoices, hfirst]
    rcases fulfill_ok hfirst with rfl | hful
    · have hle := ih hfollows htracked hroom hrest
      simp only
      omega
    · have hamounts := hful.amounts_eq
      have hstill : Still m { m with node := s₁ } :=
        ⟨fun _ => rfl, fun hash => .inl (hamounts hash)⟩
      have hle := ih (hfollows.of_still hstill)
        (fun hash j => by
          change (s₁.payment hash).incoming.amount _ = _ ∧ (s₁.payment hash).outgoing.amount _ = _
          rw [(hamounts hash).1, (hamounts hash).2]
          exact htracked hash j)
        (fun hash => by
          change _ ∨ (s₁.payment hash).outgoing.total < _
          rw [(hamounts hash).2]
          exact hroom hash) hrest
      have hlearn := claimableWith_learn hfollows.within hful.unknown
      have htotals := (htracked (sha256 preimage)).totals hfollows
      have hexcess := hful.excess_le (by rw [hv]; exact hbalance) (hroom (sha256 preimage))
      rw [← hful.hasPreimage_eq_learn, ← htotals.1, ← htotals.2] at hlearn
      change N.claimableWith m.node.hasPreimage m.estates + _ ≤ _
      change N.claimableWith s₁.hasPreimage m.estates + _ ≤ N.claimable { m with node := s } +
        s₁.excessAmount + s₁.paidInvoices N.overflow N.validator sha256 preimages at hle
      simp only
      omega

/-! ## Runs -/

/-- What goes out for the approved payments that are fulfilled in a step, when they are. -/
def paid (N : Node) (x : NodeEntry N.size) : Nat :=
  match x.before, x.event with
  | some m, .htlcsFulfilled _ preimages =>
    m.node.paidInvoices N.overflow N.validator N.library.sha256 preimages
  | _, _ => 0

theorem claimable_of_same {m m' : NodeMemory N.size}
    (hpayment : ∀ hash, m'.node.payment hash = m.node.payment hash)
    (hcommitments : ∀ i, (m'.estates i).commitments = (m.estates i).commitments)
    (hinitial : ∀ i, (m'.estates i).initialHolderValue = (m.estates i).initialHolderValue) :
    N.claimable m' = N.claimable m := by
  have hknown : m'.node.hasPreimage = m.node.hasPreimage := by
    funext hash
    rw [hasPreimage_eq, hasPreimage_eq, hpayment]
  unfold claimable claimableWith
  simp only [hknown, hcommitments, hinitial]

/-- A step that does not prune moves the excess by no more than the claimable balance and what goes
out for approved payments. -/
theorem Changed.claimable_le {event : NodeEvent N.size} (hv : N.validator = v.toValidator)
    (hbalance : v.policy.enforceBalance = true) (hfollows : N.Follows v m)
    (htracked : ∀ hash, N.Tracked m hash) (hroom : N.HasBalanceRoom v m)
    (hprune : ¬ event.Prunes) (h : N.Changed v m event m') :
    N.claimable m + m'.node.excessAmount ≤ N.claimable m' + m.node.excessAmount +
      N.paid (N.machine.entry (some m) event) := by
  cases h with
  | kept hledger hcommitments hinitial =>
    have hpayment (hash : PaymentHash) : m'.node.payment hash = m.node.payment hash := by
      rw [payment, hledger.payments]
      rfl
    rw [claimable_of_same hpayment hcommitments hinitial, hledger.excess]
    exact Nat.le_add_right _ _
  | updated h =>
    exact (claimable_of_updated hv hbalance hfollows htracked hroom h).trans (Nat.le_add_right _ _)
  | fulfilled h =>
    refine claimable_of_fulfilled hv hbalance hfollows htracked (fun hash => ?_) h
    refine hroom.imp_right fun hlt => ?_
    have := hlt hash
    omega
  | @approved _ _ _ s _ h =>
    have hsame : N.claimable { m with node := s } = N.claimable m :=
      claimable_of_same h.payment_eq (fun _ => rfl) fun _ => rfl
    rw [hsame, h.excess]
    exact Nat.le_add_right _ _
  | @issued _ s _ hpayments hexcess =>
    have hpayment (hash : PaymentHash) : s.payment hash = m.node.payment hash := by
      rw [payment, hpayments]
      rfl
    have hsame : N.claimable { m with node := s } = N.claimable m :=
      claimable_of_same hpayment (fun _ => rfl) fun _ => rfl
    rw [hsame, hexcess]
    exact Nat.le_add_right _ _
  | pruned h => exact absurd trivial hprune

theorem tracked_initial (N : Node) (control feeControl : VelocityControl)
    (values : Fin N.size → Nat) (hash : PaymentHash) :
    N.Tracked (N.initial (.new control feeControl) values) hash := fun _ => ⟨rfl, rfl⟩

theorem claimable_initial (N : Node) (control feeControl : VelocityControl)
    (values : Fin N.size → Nat) :
    N.claimable (N.initial (.new control feeControl) values) = ∑ i, values i := rfl

end Node

/-- With balance enforcement and no pruning, what the holder can claim over all channels and what
went out for approved payments when they were fulfilled is at least what it brought in and the
excess, provided that the totals of the ledger leave room in a machine word. -/
theorem balance_conserved {N : Node} {v : SimpleValidator} (hv : N.validator = v.toValidator)
    (hfilter : v.policy.filter = .default) (hbalance : v.policy.enforceBalance = true)
    (control feeControl : VelocityControl) (values : Fin N.size → Nat)
    (events : List (NodeEvent N.size)) (hprune : ∀ event ∈ events, ¬ event.Prunes)
    (hroom : ∀ x ∈ N.machine.trace (some (N.initial (.new control feeControl) values)) events,
      ∀ m ∈ x.before, N.HasBalanceRoom v m)
    {m : NodeMemory N.size}
    (hm : m ∈ N.machine.final (some (N.initial (.new control feeControl) values)) events) :
    ∑ i, values i + m.node.excessAmount ≤ N.claimable m +
      ((N.machine.trace (some (N.initial (.new control feeControl) values)) events).map
        N.paid).sum := by
  have hinv := N.machine.run_induction
    (C := fun x => ¬ x.event.Prunes ∧ ∀ m ∈ x.before, N.HasBalanceRoom v m)
    (P := fun log state => ∀ m ∈ state, N.Follows v m ∧ (∀ hash, N.Tracked m hash) ∧
      ∑ i, values i + m.node.excessAmount ≤ N.claimable m + (log.map N.paid).sum)
    ?_ ?_ events (fun x hx => ⟨hprune _ (N.machine.event_mem_of_mem_trace hx), hroom x hx⟩)
  · exact (hinv m hm).2.2
  · rintro m ⟨⟩
    refine ⟨.initial N v rfl values, N.tracked_initial control feeControl values, ?_⟩
    rw [N.claimable_initial]
    exact le_rfl
  · intro log state event h hC m' hm'
    obtain ⟨m, rfl, hstep⟩ := Node.machine_step_some hm'
    obtain ⟨hfollows, htracked, hle⟩ := h m rfl
    have hchanged := Node.step_changed hv hfilter hstep
    have hkeeps : ¬ event.Prunes := hC.1
    have hmoved := hchanged.claimable_le hv hbalance hfollows htracked (hC.2 m rfl) hkeeps
    refine ⟨hfollows.step hchanged, fun hash =>
      (htracked hash).step hfollows hchanged (.inr hkeeps),
      ?_⟩
    rw [map_append, sum_append, map_singleton, sum_singleton]
    omega

/-- An invoice of 100000 satoshi is approved, paid, fulfilled and taken off the commitment. -/
def Sample.settle : List (NodeEvent 1) :=
  [.addInvoice true 0 (invoice 100000000), holder 0 0 999000 0 [] [],
    holder 0 1 898500 0 [htlc 100000] [], .htlcsFulfilled 0 [0], holder 0 2 899000 100000 [] []]

/-- The balance at work: paying an invoice of 100000 satoshi leaves that much less to claim. -/
theorem balance_conserved_sample :
    ∃ m ∈ balanceSigner.machine.final (start balanceSigner 1000000)
        settle,
      (balanceSigner.claimable m = 900000 ∧ m.node.excessAmount = 0) ∧
      ∑ _i : Fin 1, 1000000 + m.node.excessAmount ≤ balanceSigner.claimable m +
        ((balanceSigner.machine.trace (start balanceSigner 1000000)
          settle).map balanceSigner.paid).sum := by
  have hrun : ∃ m ∈ balanceSigner.machine.final (start balanceSigner 1000000)
      settle, balanceSigner.claimable m = 900000 ∧ m.node.excessAmount = 0 := by
    decide +kernel
  have hprune : ∀ event ∈ settle, ¬ event.Prunes := by decide +kernel
  obtain ⟨m, hm, hclaimable⟩ := hrun
  exact ⟨m, hm, hclaimable,
    balance_conserved (v := balanceValidator) rfl rfl rfl _ _ _ _ hprune
    (fun _ _ _ _ => .inl rfl) hm⟩

/-- A validator that enforces the balance under wide limits, in a build that wraps. -/
def Sample.wideBalanceValidator : SimpleValidator :=
  ⟨{ makeSimplePolicy .bitcoin with
      maxHtlcValueSat := 2 ^ 63, maxChannelSizeSat := 2 ^ 64 - 1, enforceBalance := true },
    .wrapping, library, checks⟩

/-- A node with two channels of more than `2 ^ 63` satoshi each, which the counterparty funds and of
which it gives 10000 satoshi to the holder. -/
def Sample.wideBalanceSigner : Node :=
  signer wideBalanceValidator { setup with
    isOutbound := false, channelValueSat := 2 ^ 63 + 30000, pushValueMsat := 10000000 } 2
    (by decide)

/-- Each channel sends an HTLC of `2 ^ 63` satoshi for one payment, which is then fulfilled. -/
def Sample.settleWrapped : List (NodeEvent 2) :=
  [holder 0 0 10000 (2 ^ 63 + 19000) [] [], holder 1 0 10000 (2 ^ 63 + 19000) [] [],
    holder 0 1 1000 28000 [htlc (2 ^ 63)] [], holder 1 1 1000 28000 [htlc (2 ^ 63)] [],
    .htlcsFulfilled 0 [0]]

/-- Where the totals wrap the balance is lost: the channels are made ready with 10000 satoshi each,
both HTLCs go out, and no invoice was approved. -/
theorem balance_lost :
    (∀ i, (wideBalanceSigner.channels i).readyChannel [] = .ok (.new 10000)) ∧
    ∃ m ∈ wideBalanceSigner.machine.final (start wideBalanceSigner 10000) settleWrapped,
      wideBalanceSigner.claimable m +
        ((wideBalanceSigner.machine.trace (start wideBalanceSigner 10000) settleWrapped).map
          wideBalanceSigner.paid).sum <
      ∑ _i : Fin 2, 10000 + m.node.excessAmount := by
  decide +kernel

end ValidatingSigner
