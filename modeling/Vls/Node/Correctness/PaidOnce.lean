import Vls.Node.Correctness.InFlight

/-!
# What leaves a node for an invoice

The ledger holds what is in flight, so it forgets what was settled.  What leaves the node for an
approved payment over a whole run stays within its amount and the routing fee as long as no update
adds to what goes out for it once its preimage has been reported.
-/

namespace ValidatingSigner

open Base NodeState Sample AList

/-- The event reports a preimage of `hash`. -/
def NodeEvent.Reports {size : Nat} (sha256 : Bytes32 → Bytes32) (hash : PaymentHash) :
    NodeEvent size → Prop
  | .htlcsFulfilled _ preimages => hash ∈ preimages.map sha256
  | _ => False

instance {size : Nat} (sha256 : Bytes32 → Bytes32) (hash : PaymentHash) :
    DecidablePred (@NodeEvent.Reports size sha256 hash)
  | .htlcsFulfilled _ preimages => inferInstanceAs (Decidable (hash ∈ preimages.map sha256))
  | .request _ _ _ => isFalse id
  | .addInvoice _ _ _ => isFalse id
  | .addKeysend _ _ _ _ _ => isFalse id
  | .signInvoice _ => isFalse id
  | .heartbeat _ => isFalse id

namespace Node

variable {N : Node} {v : SimpleValidator} {m m' : NodeMemory N.size} {event : NodeEvent N.size}
  {hash : PaymentHash} {bound : Nat} {events : List (NodeEvent N.size)}

/-! ## Settled amounts -/

/-- The steps after the first report of the preimage of `hash`. -/
def afterReport (N : Node) (hash : PaymentHash) : List (NodeEntry N.size) → List (NodeEntry N.size)
  | [] => []
  | x :: log => if x.event.Reports N.library.sha256 hash then log else afterReport N hash log

/-- What a step takes off the commitments for a payment. -/
def removed (N : Node) (hash : PaymentHash) (x : NodeEntry N.size) : Nat :=
  match x.before, x.after with
  | some m, some m' =>
    ∑ i, ((m.estates i).commitments.outgoing hash - (m'.estates i).commitments.outgoing hash)
  | _, _ => 0

/-- What is taken off the commitments for a payment once its preimage has been reported. -/
def settled (N : Node) (hash : PaymentHash) (log : List (NodeEntry N.size)) : Nat :=
  ((N.afterReport hash log).map (N.removed hash)).sum

/-- The step adds nothing to what goes out for a payment. -/
def AddsNothing (N : Node) (hash : PaymentHash) (x : NodeEntry N.size) : Prop :=
  ∀ m ∈ x.before, ∀ m' ∈ x.after, ∀ i,
    (m'.estates i).commitments.outgoing hash ≤ (m.estates i).commitments.outgoing hash

instance (N : Node) (hash : PaymentHash) : DecidablePred (N.AddsNothing hash) := fun _ =>
  inferInstanceAs (Decidable (∀ _ ∈ _, _))

/-- Where nothing is added, what is taken off and what is left is what there was. -/
theorem removed_add_outgoing (hadds : ∀ x ∈ N.machine.trace (some m) events, N.AddsNothing hash x)
    (hm' : m' ∈ N.machine.final (some m) events) :
    ((N.machine.trace (some m) events).map (N.removed hash)).sum +
      ∑ i, (m'.estates i).commitments.outgoing hash =
    ∑ i, (m.estates i).commitments.outgoing hash := by
  refine N.machine.run_induction (C := N.AddsNothing hash)
    (P := fun log state => ∀ m' ∈ state,
      (log.map (N.removed hash)).sum + ∑ i, (m'.estates i).commitments.outgoing hash =
        ∑ i, (m.estates i).commitments.outgoing hash) ?_ ?_ events hadds m' hm'
  · rintro m ⟨⟩
    exact Nat.zero_add _
  · intro log state event h hC m₂ hm₂
    obtain ⟨m₁, rfl, -⟩ := machine_step_some hm₂
    have hstep : (N.machine.step (some m₁) event).1 = some m₂ := hm₂
    have hsum : N.removed hash (N.machine.entry (some m₁) event) +
        ∑ i, (m₂.estates i).commitments.outgoing hash =
          ∑ i, (m₁.estates i).commitments.outgoing hash := by
      simp only [removed, Machine.entry_before, Machine.entry_after, hstep]
      rw [← Finset.sum_add_distrib]
      exact Finset.sum_congr rfl fun i _ => Nat.sub_add_cancel (hC m₁ rfl m₂ hm₂ i)
    rw [List.map_append, List.sum_append, List.map_singleton, List.sum_singleton, Nat.add_assoc,
      hsum]
    exact h m₁ rfl

/-! ## Before the report -/

/-- A payment whose preimage has not been reported is approved, and what goes out for it is within
the bound, or it has no trace in the node. -/
structure Unsettled (N : Node) (v : SimpleValidator) (hash : PaymentHash) (bound : Nat)
    (m : NodeMemory N.size) : Prop where
  follows : N.Follows v m
  unknown : m.node.hasPreimage hash = false
  incoming : ∀ i, hash ∉ (m.estates i).commitments.incomingHtlcs.map (·.paymentHash)
  flight : (hash ∈ m.node.invoices ∧ N.Tracked m hash ∧ InFlightWithin m hash bound) ∨
    (hash ∉ m.node.invoices ∧ hash ∉ m.node.payments ∧
      ∀ i, hash ∉ (m.estates i).commitments.outgoingHtlcs.map (·.paymentHash))

namespace Unsettled

theorem initial (N : Node) (v : SimpleValidator) (hash : PaymentHash) (bound : Nat)
    (control feeControl : VelocityControl) (values : Fin N.size → Nat) :
    N.Unsettled v hash bound (N.initial (.new control feeControl) values) where
  follows := .initial N v rfl values
  unknown := rfl
  incoming _ := List.not_mem_nil
  flight := .inr ⟨notMem_empty hash, notMem_empty hash, fun _ => List.not_mem_nil⟩

theorem outgoing_le (h : N.Unsettled v hash bound m) :
    (∑ i, (m.estates i).commitments.outgoing hash) * 1000 ≤ bound := by
  rcases h.flight with ⟨-, -, hwithin⟩ | ⟨-, -, hclear⟩
  · unfold InFlightWithin at hwithin
    rwa [Finset.sum_eq_zero fun i _ => Commitments.incoming_eq_zero (h.incoming i), Nat.zero_mul,
      Nat.zero_add] at hwithin
  · rw [Finset.sum_eq_zero fun i _ => Commitments.outgoing_eq_zero (hclear i), Nat.zero_mul]
    exact Nat.zero_le _

/-- A step that leaves the commitments and the payment alone. -/
theorem of_same (h : N.Unsettled v hash bound m) (hfollows : N.Follows v m')
    (hcommitments : ∀ i, (m'.estates i).commitments = (m.estates i).commitments)
    (hinvoices : m'.node.invoices.lookup hash = m.node.invoices.lookup hash)
    (hpayments : m'.node.payments.lookup hash = m.node.payments.lookup hash) :
    N.Unsettled v hash bound m' := by
  have hpayment : m'.node.payment hash = m.node.payment hash := by
    rw [payment, hpayments]
    rfl
  refine ⟨hfollows, ?_, fun i => hcommitments i ▸ h.incoming i, ?_⟩
  · rw [hasPreimage_eq, hpayment, ← hasPreimage_eq]
    exact h.unknown
  · rw [← lookup_isSome, ← lookup_isSome, hinvoices, hpayments, lookup_isSome,
      lookup_isSome]
    unfold Tracked InFlightWithin
    simp only [hpayment, hcommitments]
    exact h.flight

/-- Pruning an approved payment leaves no trace of it, since nothing goes out for it. -/
theorem of_pruned (h : N.Unsettled v hash bound m)
    (hroom : N.overflow = .checked ∨ (m.node.payment hash).outgoing.total < 2 ^ 64)
    {s : NodeState} (hfollows : N.Follows v { m with node := s })
    (hpruned : m.node.Pruned N.overflow s) : N.Unsettled v hash bound { m with node := s } := by
  by_cases hmem : hash ∈ s.invoices
  · have hkept : s.invoices.lookup hash = m.node.invoices.lookup hash :=
      (hpruned.invoices hash).resolve_right fun hnone => lookup_eq_none.mp hnone hmem
    exact h.of_same hfollows (fun _ => rfl) hkept (hpruned.kept hash hmem)
  · have hunknown : s.hasPreimage hash = false := by
      rw [hasPreimage_eq]
      rcases hpruned.payment_eq hash with heq | heq
      · rw [heq, ← hasPreimage_eq]
        exact h.unknown
      · rw [heq]
        rfl
    refine ⟨hfollows, hunknown, h.incoming, .inr ⟨hmem, ?_⟩⟩
    rcases h.flight with ⟨happroved, htracked, -⟩ | ⟨-, hnone, hclear⟩
    · obtain ⟨hlookup, hcomplete⟩ := hpruned.dropped hash happroved hmem
      have hunfulfilled := h.unknown
      rw [hasPreimage_eq] at hunfulfilled
      unfold isPaymentComplete at hcomplete
      rw [hunfulfilled, if_neg Bool.false_ne_true] at hcomplete
      obtain ⟨sum, hsum, hcomplete⟩ := bind_ok hcomplete
      rw [Overflow.eq_of_u64 hsum hroom, (htracked.totals h.follows).2] at hcomplete
      have hzero := Finset.sum_eq_zero_iff.mp (beq_iff_eq.mp (pure_eq_ok.mp hcomplete))
      exact ⟨lookup_eq_none.mp hlookup, fun i =>
        (h.follows.within i).notMem_outgoingHtlcs (hzero i (Finset.mem_univ i))⟩
    · refine ⟨lookup_eq_none.mp ?_, hclear⟩
      rcases hpruned.payments hash with heq | heq
      · rw [heq]
        exact lookup_eq_none.mpr hnone
      · exact heq

/-- A payment that is approved while the node has no trace of it. -/
theorem of_approved (h : N.Unsettled v hash bound m) {k : PaymentHash} {state : PaymentState}
    {s : NodeState} (hfollows : N.Follows v { m with node := s })
    (happroved : m.node.Approved k state s) : N.Unsettled v hash bound { m with node := s } := by
  by_cases hk : hash = k
  · subst hk
    obtain ⟨hnot, -, hclear⟩ := h.flight.resolve_left fun hin => happroved.new hin.1
    refine ⟨hfollows, ?_, h.incoming, .inl ⟨?_, ?_, ?_⟩⟩
    · change s.hasPreimage hash = false
      rw [hasPreimage_eq, happroved.payment_eq, ← hasPreimage_eq]
      exact h.unknown
    · change hash ∈ s.invoices
      rw [happroved.invoices]
      exact (mem_insert _).mpr (.inl rfl)
    · exact hfollows.tracked_of_clear fun i => ⟨h.incoming i, hclear i⟩
    · unfold InFlightWithin
      rw [Finset.sum_eq_zero fun i _ => Commitments.outgoing_eq_zero (hclear i), Nat.zero_mul]
      exact Nat.zero_le _
  · refine h.of_same hfollows (fun _ => rfl) ?_ ?_
    · change s.invoices.lookup hash = _
      rw [happroved.invoices, Table.lookup_insert_eq, if_neg hk]
    · change s.payments.lookup hash = _
      rw [happroved.payments]
      split_ifs
      · rfl
      · rw [Table.lookup_insert_eq, if_neg hk]

variable {newHolderTx newCounterpartyTx : Option CommitmentInfo2}

/-- A commitment update puts no HTLC in flight for a payment that the node has no trace of, unless
something comes in for it. -/
theorem clear_of_updated (hv : N.validator = v.toValidator) (hfilter : v.policy.filter = .default)
    {i : Fin N.size} {s : Session} {update : CommitmentUpdate} (hfollows : N.Follows v m)
    (hroom : N.HasRoom v hash m) (hmem : hash ∉ m.node.invoices) (hnone : hash ∉ m.node.payments)
    (hincoming : hash ∉ s.estate.commitments.incomingHtlcs.map (·.paymentHash))
    (hupdated : (N.channels i).Updated v (N.session m i) s newHolderTx newCounterpartyTx update) :
    hash ∉ s.estate.commitments.outgoingHtlcs.map (·.paymentHash) := by
  refine (hupdated.within (hfollows.within i)).notMem_outgoingHtlcs ?_
  have hch : (N.channels i).validator = v.toValidator := (N.validator_eq i).trans hv
  rcases hupdated.amounts (hfollows.within i) hash with ⟨htouched, hin, hout⟩ | ⟨-, -, -, hout⟩
  · have hgrowth := hupdated.total_outgoing_le (hfollows.within i) hash
    have hbalanced := hupdated.balanced hch hfilter htouched (.inr hnone) (hroom.imp (fun ho => by
      rw [Channel.overflow, N.validator_eq]
      exact ho) (Nat.mul_le_mul_right 1000 hgrowth).trans_lt)
    have hnew : (N.session m i).node.payment hash = .new := by
      rw [payment, Node.session, lookup_eq_none.mpr hnone]
      rfl
    have hlookup : (N.session m i).node.invoices.lookup hash = none :=
      lookup_eq_none.mpr hmem
    rw [hin, hout, hnew, hlookup] at hbalanced
    simp only [RoutedPayment.new, Table.total_insert_empty,
      Commitments.incoming_eq_zero hincoming, Option.elim_none] at hbalanced
    omega
  · exact hout

/-- A commitment update keeps what goes out for an approved payment within the bound, and puts no
HTLC in flight for a payment that the node has no trace of. -/
theorem of_updated (hv : N.validator = v.toValidator) (hfilter : v.policy.filter = .default)
    (hbalance : v.policy.enforceBalance = false) {i : Fin N.size} {s : Session}
    {update : CommitmentUpdate} (h : N.Unsettled v hash bound m) (hroom : N.HasRoom v hash m)
    (hbound : ∀ invoice ∈ m.node.invoices.lookup hash,
      invoice.amountMsat + v.policy.maxRoutingFeeMsat = bound)
    (hincoming : ∀ j, hash ∉ ((m.write i s).estates j).commitments.incomingHtlcs.map
      (·.paymentHash))
    (hupdated : (N.channels i).Updated v (N.session m i) s newHolderTx newCounterpartyTx update) :
    N.Unsettled v hash bound (m.write i s) := by
  have hfollows := h.follows.of_updated hupdated
  have hch : (N.channels i).validator = v.toValidator := (N.validator_eq i).trans hv
  have happlied := applyPayments_ok hupdated.applied
  have hunknown : s.node.hasPreimage hash = false := by
    rw [happlied.hasPreimage_eq_of_not_enforced (by rw [hch]; exact hbalance)]
    exact h.unknown
  refine ⟨hfollows, hunknown, hincoming, ?_⟩
  have hinvoices := happlied.invoices
  change (hash ∈ s.node.invoices ∧ _) ∨ (hash ∉ s.node.invoices ∧ hash ∉ s.node.payments ∧ _)
  rw [hinvoices]
  rcases h.flight with ⟨hmem, htracked, hwithin⟩ | ⟨hmem, hnone, hclear⟩
  · obtain ⟨invoice, hinvoice⟩ := Option.isSome_iff_exists.mp (lookup_isSome.mpr hmem)
    obtain rfl := hbound invoice hinvoice
    exact .inl ⟨hmem, htracked.of_updated (h.follows.within i) hupdated,
      hwithin.of_updated hv hfilter h.follows htracked hinvoice hroom hupdated⟩
  · have hnew (j : Fin N.size) :
        hash ∉ ((m.write i s).estates j).commitments.outgoingHtlcs.map (·.paymentHash) := by
      have hin := hincoming j
      rw [estates_write] at hin ⊢
      split_ifs at hin ⊢
      · exact clear_of_updated hv hfilter h.follows hroom hmem hnone hin hupdated
      · exact hclear j
    have hself : (m.write i s).estates i = s.estate := by rw [estates_write, if_pos rfl]
    have hnot := hupdated.notMem_summaryHashes ⟨h.incoming i, hclear i⟩
      ⟨hself ▸ hincoming i, hself ▸ hnew i⟩
    refine .inr ⟨hmem, ?_, hnew⟩
    rw [← lookup_eq_none, happlied.outside hash hnot]
    exact lookup_eq_none.mpr hnone

/-- A step that does not report the preimage of the payment. -/
theorem step (hv : N.validator = v.toValidator) (hfilter : v.policy.filter = .default)
    (hbalance : v.policy.enforceBalance = false) (h : N.Unsettled v hash bound m)
    (hroom : N.HasRoom v hash m)
    (hbound : ∀ invoice ∈ m'.node.invoices.lookup hash,
      invoice.amountMsat + v.policy.maxRoutingFeeMsat = bound)
    (hincoming : ∀ i, hash ∉ (m'.estates i).commitments.incomingHtlcs.map (·.paymentHash))
    (hreport : ¬ event.Reports N.library.sha256 hash) (hchanged : N.Changed v m event m') :
    N.Unsettled v hash bound m' := by
  have hfollows := h.follows.step hchanged
  cases hchanged with
  | kept hledger hcommitments _ =>
    exact h.of_same hfollows hcommitments (by rw [hledger.invoices]) (by rw [hledger.payments])
  | updated hupdated =>
    have hinvoices := (applyPayments_ok hupdated.applied).invoices
    refine of_updated hv hfilter hbalance h hroom (fun invoice hinvoice => ?_) hincoming hupdated
    exact hbound invoice (hinvoices ▸ hinvoice)
  | @fulfilled _ preimages s hful =>
    have hsame := htlcsFulfilled_induction (P := fun s =>
      s.invoices.lookup hash = m.node.invoices.lookup hash ∧
        s.payments.lookup hash = m.node.payments.lookup hash)
      (fun s s' preimage hmem hs hful => ?_) ⟨rfl, rfl⟩ hful
    · exact h.of_same hfollows (fun _ => rfl) hsame.1 hsame.2
    · have hne : hash ≠ N.library.sha256 preimage := fun heq =>
        hreport (List.mem_map.mpr ⟨preimage, hmem, heq.symm⟩)
      rw [hful.invoices, hful.payments, Table.lookup_insert_eq, if_neg hne]
      exact hs
  | approved _ happroved => exact h.of_approved hfollows happroved
  | issued hinvoices hpayments _ =>
    exact h.of_same hfollows (fun _ => rfl) (by rw [hinvoices]) (by rw [hpayments])
  | pruned hpruned =>
    refine h.of_pruned (hroom.imp_right fun hlt => ?_) hfollows hpruned
    omega

end Unsettled

/-! ## Runs -/

/-- Reporting preimages moves no commitment. -/
theorem Changed.commitments_of_reports (h : N.Changed v m event m')
    (hreport : event.Reports N.library.sha256 hash) (i : Fin N.size) :
    (m'.estates i).commitments = (m.estates i).commitments := by
  cases h with
  | kept _ hcommitments _ => exact hcommitments i
  | updated _ => exact hreport.elim
  | fulfilled _ => rfl
  | approved _ _ => rfl
  | issued _ _ _ => rfl
  | pruned _ => rfl

theorem machine_final_none (N : Node) (events : List (NodeEvent N.size)) :
    N.machine.final none events = none := by
  induction events with
  | nil => rfl
  | cons event events ih => exact ih

/-- A run from a state in which the payment is unsettled. -/
theorem settled_le (hv : N.validator = v.toValidator) (hfilter : v.policy.filter = .default)
    (hbalance : v.policy.enforceBalance = false)
    (hlimits : (N.size + 1) * v.policy.maxHtlcValueSat * 1000 < 2 ^ 64)
    (h : N.Unsettled v hash bound m)
    (hbound : ∀ x ∈ N.machine.trace (some m) events, ∀ m' ∈ x.after,
      ∀ invoice ∈ m'.node.invoices.lookup hash,
        invoice.amountMsat + v.policy.maxRoutingFeeMsat = bound)
    (hincoming : ∀ x ∈ N.machine.trace (some m) events, ∀ m' ∈ x.after,
      ∀ i, hash ∉ (m'.estates i).commitments.incomingHtlcs.map (·.paymentHash))
    (hadds : ∀ x ∈ N.afterReport hash (N.machine.trace (some m) events), N.AddsNothing hash x)
    (hm' : m' ∈ N.machine.final (some m) events) :
    (N.settled hash (N.machine.trace (some m) events) +
      ∑ i, (m'.estates i).commitments.outgoing hash) * 1000 ≤ bound := by
  induction events generalizing m with
  | nil =>
    cases hm'
    change (0 + _) * 1000 ≤ bound
    rw [Nat.zero_add]
    exact h.outgoing_le
  | cons event events ih =>
    change m' ∈ N.machine.final (N.machine.step (some m) event).1 events at hm'
    rw [N.machine.trace_cons] at hbound hincoming hadds ⊢
    cases hstate : (N.machine.step (some m) event).1 with
    | none =>
      rw [hstate, N.machine_final_none] at hm'
      exact nomatch hm'
    | some m₁ =>
      have hchanged := step_changed hv hfilter hstate
      rw [hstate] at hbound hincoming hadds hm'
      rw [settled]
      -- After the report nothing is added, so what was in flight only moves to what was removed.
      by_cases hreport : event.Reports N.library.sha256 hash
      · rw [afterReport, N.machine.entry_event, if_pos hreport] at hadds ⊢
        rw [removed_add_outgoing hadds hm']
        simp only [hchanged.commitments_of_reports hreport]
        exact h.outgoing_le
      · rw [afterReport, N.machine.entry_event, if_neg hreport] at hadds ⊢
        have hself := List.mem_cons_self (a := N.machine.entry (some m) event)
          (l := N.machine.trace (some m₁) events)
        refine ih (h.step hv hfilter hbalance (h.follows.hasRoom hash hlimits)
          (hbound _ hself m₁ hstate) (hincoming _ hself m₁ hstate) hreport hchanged)
          (fun x hx => hbound x (List.mem_cons_of_mem _ hx))
          (fun x hx => hincoming x (List.mem_cons_of_mem _ hx)) hadds hm'

end Node

/-- Under the default policy, what leaves a node over a whole run for a payment with one invoice and
no incoming HTLCs is within the amount of the invoice and the routing fee, provided that no update
adds to what goes out for the payment after its preimage has been reported. -/
theorem invoice_paid_once {N : Node} {v : SimpleValidator} {network : Network}
    (hv : N.validator = v.toValidator) (hdefault : v.policy = makeSimplePolicy network)
    (hpolicy : N.policy = v.policy) (control feeControl : VelocityControl)
    (values : Fin N.size → Nat) (events : List (NodeEvent N.size)) {hash : PaymentHash}
    {amountMsat : Nat}
    (hinvoice : ∀ x ∈ N.machine.trace (some (N.initial (.new control feeControl) values)) events,
      ∀ m ∈ x.after, ∀ invoice ∈ m.node.invoices.lookup hash, invoice.amountMsat = amountMsat)
    (hincoming : ∀ x ∈ N.machine.trace (some (N.initial (.new control feeControl) values)) events,
      ∀ m ∈ x.after, ∀ i, hash ∉ (m.estates i).commitments.incomingHtlcs.map (·.paymentHash))
    (hadds : ∀ x ∈ N.afterReport hash
      (N.machine.trace (some (N.initial (.new control feeControl) values)) events),
        N.AddsNothing hash x)
    {m : NodeMemory N.size}
    (hm : m ∈ N.machine.final (some (N.initial (.new control feeControl) values)) events) :
    (N.settled hash (N.machine.trace (some (N.initial (.new control feeControl) values)) events) +
      ∑ i, (m.estates i).commitments.outgoing hash) * 1000 ≤
        amountMsat + v.policy.maxRoutingFeeMsat := by
  have hsize := N.size_le
  rw [hpolicy] at hsize
  obtain ⟨hfilter, hbalance, hlimit, hchannels⟩ : v.policy.filter = .default ∧
      v.policy.enforceBalance = false ∧ v.policy.maxHtlcValueSat = 16777216 ∧
      v.policy.maxChannels = 1000 := by
    rw [hdefault]
    cases network <;> exact ⟨rfl, rfl, rfl, rfl⟩
  refine Node.settled_le hv hfilter hbalance (by rw [hlimit]; omega)
    (.initial N v hash _ control feeControl values) (fun x hx m' hm' invoice hlookup => ?_)
    hincoming hadds hm
  rw [hinvoice x hx m' hm' invoice hlookup]

/-- An invoice of 100000 satoshi is approved and paid over a channel, and its HTLC is taken off the
commitment once the preimage is known. -/
def Sample.payOnce : List (NodeEvent 1) :=
  [.addInvoice true 0 (invoice 100000000), holder 0 0 999000 0 [] [],
    holder 0 1 898500 0 [htlc 100000] [], .htlcsFulfilled 0 [0], holder 0 2 899000 100000 [] []]

/-- The bound at work: what leaves the node is the amount of the invoice. -/
theorem invoice_paid_once_sample :
    ∃ m ∈ oneChannel.machine.final (start oneChannel 1000000) payOnce,
      oneChannel.settled 0 (oneChannel.machine.trace
        (start oneChannel 1000000) payOnce) = 100000 ∧
      (oneChannel.settled 0 (oneChannel.machine.trace
          (start oneChannel 1000000) payOnce) +
        ∑ i, (m.estates i).commitments.outgoing 0) * 1000 ≤
          100000000 + (validator .wrapping).policy.maxRoutingFeeMsat := by
  have htrace : ∀ x ∈ oneChannel.machine.trace (start oneChannel 1000000)
      payOnce, ∀ m ∈ x.after,
        (∀ invoice ∈ m.node.invoices.lookup 0, invoice.amountMsat = 100000000) ∧
          ∀ i, 0 ∉ (m.estates i).commitments.incomingHtlcs.map (·.paymentHash) := by
    decide +kernel
  have hadds : ∀ x ∈ oneChannel.afterReport 0 (oneChannel.machine.trace
      (start oneChannel 1000000) payOnce),
        oneChannel.AddsNothing 0 x := by
    decide +kernel
  have hrun : ∃ m ∈ oneChannel.machine.final (start oneChannel 1000000)
      payOnce, oneChannel.settled 0 (oneChannel.machine.trace
        (start oneChannel 1000000) payOnce) = 100000 := by
    decide +kernel
  have hdefault : (validator .wrapping).policy = makeSimplePolicy .bitcoin := rfl
  obtain ⟨m, hm, hsettled⟩ := hrun
  exact ⟨m, hm, hsettled, invoice_paid_once rfl hdefault rfl _ _ _ _
    (fun x hx m hm => (htrace x hx m hm).1)
    (fun x hx m hm => (htrace x hx m hm).2) hadds hm⟩

/-- The invoice is paid, and once its HTLC has been settled the same HTLC is sent again. -/
def Sample.payTwice : List (NodeEvent 1) := payOnce ++ [holder 0 3 798500 100000 [htlc 100000] []]

/-- An invoice of 100000 satoshi is paid twice: the ledger has forgotten what was settled. -/
theorem invoice_paid_twice :
    (∀ x ∈ oneChannel.machine.trace (start oneChannel 1000000)
      payTwice, ∀ m ∈ x.after,
        (∀ invoice ∈ m.node.invoices.lookup 0, invoice.amountMsat = 100000000) ∧
          ∀ i, 0 ∉ (m.estates i).commitments.incomingHtlcs.map (·.paymentHash)) ∧
    ∃ m ∈ oneChannel.machine.final (start oneChannel 1000000) payTwice,
      100000000 + (validator .wrapping).policy.maxRoutingFeeMsat <
        (oneChannel.settled 0 (oneChannel.machine.trace
            (start oneChannel 1000000) payTwice) +
          ∑ i, (m.estates i).commitments.outgoing 0) * 1000 := by
  decide +kernel

end ValidatingSigner
