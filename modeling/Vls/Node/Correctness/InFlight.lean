import Vls.Node.Invariant

/-!
# What is in flight for an invoice

Once a payment is approved and before any HTLC for it, what goes out for it over all channels stays
within what comes in, the amount of the invoice and the routing fee that the policy allows.
-/

namespace ValidatingSigner

open Base Sample

namespace Node

variable {N : Node} {v : SimpleValidator} {m m' : NodeMemory N.size} {event : NodeEvent N.size}
  {hash : PaymentHash}

/-! ## Approved payments -/

/-- A served event keeps an approved payment as it is, or prunes it. -/
theorem Changed.lookup_invoices (h : N.Changed v m event m') {invoice : PaymentState}
    (hinvoice : m.node.invoices.lookup hash = some invoice) :
    m'.node.invoices.lookup hash = some invoice ∨ m'.node.invoices.lookup hash = none := by
  cases h with
  | kept hledger => exact .inl (hledger.invoices ▸ hinvoice)
  | updated h => exact .inl ((NodeState.applyPayments_ok h.applied).invoices ▸ hinvoice)
  | fulfilled h =>
    left
    exact NodeState.htlcsFulfilled_induction (P := fun s => s.invoices.lookup hash = some invoice)
      (fun s s' preimage _ hs hful => hful.invoices ▸ hs) hinvoice h
  | approved _ h =>
    left
    rw [h.invoices, Table.lookup_insert_eq, if_neg, hinvoice]
    rintro rfl
    exact h.new (AList.lookup_isSome.mp (by rw [hinvoice]; rfl))
  | issued hinvoices => exact .inl (hinvoices ▸ hinvoice)
  | pruned h =>
    rcases h.invoices hash with h | h
    · exact .inl (h.trans hinvoice)
    · exact .inr h

/-- A payment without HTLCs is tracked. -/
theorem Follows.tracked_of_clear (h : N.Follows v m)
    (hclear : ∀ i, hash ∉ (m.estates i).commitments.incomingHtlcs.map (·.paymentHash) ∧
      hash ∉ (m.estates i).commitments.outgoingHtlcs.map (·.paymentHash)) :
    N.Tracked m hash := by
  intro i
  have hin := Commitments.incoming_eq_zero (hclear i).1
  have hout := Commitments.outgoing_eq_zero (hclear i).2
  have hfi := h.incoming hash i
  have hfo := h.outgoing hash i
  rw [hin] at hfi
  rw [hout] at hfo
  rw [hin, hout, Table.amount, Table.amount]
  constructor
  · rcases hfi with h | h <;> rw [h] <;> rfl
  · rcases hfo with h | h <;> rw [h] <;> rfl

/-! ## The bound -/

/-- What goes out for a payment is within what comes in and `bound`, in millisatoshi. -/
def InFlightWithin (m : NodeMemory N.size) (hash : PaymentHash) (bound : Nat) : Prop :=
  (∑ i, (m.estates i).commitments.outgoing hash) * 1000 ≤
    (∑ i, (m.estates i).commitments.incoming hash) * 1000 + bound

/-- Overflow is checked, or what the ledger holds as outgoing for a payment is a machine word in
millisatoshi even with one more commitment's worth. -/
def HasRoom (N : Node) (v : SimpleValidator) (hash : PaymentHash) (m : NodeMemory N.size) : Prop :=
  N.overflow = .checked ∨
    ((m.node.payment hash).outgoing.total + v.policy.maxHtlcValueSat) * 1000 < 2 ^ 64

instance (N : Node) (v : SimpleValidator) (hash : PaymentHash) (m : NodeMemory N.size) :
    Decidable (N.HasRoom v hash m) :=
  inferInstanceAs (Decidable (_ ∨ _))

theorem Follows.hasRoom (h : N.Follows v m) (hash : PaymentHash)
    (hlimits : (N.size + 1) * v.policy.maxHtlcValueSat * 1000 < 2 ^ 64) : N.HasRoom v hash m := by
  right
  rw [Nat.add_mul N.size 1, Nat.one_mul] at hlimits
  exact (Nat.mul_le_mul_right 1000
    (Nat.add_le_add_right (h.total_outgoing_le hash) _)).trans_lt hlimits

theorem InFlightWithin.of_still {bound : Nat} (h : InFlightWithin m hash bound)
    (hstill : Still m m') : InFlightWithin m' hash bound := by
  unfold InFlightWithin at h ⊢
  simp only [hstill.commitments]
  exact h

/-- Replacing the amounts of one channel where it has none changes no sum. -/
theorem sum_write_of_zero {f : Commitments → Nat} {i : Fin N.size} {s : Session}
    (hold : f (m.estates i).commitments = 0) (hnew : f s.estate.commitments = 0) :
    ∑ j, f ((m.write i s).estates j).commitments = ∑ j, f (m.estates j).commitments := by
  refine Finset.sum_congr rfl fun j _ => ?_
  rw [estates_write]
  split_ifs with hj
  · rw [hj, hold, hnew]
  · rfl

/-- An update keeps what is in flight within the bound of the approved payment. -/
theorem InFlightWithin.of_updated (hv : N.validator = v.toValidator)
    (hfilter : v.policy.filter = .default) {invoice : PaymentState} {i : Fin N.size} {s : Session}
    {newHolderTx newCounterpartyTx : Option CommitmentInfo2} {update : CommitmentUpdate}
    (h : InFlightWithin m hash (invoice.amountMsat + v.policy.maxRoutingFeeMsat))
    (hfollows : N.Follows v m) (htracked : N.Tracked m hash)
    (hinvoice : m.node.invoices.lookup hash = some invoice) (hroom : N.HasRoom v hash m)
    (hupdated : (N.channels i).Updated v (N.session m i) s newHolderTx newCounterpartyTx update) :
    InFlightWithin (m.write i s) hash (invoice.amountMsat + v.policy.maxRoutingFeeMsat) := by
  have hch : (N.channels i).validator = v.toValidator := (N.validator_eq i).trans hv
  have htotals := (htracked.of_updated (hfollows.within i) hupdated).totals
    (hfollows.of_updated hupdated)
  rcases hupdated.amounts (hfollows.within i) hash with ⟨hmem, -⟩ |
    ⟨-, ⟨hinOld, houtOld⟩, hin, hout⟩
  · have hgrowth := hupdated.total_outgoing_le (hfollows.within i) hash
    have hfit : (N.channels i).overflow = .checked ∨
        (s.node.payment hash).outgoing.total * 1000 < 2 ^ 64 := by
      refine hroom.imp (fun ho => ?_) (Nat.mul_le_mul_right 1000 hgrowth).trans_lt
      rw [Channel.overflow, N.validator_eq]
      exact ho
    have hmemInvoices : hash ∈ (N.session m i).node.invoices :=
      AList.lookup_isSome.mp (by rw [Node.session, hinvoice]; rfl)
    have hbalanced := hupdated.balanced hch hfilter hmem (.inl hmemInvoices) hfit
    have hlookup : (N.session m i).node.invoices.lookup hash = some invoice := hinvoice
    rw [hlookup, Option.elim_some] at hbalanced
    unfold InFlightWithin
    rw [← htotals.1, ← htotals.2]
    exact hbalanced
  · unfold InFlightWithin at h ⊢
    rw [sum_write_of_zero (f := fun c => c.outgoing hash) houtOld hout,
      sum_write_of_zero (f := fun c => c.incoming hash) hinOld hin]
    exact h

/-! ## Runs -/

theorem machine_step_some {state : Option (NodeMemory N.size)}
    (h : (N.machine.step state event).1 = some m') :
    ∃ m, state = some m ∧ (N.step (some m) event).1 = some m' := by
  cases state with
  | none => exact nomatch h
  | some m => exact ⟨m, rfl, h⟩

/-- In every run the ledger follows the commitments. -/
theorem follows_of_run (hv : N.validator = v.toValidator) (hfilter : v.policy.filter = .default)
    (control feeControl : VelocityControl) (values : Fin N.size → Nat)
    (events : List (NodeEvent N.size)) :
    ∀ m ∈ N.machine.final (some (N.initial (.new control feeControl) values)) events,
      N.Follows v m := by
  refine N.machine.final_induction (C := fun _ => True)
    (P := fun state => ∀ m ∈ state, N.Follows v m) ?_ ?_ events fun _ _ => trivial
  · rintro m ⟨⟩
    exact .initial N v rfl values
  · intro state event h _ m' hm'
    obtain ⟨m, rfl, hstep⟩ := machine_step_some hm'
    exact (h m rfl).step (step_changed hv hfilter hstep)

end Node

/-- From the time a payment is approved while no HTLC is for it, until it is pruned, what goes out
for it over all channels is within what comes in, its amount and the routing fee, provided that the
totals of the ledger leave room in a machine word. -/
theorem invoice_in_flight_bound {N : Node} {v : SimpleValidator} (hv : N.validator = v.toValidator)
    (hfilter : v.policy.filter = .default) (control feeControl : VelocityControl)
    (values : Fin N.size → Nat) (before after : List (NodeEvent N.size))
    {m₀ m : NodeMemory N.size} {hash : PaymentHash} {invoice : PaymentState}
    (hm₀ : m₀ ∈ N.machine.final (some (N.initial (.new control feeControl) values)) before)
    (hinvoice : m₀.node.invoices.lookup hash = some invoice)
    (hclear : ∀ i, hash ∉ (m₀.estates i).commitments.incomingHtlcs.map (·.paymentHash) ∧
      hash ∉ (m₀.estates i).commitments.outgoingHtlcs.map (·.paymentHash))
    (hkept : ∀ x ∈ N.machine.trace (some m₀) after, ∀ m' ∈ x.after, hash ∈ m'.node.invoices)
    (hroom : ∀ x ∈ N.machine.trace (some m₀) after, ∀ m' ∈ x.before, N.HasRoom v hash m')
    (hm : m ∈ N.machine.final (some m₀) after) :
    (∑ i, (m.estates i).commitments.outgoing hash) * 1000 ≤
      (∑ i, (m.estates i).commitments.incoming hash) * 1000 +
        (invoice.amountMsat + v.policy.maxRoutingFeeMsat) := by
  have hstart := Node.follows_of_run hv hfilter control feeControl values before m₀ hm₀
  have hinv := N.machine.final_induction
    (C := fun x => (∀ m' ∈ x.after, hash ∈ m'.node.invoices) ∧
      ∀ m' ∈ x.before, N.HasRoom v hash m')
    (P := fun state => ∀ m ∈ state, N.Follows v m ∧ N.Tracked m hash ∧
      m.node.invoices.lookup hash = some invoice ∧
      Node.InFlightWithin m hash (invoice.amountMsat + v.policy.maxRoutingFeeMsat))
    ?_ ?_ after (fun x hx => ⟨hkept x hx, hroom x hx⟩)
  · exact (hinv m hm).2.2.2
  · rintro m ⟨⟩
    refine ⟨hstart, hstart.tracked_of_clear hclear, hinvoice, ?_⟩
    unfold Node.InFlightWithin
    rw [Finset.sum_eq_zero fun i _ => Commitments.outgoing_eq_zero (hclear i).2, Nat.zero_mul]
    exact Nat.zero_le _
  · intro state event h hC m' hm'
    obtain ⟨m, rfl, hstep⟩ := Node.machine_step_some hm'
    obtain ⟨hfollows, htracked, hlookup, hbound⟩ := h m rfl
    have hchanged := Node.step_changed hv hfilter hstep
    have hmem := hC.1 m' hm'
    refine ⟨hfollows.step hchanged, htracked.step hfollows hchanged (.inl hmem), ?_, ?_⟩
    · refine (hchanged.lookup_invoices hlookup).resolve_right fun hnone => ?_
      exact AList.lookup_eq_none.mp hnone hmem
    · rcases hchanged.still_or_updated with ⟨hstill, -⟩ | ⟨i, s, _, _, update, rfl, hupdated⟩
      · exact hbound.of_still hstill
      · exact hbound.of_updated hv hfilter hfollows htracked hlookup (hC.2 m rfl) hupdated

/-- An HTLC of 100000 satoshi is added to the holder's commitment. -/
def Sample.pay : List (NodeEvent 1) :=
  [holder 0 0 999000 0 [] [], holder 0 1 898500 0 [htlc 100000] []]

/-- The bound at work: an invoice of 100000 satoshi is approved and then paid over a channel. -/
theorem invoice_in_flight_bound_sample :
    ∃ m₀ ∈ oneChannel.machine.final (start oneChannel 1000000)
        [.addInvoice true 0 (invoice 100000000)],
      ∃ m ∈ oneChannel.machine.final (some m₀) pay,
        (∑ i, (m.estates i).commitments.outgoing 0) = 100000 ∧
          (∑ i, (m.estates i).commitments.outgoing 0) * 1000 ≤
            (∑ i, (m.estates i).commitments.incoming 0) * 1000 +
              ((paymentStateFromInvoice (invoice 100000000)).amountMsat +
                (validator .wrapping).policy.maxRoutingFeeMsat) := by
  have hrun : ∃ m₀ ∈ oneChannel.machine.final (start oneChannel 1000000)
        [.addInvoice true 0 (invoice 100000000)],
      m₀.node.invoices.lookup 0 = some (paymentStateFromInvoice (invoice 100000000)) ∧
      (∀ i, 0 ∉ (m₀.estates i).commitments.incomingHtlcs.map (·.paymentHash) ∧
        0 ∉ (m₀.estates i).commitments.outgoingHtlcs.map (·.paymentHash)) ∧
      (∀ x ∈ oneChannel.machine.trace (some m₀) pay,
        (∀ m' ∈ x.after, 0 ∈ m'.node.invoices) ∧
          ∀ m' ∈ x.before, oneChannel.HasRoom (validator .wrapping) 0 m') ∧
      ∃ m ∈ oneChannel.machine.final (some m₀) pay,
        (∑ i, (m.estates i).commitments.outgoing 0) = 100000 := by
    decide +kernel
  obtain ⟨m₀, hm₀, hinvoice, hclear, htrace, m, hm, hsum⟩ := hrun
  exact ⟨m₀, hm₀, m, hm, hsum, invoice_in_flight_bound (v := validator .wrapping) rfl rfl _ _
    _ _ _ hm₀ hinvoice hclear (fun x hx => (htrace x hx).1) (fun x hx => (htrace x hx).2) hm⟩

/-- In every run the ledger holds for a payment what the commitments of all channels hold for it,
provided that the payment is approved after each heartbeat. -/
theorem ledger_totals_exact {N : Node} {v : SimpleValidator} (hv : N.validator = v.toValidator)
    (hfilter : v.policy.filter = .default) (control feeControl : VelocityControl)
    (values : Fin N.size → Nat) (events : List (NodeEvent N.size)) {m : NodeMemory N.size}
    {hash : PaymentHash}
    (hkept : ∀ x ∈ N.machine.trace (some (N.initial (.new control feeControl) values)) events,
      ∀ m' ∈ x.after, hash ∈ m'.node.invoices ∨ ¬ x.event.Prunes)
    (hm : m ∈ N.machine.final (some (N.initial (.new control feeControl) values)) events) :
    (m.node.payment hash).incoming.total = ∑ i, (m.estates i).commitments.incoming hash ∧
      (m.node.payment hash).outgoing.total = ∑ i, (m.estates i).commitments.outgoing hash := by
  have hinv := N.machine.final_induction
    (C := fun x => ∀ m' ∈ x.after, hash ∈ m'.node.invoices ∨ ¬ x.event.Prunes)
    (P := fun state => ∀ m ∈ state, N.Follows v m ∧ N.Tracked m hash) ?_ ?_ events hkept
  · obtain ⟨hfollows, htracked⟩ := hinv m hm
    exact htracked.totals hfollows
  · rintro m ⟨⟩
    exact ⟨.initial N v rfl values, fun i => ⟨rfl, rfl⟩⟩
  · intro state event h hC m' hm'
    obtain ⟨m, rfl, hstep⟩ := Node.machine_step_some hm'
    obtain ⟨hfollows, htracked⟩ := h m rfl
    have hchanged := Node.step_changed hv hfilter hstep
    exact ⟨hfollows.step hchanged, htracked.step hfollows hchanged (hC m' hm')⟩

/-- The ledger holds an HTLC that goes out for an approved payment. -/
theorem ledger_totals_exact_sample :
    ∃ m ∈ oneChannel.machine.final (start oneChannel 1000000)
        (.addInvoice true 0 (invoice 100000000) :: pay ++ [.heartbeat 0]),
      ∑ i, (m.estates i).commitments.outgoing 0 = 100000 ∧
        (m.node.payment 0).outgoing.total = ∑ i, (m.estates i).commitments.outgoing 0 := by
  have hrun : (∀ x ∈ oneChannel.machine.trace (start oneChannel 1000000)
        (.addInvoice true 0 (invoice 100000000) :: pay ++ [.heartbeat 0]),
      ∀ m' ∈ x.after, 0 ∈ m'.node.invoices ∨ ¬ x.event.Prunes) ∧
      ∃ m ∈ oneChannel.machine.final (start oneChannel 1000000)
        (.addInvoice true 0 (invoice 100000000) :: pay ++ [.heartbeat 0]),
        ∑ i, (m.estates i).commitments.outgoing 0 = 100000 := by
    decide +kernel
  obtain ⟨hkept, m, hm, hsum⟩ := hrun
  exact ⟨m, hm, hsum, (ledger_totals_exact (v := validator .wrapping) rfl rfl _ _ _ _ hkept hm).2⟩

/-- A validator whose policy sets wide limits on HTLCs and channels, in a build that wraps. -/
def Sample.wideValidator : SimpleValidator :=
  ⟨{ makeSimplePolicy .bitcoin with maxHtlcValueSat := 2 ^ 63, maxChannelSizeSat := 2 ^ 63 },
    .wrapping, library, checks⟩

/-- A node with one channel larger than `2 ^ 64` millisatoshi. -/
def Sample.wideSigner : Node :=
  signer wideValidator { setup with channelValueSat := 18446744073711552 } 1 (by decide)

/-- Two HTLCs of more than `2 ^ 63` millisatoshi each are added to the holder's commitment. -/
def Sample.payWrapped : List (NodeEvent 1) :=
  [holder 0 0 18446744073710552 0 [] [],
    holder 0 1 0 0 [htlc 9223372036854776, htlc 9223372036854776] []]

/-- Where the total wraps the bound fails: both HTLCs go out for an approved invoice of one
satoshi. -/
theorem invoice_in_flight_exceeded :
    ∃ m₀ ∈ wideSigner.machine.final (start wideSigner 18446744073711552)
        [.addInvoice true 0 (invoice 1000)],
      m₀.node.invoices.lookup 0 = some (paymentStateFromInvoice (invoice 1000)) ∧
      (∀ i, 0 ∉ (m₀.estates i).commitments.incomingHtlcs.map (·.paymentHash) ∧
        0 ∉ (m₀.estates i).commitments.outgoingHtlcs.map (·.paymentHash)) ∧
      (∀ x ∈ wideSigner.machine.trace (some m₀) payWrapped,
        ∀ m' ∈ x.after, 0 ∈ m'.node.invoices) ∧
      ∃ m ∈ wideSigner.machine.final (some m₀) payWrapped,
        (∑ i, (m.estates i).commitments.incoming 0) * 1000 + (1000 + 10000) <
          (∑ i, (m.estates i).commitments.outgoing 0) * 1000 := by
  decide +kernel

end ValidatingSigner
