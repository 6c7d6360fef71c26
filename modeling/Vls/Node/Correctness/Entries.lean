import Vls.Node.Host

/-!
# Every approved payment has a ledger entry

Whatever a node serves, prunes or restores, each approved payment has an entry in the ledger.  So
pruning never misses one; it aborts only when the time at which an approved payment may go, or the
sum of what the payment sends, is out of range.
-/

namespace ValidatingSigner

open Base NodeState AList

/-! ## Entries -/

namespace NodeState

variable {o : Overflow} {v : Validator} {s s' : NodeState}

/-- Every approved payment has a ledger entry. -/
def Entered (s : NodeState) : Prop := ∀ hash ∈ s.invoices, hash ∈ s.payments

variable (h : s.Entered)

include h

/-- A change that approves nothing and drops entries only of payments no longer approved. -/
theorem Entered.of_kept (hinvoices : ∀ hash ∈ s'.invoices, hash ∈ s.invoices)
    (hpayments : ∀ hash ∈ s'.invoices, hash ∈ s.payments → hash ∈ s'.payments) : s'.Entered :=
  fun hash hmem => hpayments hash hmem (h hash (hinvoices hash hmem))

theorem Entered.of_eq (hinvoices : s'.invoices = s.invoices)
    (hpayments : ∀ hash ∈ s.payments, hash ∈ s'.payments) : s'.Entered :=
  h.of_kept (fun _ hmem => hinvoices ▸ hmem) fun hash _ => hpayments hash

theorem Entered.added {now : Nat} {hash : PaymentHash} {state : PaymentState} {added : Bool}
    (hadded : s.Added o now hash state added s') : s'.Entered := by
  rcases hadded.ledger with hsame | happroved
  · exact h.of_eq hsame.invoices fun hash hmem => hsame.payments ▸ hmem
  · intro k hmem
    rw [happroved.invoices, mem_insert] at hmem
    rw [happroved.payments]
    by_cases hknown : hash ∈ s.payments
    · rw [if_pos hknown]
      rcases hmem with rfl | hmem
      · exact hknown
      · exact h k hmem
    · rw [if_neg hknown, mem_insert]
      exact hmem.imp_right (h k)

theorem Entered.htlcsFulfilled {sha256 : Bytes32 → Bytes32} {preimages : List PaymentPreimage}
    (hfulfilled : htlcsFulfilled o v sha256 s preimages = .ok s') : s'.Entered := by
  refine htlcsFulfilled_induction (P := Entered) (fun s s' preimage _ h hful => ?_) h hfulfilled
  refine h.of_eq hful.invoices fun hash hmem => ?_
  rw [hful.payments, mem_insert]
  exact .inr hmem

theorem Entered.pruned (hpruned : s.Pruned o s') : s'.Entered := by
  refine h.of_kept (fun hash hmem => ?_) fun hash hmem hentry => ?_
  · rw [← lookup_isSome] at hmem ⊢
    rcases hpruned.invoices hash with heq | hnone
    · rwa [heq] at hmem
    · rw [hnone] at hmem
      cases hmem
  · rw [← lookup_isSome, hpruned.kept hash hmem]
    exact lookup_isSome.mpr hentry

theorem Entered.pruneForwardedPayments (hprune : s.pruneForwardedPayments o = .ok s') :
    s'.Entered := by
  obtain ⟨hinvoices, -, hpayments⟩ := pruneForwardedPayments_ok hprune
  refine h.of_kept (fun hash hmem => hinvoices ▸ hmem) fun hash hmem hentry => ?_
  rcases hpayments hash with heq | ⟨hnot, -⟩
  · rw [← lookup_isSome, heq]
    exact lookup_isSome.mpr hentry
  · exact absurd (hinvoices ▸ hmem) hnot

theorem Entered.restorePayments {channelId : ChannelId} {e : EnforcementState}
    (hrestore : s.restorePayments o channelId e = .ok s') : s'.Entered := by
  obtain ⟨incoming, outgoing, -, -, heq, hlookup⟩ := restorePayments_ok hrestore
  refine h.of_eq (by rw [heq]) fun hash hmem => ?_
  rw [← lookup_isSome, hlookup]
  split_ifs
  · rfl
  · exact lookup_isSome.mpr hmem

end NodeState

/-! ## Runs -/

/-- What can happen to the ledger of a host: an event of the host, or one of the prunings of a
heartbeat on its own. -/
inductive LedgerEvent (size : Nat) where
  | host (event : HostEvent size)
  | pruneInvoices (now : Nat)
  | pruneIssuedInvoices (now : Nat)
  | pruneForwardedPayments
  deriving DecidableEq

namespace Node

variable (N : Node)

/-- Prune the ledger of a running node. -/
def pruneStep (host : NodeHost N.size) (prune : NodeState → Result NodeState) :
    NodeHost N.size × Result HostReply :=
  match host.memory with
  | none => (host, .error (.abort "the signer is not running"))
  | some m =>
    match prune m.node with
    | .ok s => ({ host with memory := some { m with node := s } }, .ok (.node .heartbeat))
    | .error fault => ({ host with memory := none }, .error fault)

/-- One event in the life of a ledger. -/
def ledgerStep (host : NodeHost N.size) : LedgerEvent N.size → NodeHost N.size × Result HostReply
  | .host event => N.hostStep host event
  | .pruneInvoices now => N.pruneStep host fun s => s.pruneInvoices N.overflow now
  | .pruneIssuedInvoices now => N.pruneStep host fun s => s.pruneIssuedInvoices now
  | .pruneForwardedPayments => N.pruneStep host fun s => s.pruneForwardedPayments N.overflow

/-- The host of a ledger as a machine. -/
def ledgerMachine : Machine (NodeHost N.size) (LedgerEvent N.size) (Result HostReply) :=
  ⟨N.ledgerStep⟩

variable {N}

theorem Moved.entered {event : NodeEvent N.size} {s s' : NodeState} (hmoved : N.Moved s event s')
    (h : s.Entered) : s'.Entered := by
  cases hmoved with
  | kept event => exact h
  | applied happlied =>
    have happlied := applyPayments_ok happlied
    exact h.of_eq happlied.invoices fun hash => happlied.mem_payments
  | fulfilled hfulfilled => exact h.htlcsFulfilled hfulfilled
  | added _ hadded => exact h.added hadded
  | invoiceSigned hsigned =>
    obtain ⟨hinvoices, hpayments, -⟩ := signInvoice_ok hsigned
    exact h.of_eq hinvoices fun hash hmem => hpayments ▸ hmem
  | pruned hprune => exact h.pruned (prune_ok hprune)

/-- A restored node has an entry for each approved payment. -/
theorem entered_of_restoreNode {disk : NodeDisk N.size} {m : NodeMemory N.size}
    (h : N.restoreNode disk = .ok m) : m.node.Entered := by
  obtain ⟨s, hs, h⟩ := bind_ok h
  cases h
  have hchannels (channels : List (Fin N.size)) {s s' : NodeState} (hentered : s.Entered)
      (hs : N.restoreChannels disk.channels channels s = .ok s') : s'.Entered := by
    induction channels generalizing s with
    | nil =>
      cases hs
      exact hentered
    | cons i channels ih =>
      obtain ⟨s₁, h₁, hs⟩ := bind_ok hs
      exact ih (hentered.restorePayments h₁) hs
  refine hchannels _ (fun hash hmem => ?_) hs
  have hlookup : (N.restoreState disk.entry).payments.lookup hash =
      if hash ∈ (N.restoreState disk.entry).invoices then some .new
      else (restore N.library.sha256 disk.entry 0).payments.lookup hash :=
    lookup_withInvoicePayments _ hash
  rw [if_pos hmem] at hlookup
  exact lookup_isSome.mp (by rw [hlookup]; rfl)

theorem Hosted.entered {host host' : NodeHost N.size} {event : HostEvent N.size}
    (hhosted : N.Hosted host event host') (h : ∀ m ∈ host.memory, m.node.Entered) :
    ∀ m ∈ host'.memory, m.node.Entered := by
  cases hhosted with
  | ended _ _ => exact fun _ hm => (nomatch hm)
  | served hmemory hstep =>
    rintro _ ⟨⟩
    exact (step_moved hstep).entered (h _ hmemory)
  | @checked m _ _ _ _ hmemory hcheck =>
    rintro _ ⟨⟩
    obtain ⟨control, rfl⟩ := checkOnchainFee_frame hcheck
    exact h m hmemory
  | restarted hrestore =>
    rintro _ ⟨⟩
    exact entered_of_restoreNode hrestore

theorem pruneStep_entered {host : NodeHost N.size} {prune : NodeState → Result NodeState}
    (hprune : ∀ s s', s.Entered → prune s = .ok s' → s'.Entered)
    (h : ∀ m ∈ host.memory, m.node.Entered) :
    ∀ m ∈ (N.pruneStep host prune).1.memory, m.node.Entered := by
  intro m hm
  unfold pruneStep at hm
  cases hmemory : host.memory with
  | none =>
    simp only [hmemory] at hm
    cases hm
  | some m₀ =>
    simp only [hmemory] at hm
    cases hs : prune m₀.node with
    | ok s =>
      simp only [hs] at hm
      cases hm
      exact hprune m₀.node s (h m₀ hmemory) hs
    | error fault =>
      simp only [hs] at hm
      cases hm

/-- In every state reached each approved payment has an entry. -/
theorem entered_of_run (N : Node) (values : Fin N.size → Nat)
    (events : List (LedgerEvent N.size)) :
    ∀ m ∈ (N.ledgerMachine.final (N.newHost values) events).memory, m.node.Entered := by
  refine N.ledgerMachine.final_induction (C := fun _ => True)
    (P := fun host => ∀ m ∈ host.memory, m.node.Entered) ?_ (fun host event h _ => ?_) events
    fun _ _ => trivial
  · rintro _ ⟨⟩ hash hmem
    exact absurd hmem (notMem_empty hash)
  · cases event with
    | host event => exact (hostStep_hosted host event).entered h
    | pruneInvoices now =>
      exact pruneStep_entered
        (fun s s' hs hprune => hs.pruned (pruneInvoices_ok hprune)) h
    | pruneIssuedInvoices now =>
      refine pruneStep_entered (fun s s' hs hprune => ?_) h
      obtain ⟨hinvoices, hpayments, -⟩ := pruneIssuedInvoices_ok hprune
      exact hs.of_eq hinvoices fun hash hmem => hpayments ▸ hmem
    | pruneForwardedPayments =>
      exact pruneStep_entered (fun s s' hs hprune => hs.pruneForwardedPayments hprune) h

end Node

/-! ## Pruning completes -/

/-- The time at which the payment may go is in range. -/
def PaymentState.ExpiresInRange (state : PaymentState) : Prop :=
  state.durationSinceEpoch + state.expiryDuration + NodeState.pruneTime state <
    durationFromSecs (2 ^ 64)

/-- The sum of what the payment sends is in range, where it is computed with overflow checks. -/
def RoutedPayment.SumsInRange (o : Overflow) (p : RoutedPayment) : Prop :=
  p.isFulfilled = true ∨ o = .wrapping ∨ p.outgoing.total < 2 ^ 64

namespace NodeState

variable {o : Overflow} {s : NodeState} {now : Nat}

theorem addDuration_ok_iff {a b : Nat} :
    (∃ time, addDuration a b = .ok time) ↔ a + b < durationFromSecs (2 ^ 64) := by
  unfold addDuration
  constructor
  · rintro ⟨time, h⟩
    rw [expect_eq_ok] at h
    split_ifs at h with hlt
    exact hlt
  · intro h
    rw [if_pos h]
    exact ⟨a + b, rfl⟩

theorem addDuration_eq {a b time : Nat} (h : addDuration a b = .ok time) : time = a + b := by
  unfold addDuration at h
  rw [expect_eq_ok] at h
  split_ifs at h with hlt
  exact (Option.some.inj h).symm

theorem pruneAt_ok_iff {state : PaymentState} :
    (∃ time, pruneAt state = .ok time) ↔ state.ExpiresInRange := by
  unfold PaymentState.ExpiresInRange
  constructor
  · rintro ⟨time, h⟩
    obtain ⟨expires, hexpires, htime⟩ := bind_ok h
    rw [← addDuration_eq hexpires]
    exact addDuration_ok_iff.mp ⟨time, htime⟩
  · intro h
    obtain ⟨time, htime⟩ := addDuration_ok_iff.mpr h
    obtain ⟨expires, hexpires⟩ := addDuration_ok_iff.mpr (lt_of_le_of_lt (Nat.le_add_right _ _) h)
    refine ⟨time, bind_eq_ok.mpr ⟨expires, hexpires, ?_⟩⟩
    rw [addDuration_eq hexpires]
    exact htime

theorem isPaymentComplete_ok_iff {p : RoutedPayment} :
    (∃ complete, isPaymentComplete o p = .ok complete) ↔ p.SumsInRange o := by
  unfold isPaymentComplete RoutedPayment.SumsInRange
  by_cases hfulfilled : p.isFulfilled = true
  · rw [if_pos hfulfilled]
    exact ⟨fun _ => .inl hfulfilled, fun _ => ⟨true, rfl⟩⟩
  · rw [if_neg hfulfilled, or_iff_right hfulfilled, ← Overflow.u64_ok_iff (ε := Refusal)]
    constructor
    · rintro ⟨complete, h⟩
      obtain ⟨sum, hsum, -⟩ := bind_ok h
      exact ⟨sum, hsum⟩
    · rintro ⟨sum, hsum⟩
      exact ⟨sum == 0, bind_eq_ok.mpr ⟨sum, hsum, rfl⟩⟩

theorem isInvoicePrunable_ok_iff {state : PaymentState} {p : RoutedPayment} :
    (∃ prunable, isInvoicePrunable o now state p = .ok prunable) ↔
      state.ExpiresInRange ∧ p.SumsInRange o := by
  rw [← pruneAt_ok_iff, ← isPaymentComplete_ok_iff]
  constructor
  · rintro ⟨prunable, h⟩
    obtain ⟨complete, hcomplete, h⟩ := bind_ok h
    obtain ⟨time, htime, -⟩ := bind_ok h
    exact ⟨⟨time, htime⟩, ⟨complete, hcomplete⟩⟩
  · rintro ⟨⟨time, htime⟩, ⟨complete, hcomplete⟩⟩
    exact ⟨_, bind_eq_ok.mpr ⟨complete, hcomplete, bind_eq_ok.mpr ⟨time, htime, rfl⟩⟩⟩

/-- Pruning the approved payments completes iff each has an entry, a time in range and a sum in
range. -/
theorem pruneInvoices_ok_iff :
    (∃ s', s.pruneInvoices o now = .ok s') ↔
      ∀ hash state, s.invoices.lookup hash = some state →
        ∃ payment, s.payments.lookup hash = some payment ∧ state.ExpiresInRange ∧
          payment.SumsInRange o := by
  have hentries : (∃ s', s.pruneInvoices o now = .ok s') ↔
      ∃ flags, (s.invoices.entries.mapM fun entry => do
        let payment ← expect s!"missing payments struct for {entry.2.paymentType.text}"
          (s.payments.lookup entry.1)
        isInvoicePrunable o now entry.2 payment) = (.ok flags : Result (List Bool)) := by
    constructor
    · rintro ⟨s', h⟩
      obtain ⟨prune, hprune, -⟩ := bind_ok h
      obtain ⟨flags, hflags, -⟩ := bind_ok hprune
      exact ⟨flags, hflags⟩
    · rintro ⟨flags, hflags⟩
      exact ⟨_, bind_eq_ok.mpr ⟨_, bind_eq_ok.mpr ⟨flags, hflags, rfl⟩, rfl⟩⟩
  rw [hentries, mapM_ok_iff]
  constructor
  · intro h hash state hstate
    obtain ⟨prunable, hprunable⟩ := h ⟨hash, state⟩ (mem_lookup_iff.mp hstate)
    obtain ⟨payment, hpayment, hprunable⟩ := bind_ok hprunable
    exact ⟨payment, expect_eq_ok.mp hpayment, isInvoicePrunable_ok_iff.mp ⟨prunable, hprunable⟩⟩
  · rintro h ⟨hash, state⟩ hmem
    obtain ⟨payment, hpayment, hrange⟩ := h hash state (mem_lookup_iff.mpr hmem)
    obtain ⟨prunable, hprunable⟩ := isInvoicePrunable_ok_iff.mpr hrange
    exact ⟨prunable, bind_eq_ok.mpr ⟨payment, expect_eq_ok.mpr hpayment, hprunable⟩⟩

end NodeState

namespace Node

/-- In every state reached each approved payment has an entry, and pruning the approved payments
completes at every time iff each of them has its time and its sum in range. -/
theorem approved_payments_entered (N : Node) (values : Fin N.size → Nat)
    (events : List (LedgerEvent N.size)) (m : NodeMemory N.size)
    (hm : (N.ledgerMachine.final (N.newHost values) events).memory = some m) :
    (∀ hash ∈ m.node.invoices, hash ∈ m.node.payments) ∧
      ∀ now, (∃ s, m.node.pruneInvoices N.overflow now = .ok s) ↔
        ∀ hash state payment, m.node.invoices.lookup hash = some state →
          m.node.payments.lookup hash = some payment →
          state.ExpiresInRange ∧ payment.SumsInRange N.overflow := by
  have hentered := N.entered_of_run values events m hm
  refine ⟨hentered, fun now => pruneInvoices_ok_iff.trans ⟨?_, ?_⟩⟩
  · intro h hash state payment hstate hpayment
    obtain ⟨payment', hpayment', hrange⟩ := h hash state hstate
    obtain rfl := Option.some.inj (hpayment.symm.trans hpayment')
    exact hrange
  · intro h hash state hstate
    have hmem := hentered hash (lookup_isSome.mp (by rw [hstate]; rfl))
    obtain ⟨payment, hpayment⟩ := Option.isSome_iff_exists.mp (lookup_isSome.mpr hmem)
    exact ⟨payment, hpayment, h hash state payment hstate hpayment⟩

open Sample

/-- An approved invoice has an entry. -/
theorem approved_payments_entered_sample :
    ∃ m ∈ (oneChannel.ledgerMachine.final (oneChannel.newHost fun _ => 1000000)
        [.host (.request (.addInvoice true 0 (invoice 1000)))]).memory,
      (0 : PaymentHash) ∈ m.node.invoices ∧ (0 : PaymentHash) ∈ m.node.payments := by
  have hrun : ∃ m ∈ (oneChannel.ledgerMachine.final
      (oneChannel.newHost fun _ => 1000000)
      [.host (.request (.addInvoice true 0 (invoice 1000)))]).memory,
      (0 : PaymentHash) ∈ m.node.invoices := by
    decide +kernel
  obtain ⟨m, hm, happroved⟩ := hrun
  exact ⟨m, hm, happroved, (approved_payments_entered oneChannel _ _ m hm).1 0 happroved⟩

/-- An invoice that expires near the end of time is approved, and then pruning aborts. -/
theorem long_invoice_aborts_pruning :
    ∃ m ∈ (oneChannel.ledgerMachine.final (oneChannel.newHost fun _ => 1000000)
        [.host (.request (.addInvoice true 0
          { invoice 1000 with expiryDuration := durationFromSecs (2 ^ 64 - 61) }))]).memory,
      isAborted (m.node.pruneInvoices oneChannel.overflow 0) = true := by
  decide +kernel

end Node

end ValidatingSigner
