import Vls.Node.Steps

/-!
# What a heartbeat drops

Pruning works hash by hash: an approved payment goes when it is over and long expired, an issued
invoice when it is long expired, and the ledger entry of any other payment when it has nothing in
flight.  What is not due stays.
-/

namespace ValidatingSigner

open Base Table

namespace NodeState

variable {o : Overflow} {s s' : NodeState} {now : Nat}

/-- An approved payment that is over and long expired. -/
def ApprovedDue (o : Overflow) (s : NodeState) (now : Nat) (hash : PaymentHash) : Prop :=
  ∃ state payment, s.invoices.lookup hash = some state ∧ s.payments.lookup hash = some payment ∧
    isInvoicePrunable o now state payment = .ok true

/-- An issued invoice that is long expired. -/
def IssuedDue (s : NodeState) (now : Nat) (hash : PaymentHash) : Prop :=
  ∃ state time, s.issuedInvoices.lookup hash = some state ∧ pruneAt state = .ok time ∧ time ≤ now

/-- A payment that nothing tracks and that has nothing in flight. -/
def ForwardedDue (o : Overflow) (s : NodeState) (hash : PaymentHash) : Prop :=
  ∃ payment, s.payments.lookup hash = some payment ∧
    s.isForwardedPaymentPrunable o hash payment = .ok true

/-- A heartbeat drops something of the payment. -/
def Due (o : Overflow) (s : NodeState) (now : Nat) (hash : PaymentHash) : Prop :=
  s.ApprovedDue o now hash ∨ s.IssuedDue now hash ∨ s.ForwardedDue o hash

/-- Two states have the same entries for a hash. -/
structure SameEntries (s s' : NodeState) (hash : PaymentHash) : Prop where
  invoices : s'.invoices.lookup hash = s.invoices.lookup hash
  issued : s'.issuedInvoices.lookup hash = s.issuedInvoices.lookup hash
  payments : s'.payments.lookup hash = s.payments.lookup hash

theorem SameEntries.trans {s'' : NodeState} {hash : PaymentHash} (h : s.SameEntries s' hash)
    (h' : s'.SameEntries s'' hash) : s.SameEntries s'' hash where
  invoices := h'.invoices.trans h.invoices
  issued := h'.issued.trans h.issued
  payments := h'.payments.trans h.payments

theorem SameEntries.forwardedDue_iff {hash : PaymentHash} (h : s.SameEntries s' hash) :
    s'.ForwardedDue o hash ↔ s.ForwardedDue o hash := by
  unfold ForwardedDue isForwardedPaymentPrunable
  simp only [← AList.lookup_isSome, h.invoices, h.issued, h.payments]

/-- Pruning approved payments drops the invoice and the entry of each that is due. -/
theorem lookup_pruneInvoices (h : s.pruneInvoices o now = .ok s') (hash : PaymentHash) :
    s'.issuedInvoices = s.issuedInvoices ∧
      ((s.ApprovedDue o now hash ∧ s'.invoices.lookup hash = none ∧
          s'.payments.lookup hash = none) ∨
        (¬ s.ApprovedDue o now hash ∧ s.SameEntries s' hash)) := by
  obtain ⟨prune, hprune, h⟩ := bind_ok h
  cases h
  obtain ⟨flags, hflags, hprune⟩ := bind_ok hprune
  have hmem : hash ∈ prune ↔ s.ApprovedDue o now hash := by
    rw [← pure_eq_ok.mp hprune]
    refine (mem_flagged (fun entry : Sigma fun _ : PaymentHash => PaymentState => entry.1)
      hflags).trans ⟨?_, ?_⟩
    · rintro ⟨⟨_, state⟩, hentry, rfl, hflag⟩
      obtain ⟨payment, hpayment, hflag⟩ := bind_ok hflag
      exact ⟨state, payment, AList.mem_lookup_iff.mpr hentry, expect_eq_ok.mp hpayment, hflag⟩
    · rintro ⟨state, payment, hstate, hpayment, hflag⟩
      exact ⟨⟨hash, state⟩, AList.mem_lookup_iff.mp hstate, rfl,
        bind_eq_ok.mpr ⟨payment, expect_eq_ok.mpr hpayment, hflag⟩⟩
  refine ⟨rfl, ?_⟩
  by_cases hdue : s.ApprovedDue o now hash
  · refine .inl ⟨hdue, ?_, ?_⟩
    · rw [lookup_retain_keys, if_neg (by simpa using hmem.mpr hdue)]
    · rw [lookup_retain_keys, if_neg (by simpa using hmem.mpr hdue)]
  · refine .inr ⟨hdue, ?_, rfl, ?_⟩
    · rw [lookup_retain_keys, if_pos (by simpa using mt hmem.mp hdue)]
    · rw [lookup_retain_keys, if_pos (by simpa using mt hmem.mp hdue)]

/-- Pruning issued invoices drops each that is due. -/
theorem lookup_pruneIssuedInvoices (h : s.pruneIssuedInvoices now = .ok s')
    (hash : PaymentHash) :
    s'.invoices = s.invoices ∧ s'.payments = s.payments ∧
      ((s.IssuedDue now hash ∧ s'.issuedInvoices.lookup hash = none) ∨
        (¬ s.IssuedDue now hash ∧ s.SameEntries s' hash)) := by
  obtain ⟨times, htimes, h⟩ := bind_ok h
  cases h
  refine ⟨rfl, rfl, ?_⟩
  have hkeep : hash ∈ ((s.issuedInvoices.keys.zip times).filter (now < ·.2)).map (·.1) ↔
      ∃ state time, s.issuedInvoices.lookup hash = some state ∧ pruneAt state = .ok time ∧
        now < time := by
    have hzip (time : Nat) := mem_zip_mapM_iff (fun entry : Sigma fun _ : PaymentHash =>
      PaymentState => entry.1) htimes (k := hash) (b := time)
    simp only [List.mem_map, List.mem_filter]
    constructor
    · rintro ⟨⟨_, time⟩, ⟨hmem, hlt⟩, rfl⟩
      obtain ⟨⟨_, state⟩, hentry, rfl, htime⟩ := (hzip time).mp hmem
      exact ⟨state, time, AList.mem_lookup_iff.mpr hentry, htime, of_decide_eq_true hlt⟩
    · rintro ⟨state, time, hstate, htime, hlt⟩
      refine ⟨(hash, time), ⟨(hzip time).mpr ?_, decide_eq_true hlt⟩, rfl⟩
      exact ⟨⟨hash, state⟩, AList.mem_lookup_iff.mp hstate, rfl, htime⟩
  by_cases hdue : s.IssuedDue now hash
  · refine .inl ⟨hdue, ?_⟩
    obtain ⟨state, time, hstate, htime, hle⟩ := hdue
    have hnot : hash ∉ ((s.issuedInvoices.keys.zip times).filter (now < ·.2)).map (·.1) := by
      intro hin
      obtain ⟨state', time', hstate', htime', hlt⟩ := hkeep.mp hin
      obtain rfl := Option.some.inj (hstate.symm.trans hstate')
      obtain rfl := Except.ok.inj (htime.symm.trans htime')
      omega
    rw [lookup_retain_keys, if_neg (by simpa using hnot)]
  · refine .inr ⟨hdue, rfl, ?_, rfl⟩
    rw [lookup_retain_keys]
    rcases hstate : s.issuedInvoices.lookup hash with _ | state
    · exact ite_self _
    · obtain ⟨time, htime⟩ := exists_of_mapM htimes (AList.mem_lookup_iff.mp hstate)
      refine if_pos (decide_eq_true (hkeep.mpr ⟨state, time, hstate, htime, ?_⟩))
      exact not_le.mp fun hle => hdue ⟨state, time, hstate, htime, hle⟩

/-- Pruning forwarded payments drops the entry of each that is due. -/
theorem lookup_pruneForwardedPayments (h : s.pruneForwardedPayments o = .ok s')
    (hash : PaymentHash) :
    s'.invoices = s.invoices ∧ s'.issuedInvoices = s.issuedInvoices ∧
      ((s.ForwardedDue o hash ∧ s'.payments.lookup hash = none) ∨
        (¬ s.ForwardedDue o hash ∧ s.SameEntries s' hash)) := by
  obtain ⟨flags, hflags, h⟩ := bind_ok h
  cases h
  refine ⟨rfl, rfl, ?_⟩
  have hmem : hash ∈ ((s.payments.keys.zip flags).filter (·.2)).map (·.1) ↔
      s.ForwardedDue o hash := by
    refine (mem_flagged (fun entry : Sigma fun _ : PaymentHash => RoutedPayment => entry.1)
      hflags).trans ⟨?_, ?_⟩
    · rintro ⟨⟨_, payment⟩, hentry, rfl, hflag⟩
      exact ⟨payment, AList.mem_lookup_iff.mpr hentry, hflag⟩
    · rintro ⟨payment, hpayment, hflag⟩
      exact ⟨⟨hash, payment⟩, AList.mem_lookup_iff.mp hpayment, rfl, hflag⟩
  by_cases hdue : s.ForwardedDue o hash
  · refine .inl ⟨hdue, ?_⟩
    rw [lookup_retain_keys, if_neg (by simpa using hmem.mpr hdue)]
  · refine .inr ⟨hdue, rfl, rfl, ?_⟩
    rw [lookup_retain_keys, if_pos (by simpa using mt hmem.mp hdue)]

/-- A heartbeat keeps the entries of a payment iff nothing of it is due. -/
theorem sameEntries_prune_iff (h : s.prune o now = .ok s') (hash : PaymentHash) :
    s.SameEntries s' hash ↔ ¬ s.Due o now hash := by
  obtain ⟨s₁, h₁, h⟩ := bind_ok h
  obtain ⟨s₂, h₂, h₃⟩ := bind_ok h
  obtain ⟨hissued₁, hfirst⟩ := lookup_pruneInvoices h₁ hash
  obtain ⟨hinvoices₂, hpayments₂, hsecond⟩ := lookup_pruneIssuedInvoices h₂ hash
  obtain ⟨hinvoices₃, hissued₃, hthird⟩ := lookup_pruneForwardedPayments h₃ hash
  have hissuedDue : s₁.IssuedDue now hash ↔ s.IssuedDue now hash := by
    rw [IssuedDue, hissued₁, IssuedDue]
  rcases hfirst with ⟨hdue, hnone, -⟩ | ⟨hkept₁, hsame₁⟩
  · refine iff_of_false (fun hsame => ?_) fun hnot => hnot (.inl hdue)
    obtain ⟨state, payment, hstate, -⟩ := hdue
    have heq := hsame.invoices
    rw [hinvoices₃, hinvoices₂, hnone, hstate] at heq
    cases heq
  rcases hsecond with ⟨hdue, hnone⟩ | ⟨hkept₂, hsame₂⟩
  · refine iff_of_false (fun hsame => ?_) fun hnot => hnot (.inr (.inl (hissuedDue.mp hdue)))
    obtain ⟨state, time, hstate, -⟩ := hdue
    have heq := hsame.issued
    rw [hissued₃, hnone, ← hissued₁, hstate] at heq
    cases heq
  have hsame := hsame₁.trans hsame₂
  rcases hthird with ⟨hdue, hnone⟩ | ⟨hkept₃, hsame₃⟩
  · have hdue := hsame.forwardedDue_iff.mp hdue
    refine iff_of_false (fun hsame => ?_) fun hnot => hnot (.inr (.inr hdue))
    obtain ⟨payment, hpayment, -⟩ := hdue
    have heq := hsame.payments
    rw [hnone, hpayment] at heq
    cases heq
  · refine iff_of_true (hsame.trans hsame₃) ?_
    rintro (hdue | hdue | hdue)
    · exact hkept₁ hdue
    · exact hkept₂ (hissuedDue.mpr hdue)
    · exact hkept₃ (hsame.forwardedDue_iff.mpr hdue)

end NodeState

end ValidatingSigner
