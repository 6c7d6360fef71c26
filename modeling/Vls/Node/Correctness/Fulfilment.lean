import Vls.Node.Correctness.InFlight

/-!
# Fulfilled payments

When the preimage of a payment that was not approved becomes known, the excess gains what comes in
less what goes out.  The sums are checked and abort the signer when they fail.  Which payment states
take a preimage is said exactly; a run reaches no other, short of the range of machine words, as
long as no commitment is accepted that lets more go out for such a payment than comes in.
-/

namespace ValidatingSigner

open Base NodeState Sample List

namespace NodeState

variable {o : Overflow} {v : Validator} {sha256 : Bytes32 → Bytes32} {s s' : NodeState}
  {hash : PaymentHash} {preimage : PaymentPreimage}

/-- The payment is recorded without a preimage and was not approved. -/
def Unapproved (s : NodeState) (hash : PaymentHash) : Prop :=
  hash ∈ s.payments ∧ s.hasPreimage hash = false ∧ hash ∉ s.invoices

/-- A preimage is recorded without abort, and the excess gains what comes in less what goes out if
the payment was not approved and had no preimage; otherwise it stays. -/
def Settles (o : Overflow) (v : Validator) (sha256 : Bytes32 → Bytes32) (s : NodeState)
    (preimage : PaymentPreimage) : Prop :=
  ∃ s', s.htlcFulfilled o v sha256 preimage = .ok s' ∧
    (s.Unapproved (sha256 preimage) →
      s'.excessAmount + (s.payment (sha256 preimage)).outgoing.total =
        s.excessAmount + (s.payment (sha256 preimage)).incoming.total) ∧
    (¬ s.Unapproved (sha256 preimage) → s'.excessAmount = s.excessAmount)

/-- The totals of a payment that waits for its preimage can be formed, and if it was not approved
the excess takes what comes in and then gives what goes out, in words that lost the same. -/
def CanSettle (o : Overflow) (s : NodeState) (hash : PaymentHash) : Prop :=
  let incoming := (s.payment hash).incoming.total
  let outgoing := (s.payment hash).outgoing.total
  hash ∈ s.payments → s.hasPreimage hash = false →
    (o = .wrapping ∨ incoming < 2 ^ 64 ∧ outgoing < 2 ^ 64) ∧
    (hash ∉ s.invoices → s.excessAmount + incoming % 2 ^ 64 < 2 ^ 64 ∧
      outgoing % 2 ^ 64 ≤ s.excessAmount + incoming % 2 ^ 64 ∧
      incoming / 2 ^ 64 = outgoing / 2 ^ 64)

/-- For no payment that was not approved and has no preimage more goes out than comes in. -/
def Covered (s : NodeState) : Prop :=
  ∀ hash, s.Unapproved hash → (s.payment hash).outgoing.total ≤ (s.payment hash).incoming.total

instance (s : NodeState) : Decidable s.Covered :=
  decidable_of_iff (s.payments.keys.all (fun hash => s.hasPreimage hash || hash ∈ s.invoices ||
      (s.payment hash).outgoing.total ≤ (s.payment hash).incoming.total) = true) <| by
    simp only [all_eq_true, Bool.or_eq_true, decide_eq_true_eq, AList.mem_keys.symm, Covered,
      Unapproved, ← Bool.not_eq_true, or_iff_not_imp_left, Classical.not_imp, and_imp]

/-! ## One preimage -/

/-- Where the totals can be formed they are those of the ledger in words. -/
theorem incomingOutgoing_ok_iff {p : RoutedPayment} {incoming outgoing : Nat} :
    p.incomingOutgoing o = .ok (incoming, outgoing) ↔
      (o = .wrapping ∨ p.incoming.total < 2 ^ 64 ∧ p.outgoing.total < 2 ^ 64) ∧
        incoming = p.incoming.total % 2 ^ 64 ∧ outgoing = p.outgoing.total % 2 ^ 64 := by
  constructor
  · intro h
    obtain ⟨i, hi, h⟩ := bind_ok h
    obtain ⟨j, hj, h⟩ := bind_ok h
    cases h
    refine ⟨?_, Overflow.eq_mod_of_uint hi, Overflow.eq_mod_of_uint hj⟩
    rcases Overflow.u64_ok_iff.mp ⟨_, hi⟩ with hwrapping | hin
    · exact .inl hwrapping
    · exact (Overflow.u64_ok_iff.mp ⟨_, hj⟩).imp_right fun hout => ⟨hin, hout⟩
  · rintro ⟨hwords, rfl, rfl⟩
    obtain ⟨i, hi⟩ := (Overflow.u64_ok_iff (ε := Refusal)).mpr (hwords.imp_right And.left)
    obtain ⟨j, hj⟩ := (Overflow.u64_ok_iff (ε := Refusal)).mpr (hwords.imp_right And.right)
    rw [← Overflow.eq_mod_of_uint hi, ← Overflow.eq_mod_of_uint hj]
    exact bind_eq_ok.mpr ⟨i, hi, bind_eq_ok.mpr ⟨j, hj, rfl⟩⟩

theorem fulfilledExcess_ok_iff (hbalance : v.enforceBalance = true) (hinvoice : hash ∉ s.invoices)
    {incoming outgoing excess : Nat} :
    s.fulfilledExcess v hash incoming outgoing = .ok excess ↔
      s.excessAmount + incoming < 2 ^ 64 ∧ outgoing ≤ s.excessAmount + incoming ∧
        excess = s.excessAmount + incoming - outgoing := by
  rw [fulfilledExcess, if_neg hinvoice, if_pos hbalance, bind_eq_ok]
  simp only [expect_eq_ok, Option.ite_none_right_eq_some, Option.some.injEq]
  constructor
  · rintro ⟨sum, ⟨hword, rfl⟩, hle, rfl⟩
    exact ⟨hword, hle, rfl⟩
  · rintro ⟨hword, hle, rfl⟩
    exact ⟨_, ⟨hword, rfl⟩, hle, rfl⟩

/-- A preimage settles the payment just if the sums can be formed. -/
theorem settles_iff (hbalance : v.enforceBalance = true) (o : Overflow)
    (sha256 : Bytes32 → Bytes32) (s : NodeState) (preimage : PaymentPreimage) :
    s.Settles o v sha256 preimage ↔ s.CanSettle o (sha256 preimage) := by
  rw [Settles, CanSettle, htlcFulfilled]
  generalize sha256 preimage = hash
  rw [fulfill]
  cases hp : s.payments.lookup hash with
  | none =>
    have hnot := AList.lookup_eq_none.mp hp
    exact ⟨fun _ hmem => absurd hmem hnot,
      fun _ => ⟨s, rfl, fun h => absurd h.1 hnot, fun _ => rfl⟩⟩
  | some p =>
    have hmem : hash ∈ s.payments := AList.lookup_isSome.mp (by rw [hp]; rfl)
    obtain rfl : s.payment hash = p := by rw [payment, hp]; rfl
    simp only
    -- Of a payment that has its preimage no sum is formed.
    split_ifs with hfulfilled
    · rw [← hasPreimage_eq] at hfulfilled
      exact ⟨fun _ _ h => absurd (hfulfilled.symm.trans h) (by decide),
        fun _ => ⟨s, rfl, fun h => absurd (hfulfilled.symm.trans h.2.1) (by decide), fun _ => rfl⟩⟩
    · have hunknown : s.hasPreimage hash = false := by
        rw [hasPreimage_eq]
        exact Bool.not_eq_true _ ▸ hfulfilled
      constructor
      · rintro ⟨s', h, hgain, -⟩ - -
        obtain ⟨⟨incoming, outgoing⟩, htotals, h⟩ := bind_ok h
        obtain ⟨excess, hexcess, h⟩ := bind_ok h
        cases h
        obtain ⟨hwords, rfl, rfl⟩ := incomingOutgoing_ok_iff.mp htotals
        refine ⟨hwords, fun hinvoice => ?_⟩
        obtain ⟨hword, hle, rfl⟩ := (fulfilledExcess_ok_iff hbalance hinvoice).mp hexcess
        have hgain := hgain ⟨hmem, hunknown, hinvoice⟩
        exact ⟨hword, hle, by simp only at hgain; omega⟩
      · intro h
        obtain ⟨hwords, hsums⟩ := h hmem hunknown
        rw [incomingOutgoing_ok_iff.mpr ⟨hwords, rfl, rfl⟩, ok_bind]
        by_cases hinvoice : hash ∈ s.invoices
        · rw [fulfilledExcess, if_pos hinvoice]
          exact ⟨_, rfl, fun h => absurd hinvoice h.2.2, fun _ => rfl⟩
        · obtain ⟨hword, hle, hlost⟩ := hsums hinvoice
          rw [(fulfilledExcess_ok_iff hbalance hinvoice).mpr ⟨hword, hle, rfl⟩]
          refine ⟨_, rfl, fun _ => ?_, fun h => absurd ⟨hmem, hunknown, hinvoice⟩ h⟩
          simp only
          omega

/-- A payment state that lets no more go out than comes in takes every preimage whose payment stays
in machine words. -/
theorem Covered.canSettle (h : s.Covered)
    (hincoming : s.excessAmount + (s.payment hash).incoming.total < 2 ^ 64)
    (houtgoing : (s.payment hash).outgoing.total < 2 ^ 64) : s.CanSettle o hash := by
  refine fun hmem hunknown => ⟨.inr ⟨by omega, houtgoing⟩, fun hinvoice => ?_⟩
  have hle := h hash ⟨hmem, hunknown, hinvoice⟩
  rw [Nat.mod_eq_of_lt houtgoing, Nat.mod_eq_of_lt (by omega)]
  omega

/-! ## Runs -/

/-- Payments that wait for a preimage without approval stay covered while they are kept as they
were. -/
theorem Covered.of_kept (h : s.Covered) (hkept : ∀ hash, s'.Unapproved hash →
    hash ∈ s.payments ∧ hash ∉ s.invoices ∧ s'.payment hash = s.payment hash) : s'.Covered := by
  intro hash hunapproved
  obtain ⟨hmem, hinvoice, hsame⟩ := hkept hash hunapproved
  have hunknown := hunapproved.2.1
  rw [hasPreimage_eq, hsame, ← hasPreimage_eq] at hunknown
  rw [hsame]
  exact h hash ⟨hmem, hunknown, hinvoice⟩

theorem Covered.of_same (h : s.Covered) (hinvoices : s'.invoices = s.invoices)
    (hpayments : s'.payments = s.payments) : s'.Covered := by
  refine h.of_kept fun hash ⟨hmem, _, hinvoice⟩ => ⟨hpayments ▸ hmem, hinvoices ▸ hinvoice, ?_⟩
  rw [payment, hpayments]
  rfl

theorem Covered.of_fulfilled (h : s.Covered) (hful : s.Fulfilled o v hash preimage s') :
    s'.Covered := by
  refine h.of_kept fun k ⟨hmem, hunknown, hinvoice⟩ => ?_
  have hne : k ≠ hash := by
    rintro rfl
    rw [hful.hasPreimage_eq_learn, learn, Function.update_self] at hunknown
    cases hunknown
  rw [hful.payments, AList.mem_insert] at hmem
  exact ⟨hmem.resolve_left hne, hful.invoices ▸ hinvoice, by rw [hful.payment_eq, if_neg hne]⟩

theorem Covered.of_approved (h : s.Covered) {state : PaymentState}
    (happroved : s.Approved hash state s') : s'.Covered := by
  refine h.of_kept fun k ⟨hmem, _, hinvoice⟩ => ?_
  rw [happroved.invoices, AList.mem_insert, not_or] at hinvoice
  refine ⟨?_, hinvoice.2, happroved.payment_eq k⟩
  rw [happroved.payments] at hmem
  split_ifs at hmem
  · exact hmem
  · exact ((AList.mem_insert _).mp hmem).resolve_left hinvoice.1

theorem Covered.of_pruned (h : s.Covered) (hpruned : s.Pruned o s') : s'.Covered := by
  refine h.of_kept fun k ⟨hmem, _, hinvoice⟩ => ?_
  have hlookup : s'.payments.lookup k = s.payments.lookup k :=
    (hpruned.payments k).resolve_right fun hnone => AList.lookup_eq_none.mp hnone hmem
  refine ⟨?_, fun hbefore => ?_, by rw [payment, hlookup]; rfl⟩
  · rw [← AList.lookup_isSome, ← hlookup, AList.lookup_isSome]
    exact hmem
  · exact AList.lookup_eq_none.mp (hpruned.dropped k hbefore hinvoice).1 hmem

end NodeState

/-- No event but a request to a channel brings more out than in. -/
theorem Node.Changed.covered {N : Node} {v : SimpleValidator} {m m' : NodeMemory N.size}
    {event : NodeEvent N.size} (h : N.Changed v m event m') (hm : m.node.Covered)
    (hrequest : ∀ i call request, event = .request i call request → m'.node.Covered) :
    m'.node.Covered := by
  cases h with
  | kept hledger => exact hm.of_same hledger.invoices hledger.payments
  | updated => exact hrequest _ _ _ rfl
  | fulfilled h =>
    exact htlcsFulfilled_induction (P := Covered) (fun _ _ _ _ hs hful => hs.of_fulfilled hful) hm h
  | approved _ h => exact hm.of_approved h
  | issued hinvoices hpayments => exact hm.of_same hinvoices hpayments
  | pruned h => exact hm.of_pruned h

/-- A preimage is recorded without abort, with the excess as it should be, just where the sums can
be formed.  In a run whose accepted commitments let no more go out than comes in for a payment that
was not approved, every payment state does so for every preimage whose payment stays in words. -/
theorem NodeState.fulfilment_never_aborts {N : Node} {v : SimpleValidator}
    (hv : N.validator = v.toValidator) (hfilter : v.policy.filter = .default)
    (hbalance : v.policy.enforceBalance = true) :
    (∀ (s : NodeState) preimage, s.Settles N.overflow N.validator N.library.sha256 preimage ↔
      s.CanSettle N.overflow (N.library.sha256 preimage)) ∧
    ∀ control feeControl values events,
      (∀ x ∈ N.machine.trace (some (N.initial (.new control feeControl) values)) events,
        ∀ i call request, x.event = .request i call request →
          ∀ m ∈ x.after, m.node.Covered) →
      ∀ m ∈ N.machine.final (some (N.initial (.new control feeControl) values)) events,
        m.node.Covered ∧ ∀ preimage,
          m.node.excessAmount + (m.node.payment (N.library.sha256 preimage)).incoming.total <
              2 ^ 64 →
          (m.node.payment (N.library.sha256 preimage)).outgoing.total < 2 ^ 64 →
          m.node.Settles N.overflow N.validator N.library.sha256 preimage := by
  have hsettles := settles_iff (v := N.validator) (by rw [hv]; exact hbalance) N.overflow
    N.library.sha256
  refine ⟨hsettles, fun control feeControl values events hcovered m hm => ?_⟩
  have hrun := N.machine.run_induction (P := fun _ state => ∀ m ∈ state, m.node.Covered)
    (C := fun x => ∀ i call request, x.event = .request i call request →
      ∀ m ∈ x.after, m.node.Covered)
    ?_ (fun log state event h hC m' hm' => ?_) events hcovered
  · exact ⟨hrun m hm, fun preimage hincoming houtgoing =>
      (hsettles m.node preimage).mpr ((hrun m hm).canSettle hincoming houtgoing)⟩
  · rintro m ⟨⟩ hash ⟨hmem, -⟩
    exact absurd hmem (AList.notMem_empty hash)
  · obtain ⟨m, rfl, hstep⟩ := Node.machine_step_some hm'
    exact (Node.step_changed hv hfilter hstep).covered (h m rfl)
      fun i call request hevent => hC i call request hevent m' hm'

namespace Sample

/-- A node with one channel that enforces the balance, whose counterparty is given 200000 satoshi.
-/
def pushingSigner : Node :=
  signer balanceValidator { setup with pushValueMsat := 200000000 } 1 balanceSigner.size_le

/-- An HTLC comes in and is taken off while one of the same payment goes out. -/
def outOfBalance : List (NodeEvent 1) :=
  [holder 0 0 799000 200000 [] [], counterparty 0 0 ⟨7⟩ 799000 200000 [] [],
    holder 0 1 799000 99500 [] [htlc 100000], counterparty 0 1 ⟨8⟩ 799000 99500 [htlc 100000] [],
    revoke 0 0 7, holder 0 2 698500 200000 [htlc 100000] []]

end Sample

/-- The preimage of a payment that comes in with 100000 satoshi is recorded. -/
theorem fulfilment_never_aborts_sample :
    ∃ m ∈ pushingSigner.machine.final (start pushingSigner 800000) (outOfBalance.take 5),
      m.node.excessAmount = 500 ∧ (m.node.payment 0).incoming.total = 100000 ∧
        m.node.Settles .checked balanceValidator.toValidator library.sha256 0 := by
  have hcovered : ∀ x ∈ pushingSigner.machine.trace (start pushingSigner 800000)
      (outOfBalance.take 5), ∀ m ∈ x.after, m.node.Covered := by
    decide +kernel
  have hrun : ∃ m ∈ pushingSigner.machine.final (start pushingSigner 800000) (outOfBalance.take 5),
      m.node.excessAmount = 500 ∧ (m.node.payment 0).incoming.total = 100000 ∧
        (m.node.payment 0).outgoing.total = 0 := by
    decide +kernel
  obtain ⟨m, hm, hexcess, hincoming, houtgoing⟩ := hrun
  refine ⟨m, hm, hexcess, hincoming, ((fulfilment_never_aborts (N := pushingSigner)
    (v := balanceValidator) rfl rfl rfl).2 _ _ _ _ (fun x hx _ _ _ _ => hcovered x hx) m hm).2 0
    ?_ ?_⟩
  · change m.node.excessAmount + (m.node.payment 0).incoming.total < 2 ^ 64
    omega
  · change (m.node.payment 0).outgoing.total < 2 ^ 64
    omega

/-- Once the incoming HTLC is gone while the outgoing one is there, the preimage aborts. -/
theorem fulfilment_aborts :
    ((pushingSigner.machine.trace (start pushingSigner 800000)
        (outOfBalance ++ [.htlcsFulfilled 0 [0]])).map (·.answer)).getLast? =
      some (.error (.abort "underflow")) := by
  decide +kernel

end ValidatingSigner
