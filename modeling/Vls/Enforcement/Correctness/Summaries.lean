import Vls.Enforcement.Amounts

/-!
# Payment summaries

The summaries of outgoing and incoming payments, payment by payment: which payments have an entry,
and what the entry holds.  Only the sums of the HTLCs for each payment matter, not their order or
how a payment is split over them.
-/

namespace ValidatingSigner

open Base

/-! ## Rearranged HTLCs -/

/-- The same HTLCs in another order, or with HTLCs split or joined for the same payment. -/
inductive Rearranged : List HTLCInfo2 → List HTLCInfo2 → Prop where
  | perm {xs ys : List HTLCInfo2} (h : xs.Perm ys) : Rearranged xs ys
  | split (whole a b : HTLCInfo2) (xs : List HTLCInfo2) (ha : a.paymentHash = whole.paymentHash)
      (hb : b.paymentHash = whole.paymentHash) (hvalue : a.valueSat + b.valueSat = whole.valueSat) :
      Rearranged (whole :: xs) (a :: b :: xs)
  | symm {xs ys : List HTLCInfo2} (h : Rearranged xs ys) : Rearranged ys xs
  | trans {xs ys zs : List HTLCInfo2} (h : Rearranged xs ys) (h' : Rearranged ys zs) :
      Rearranged xs zs

/-- The HTLC lists of both commitments are rearranged. -/
def Commitments.Rearranged (c c' : Commitments) : Prop :=
  ∀ isHolder offered,
    ValidatingSigner.Rearranged (c.htlcs isHolder offered) (c'.htlcs isHolder offered)

namespace Rearranged

variable {xs ys : List HTLCInfo2} {hash : PaymentHash}

theorem valueFor_eq (h : Rearranged xs ys) : valueFor hash xs = valueFor hash ys := by
  induction h with
  | perm h => exact ((h.filter _).map _).sum_eq
  | split whole a b xs ha hb hvalue =>
    rw [valueFor_cons, valueFor_cons, valueFor_cons, ha, hb, ← hvalue]
    split_ifs <;> omega
  | symm _ ih => exact ih.symm
  | trans _ _ ih ih' => exact ih.trans ih'

theorem mem_iff (h : Rearranged xs ys) :
    hash ∈ xs.map (·.paymentHash) ↔ hash ∈ ys.map (·.paymentHash) := by
  induction h with
  | perm h => exact (h.map _).mem_iff
  | split whole a b xs ha hb hvalue => simp [ha, hb]
  | symm _ ih => exact ih.symm
  | trans _ _ ih ih' => exact ih.trans ih'

end Rearranged

namespace EnforcementState

/-! ## What the summaries hold -/

/-- The summaries have exactly the entries of the payments that go out under the current or the new
commitments, and of those that come in under a current commitment or under both new ones.  An entry
holds what the new commitments hold for the payment. -/
structure Summarizes (outgoing incoming : Summary) (current new : Commitments) : Prop where
  outgoing : ∀ hash amount, outgoing.lookup hash = some amount ↔
    (hash ∈ current.outgoingHtlcs.map (·.paymentHash) ∨
      hash ∈ new.outgoingHtlcs.map (·.paymentHash)) ∧ amount = new.outgoing hash
  incoming : ∀ hash amount, incoming.lookup hash = some amount ↔
    (hash ∈ current.incomingHtlcs.map (·.paymentHash) ∨ new.ComesInTwice hash) ∧
      amount = new.incoming hash

variable {o : Overflow} {e : EnforcementState}
  {newHolderTx newCounterpartyTx : Option CommitmentInfo2}

theorem lookup_eq_some_iff {t : Summary} {hash : PaymentHash} {amount : Nat} :
    t.lookup hash = some amount ↔ hash ∈ t ∧ amount = t.amount hash := by
  rw [← AList.lookup_isSome, Table.amount]
  cases t.lookup hash with
  | none => simp
  | some b => simpa using eq_comm

/-- Sums that fit are summarized. -/
theorem summarizes_of_fits (hfits : (e.commitments.replace newHolderTx newCounterpartyTx).Fits) :
    ∃ outgoing incoming, e.paymentsSummary o newHolderTx newCounterpartyTx = .ok outgoing ∧
      e.incomingPaymentsSummary o newHolderTx newCounterpartyTx = .ok incoming ∧
      Summarizes outgoing incoming e.commitments
        (e.commitments.replace newHolderTx newCounterpartyTx) := by
  obtain ⟨holder, hho, -⟩ := exists_summarizeOpt (o := o) (hfits · true true)
  obtain ⟨holder', hhr, -⟩ := exists_summarizeOpt (o := o) (hfits · true false)
  obtain ⟨counterparty', hco, -⟩ := exists_summarizeOpt (o := o) (hfits · false true)
  obtain ⟨counterparty, hcr, -⟩ := exists_summarizeOpt (o := o) (hfits · false false)
  obtain ⟨outgoing, hout⟩ : ∃ r, e.paymentsSummary o newHolderTx newCounterpartyTx = .ok r :=
    ⟨_, bind_eq_ok.mpr ⟨holder, hho, bind_eq_ok.mpr ⟨counterparty, hcr, rfl⟩⟩⟩
  obtain ⟨incoming, hin⟩ : ∃ r, e.incomingPaymentsSummary o newHolderTx newCounterpartyTx = .ok r :=
    ⟨_, bind_eq_ok.mpr ⟨holder', hhr, bind_eq_ok.mpr ⟨counterparty', hco, rfl⟩⟩⟩
  refine ⟨_, _, hout, hin, fun hash amount => ?_, fun hash amount => ?_⟩
  · obtain ⟨hmem, hamount⟩ := paymentsSummary_ok hout hash
    rw [lookup_eq_some_iff, hmem, hamount hfits]
  · obtain ⟨hmem, hamount⟩ := incomingPaymentsSummary_ok hin hash
    rw [lookup_eq_some_iff, hmem, hamount hfits]

/-- Rearranged HTLCs fit, and are summarized in the same way. -/
theorem Summarizes.of_rearranged {c c' n n' : Commitments} {outgoing incoming : Summary}
    (hc : c.Rearranged c') (hn : n.Rearranged n') (h : Summarizes outgoing incoming c' n') :
    Summarizes outgoing incoming c n := by
  have hout {c c' : Commitments} (h : c.Rearranged c') (hash : PaymentHash) :
      hash ∈ c.outgoingHtlcs.map (·.paymentHash) ↔ hash ∈ c'.outgoingHtlcs.map (·.paymentHash) := by
    simp only [Commitments.outgoingHtlcs, List.map_append, List.mem_append]
    exact or_congr (h true true).mem_iff (h false false).mem_iff
  have hin (hash : PaymentHash) : hash ∈ c.incomingHtlcs.map (·.paymentHash) ↔
      hash ∈ c'.incomingHtlcs.map (·.paymentHash) := by
    simp only [Commitments.incomingHtlcs, List.map_append, List.mem_append]
    exact or_congr (hc true false).mem_iff (hc false true).mem_iff
  have htwice (hash : PaymentHash) : n.ComesInTwice hash ↔ n'.ComesInTwice hash :=
    and_congr (hn true false).mem_iff (hn false true).mem_iff
  have houtgoing (hash : PaymentHash) : n.outgoing hash = n'.outgoing hash :=
    congrArg₂ max (hn true true).valueFor_eq (hn false false).valueFor_eq
  have hincoming (hash : PaymentHash) : n.incoming hash = n'.incoming hash :=
    congrArg₂ min (hn true false).valueFor_eq (hn false true).valueFor_eq
  refine ⟨fun hash amount => ?_, fun hash amount => ?_⟩
  · rw [hout hc, hout hn, houtgoing]
    exact h.outgoing hash amount
  · rw [hin, htwice, hincoming]
    exact h.incoming hash amount

/-- The summaries hold, payment by payment, the larger sum of what goes out and the smaller of what
comes in under the new commitments, and nothing else.  Rearranging the HTLCs changes neither. -/
theorem payment_summaries_exact
    (hfits : (e.commitments.replace newHolderTx newCounterpartyTx).Fits) :
    ∃ outgoing incoming, e.paymentsSummary o newHolderTx newCounterpartyTx = .ok outgoing ∧
      e.incomingPaymentsSummary o newHolderTx newCounterpartyTx = .ok incoming ∧
      Summarizes outgoing incoming e.commitments
        (e.commitments.replace newHolderTx newCounterpartyTx) ∧
      ∀ (e' : EnforcementState) (newHolderTx' newCounterpartyTx' : Option CommitmentInfo2)
        (outgoing' incoming' : Summary), e.commitments.Rearranged e'.commitments →
        (e.commitments.replace newHolderTx newCounterpartyTx).Rearranged
          (e'.commitments.replace newHolderTx' newCounterpartyTx') →
        e'.paymentsSummary o newHolderTx' newCounterpartyTx' = .ok outgoing' →
        e'.incomingPaymentsSummary o newHolderTx' newCounterpartyTx' = .ok incoming' →
        ∀ hash, outgoing'.lookup hash = outgoing.lookup hash ∧
          incoming'.lookup hash = incoming.lookup hash := by
  obtain ⟨outgoing, incoming, hout, hin, hsum⟩ := summarizes_of_fits (o := o) hfits
  refine ⟨outgoing, incoming, hout, hin, hsum, ?_⟩
  intro e' nh nc outgoing' incoming' hc hn ho hi hash
  have hfits' : (e'.commitments.replace nh nc).Fits := fun hash isHolder offered =>
    (hn isHolder offered).valueFor_eq ▸ hfits hash isHolder offered
  obtain ⟨_, _, ho', hi', hsum'⟩ := summarizes_of_fits (o := o) hfits'
  obtain rfl := Except.ok.inj (ho.symm.trans ho')
  obtain rfl := Except.ok.inj (hi.symm.trans hi')
  have hsame := hsum'.of_rearranged hc hn
  constructor
  · exact Option.ext fun n => (hsame.outgoing hash n).trans (hsum.outgoing hash n).symm
  · exact Option.ext fun n => (hsame.incoming hash n).trans (hsum.incoming hash n).symm

/-- A holder commitment with one received HTLC of payment 1. -/
def Sample.receiving : CommitmentInfo2 :=
  .new false ⟨0⟩ 0 ⟨0⟩ ⟨0⟩ 0 144 [] [⟨1000, 1, 500⟩] 1000

/-- A holder commitment that offers two HTLCs of payment 2 and receives one of payment 1. -/
def Sample.routing : CommitmentInfo2 :=
  .new false ⟨0⟩ 0 ⟨0⟩ ⟨0⟩ 0 144 [⟨700, 2, 500⟩, ⟨300, 2, 500⟩] [⟨1000, 1, 500⟩] 1000

/-- The counterparty's commitment, one update behind. -/
def Sample.routed : CommitmentInfo2 :=
  .new true ⟨0⟩ 0 ⟨0⟩ ⟨0⟩ 0 144 [⟨1000, 1, 500⟩, ⟨50, 1, 500⟩] [⟨700, 2, 500⟩] 1000

/-- A payment that is forwarded comes in once and goes out in two parts. -/
theorem payment_summaries_exact_receiving :
    ∃ outgoing incoming,
      (new 0).paymentsSummary .checked (some Sample.routing) (some Sample.routed) = .ok outgoing ∧
      (new 0).incomingPaymentsSummary .checked (some Sample.routing) (some Sample.routed) =
        .ok incoming ∧
      outgoing.lookup 2 = some 1000 ∧ incoming.lookup 1 = some 1000 := by
  have hfits : ((new 0).commitments.replace (some Sample.routing) (some Sample.routed)).Fits :=
    fun hash isHolder offered => (valueFor_le hash _).trans_lt (by
      cases isHolder <;> cases offered <;> decide)
  obtain ⟨outgoing, incoming, hout, hin, hsum, -⟩ := payment_summaries_exact (o := .checked) hfits
  exact ⟨outgoing, incoming, hout, hin, (hsum.outgoing 2 1000).mpr (by decide),
    (hsum.incoming 1 1000).mpr ⟨.inr ⟨by decide, by decide⟩, by decide⟩⟩

/-- A payment that comes in under one new commitment only has no entry at all. -/
theorem incoming_one_sided_absent :
    1 ∈ Sample.receiving.receivedHtlcs.map (·.paymentHash) ∧
      (new 0).incomingPaymentsSummary .checked (some Sample.receiving) none = .ok ∅ :=
  ⟨by decide, rfl⟩

end EnforcementState

end ValidatingSigner
