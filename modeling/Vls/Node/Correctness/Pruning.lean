import Vls.Node.Live
import Vls.Node.Pruning

/-!
# Pruning and live channels

A heartbeat goes unseen by a channel when it changes neither the verdict on the channel's current
commitments nor its balance and drops nothing that belongs to one of their HTLCs.  That is so
exactly when nothing of these HTLCs is due; but a payment with a known preimage is due while its
HTLC is still there.
-/

namespace ValidatingSigner

open Base EnforcementState

/-! ## The verdict on a commitment -/

/-- The checks of the payments of a commitment that is handed over again. -/
def Channel.revalidatePayments (ch : Channel) (node : NodeState) (e : EnforcementState)
    (newHolderTx newCounterpartyTx : Option CommitmentInfo2) : Result Unit := do
  let delta ← e.claimableBalances ch.overflow node.hasPreimage newHolderTx newCounterpartyTx
    ch.setup
  let incoming ← e.incomingPaymentsSummary ch.overflow newHolderTx newCounterpartyTx
  let outgoing ← e.paymentsSummary ch.overflow newHolderTx newCounterpartyTx
  node.validatePayments ch.overflow ch.validator ch.id0 incoming outgoing delta

namespace NodeState

variable {o : Overflow} {v : Validator} {s s' : NodeState} {hash : PaymentHash}

theorem SameEntries.hasPreimage_eq (h : s.SameEntries s' hash) :
    s'.hasPreimage hash = s.hasPreimage hash := by
  unfold hasPreimage
  rw [h.payments]

theorem SameEntries.isUnbalanced_eq (h : s.SameEntries s' hash) (channelId : ChannelId)
    (incoming outgoing : Summary) :
    s'.isUnbalanced o v channelId incoming outgoing hash =
      s.isUnbalanced o v channelId incoming outgoing hash := by
  unfold isUnbalanced updatedTotals
  rw [h.payments, h.invoices]

end NodeState

namespace EnforcementState

variable {o : Overflow} {e : EnforcementState} {hash : PaymentHash}

theorem touches_of_hasHtlc (h : e.HasHtlc hash) : e.commitments.Touches hash := by
  have hmem {info : CommitmentInfo2} (hhtlc : info.HasHtlc hash) :
      hash ∈ info.offeredHtlcs.map (·.paymentHash) ∨
        hash ∈ info.receivedHtlcs.map (·.paymentHash) := by
    rwa [CommitmentInfo2.HasHtlc, List.map_append, List.mem_append] at hhtlc
  rw [Commitments.touches_iff]
  simp only [Commitments.incomingHtlcs, Commitments.outgoingHtlcs, List.map_append,
    List.mem_append, commitments]
  rcases h with ⟨info, hinfo, hhtlc⟩ | ⟨info, hinfo, hhtlc⟩
  · rw [hinfo]
    rcases hmem hhtlc with h | h
    · exact .inr (.inl h)
    · exact .inl (.inl h)
  · rw [hinfo]
    rcases hmem hhtlc with h | h
    · exact .inl (.inr h)
    · exact .inr (.inr h)

/-- Handing over a current commitment again proposes the current payments. -/
theorem summaries_repeated {newHolderTx newCounterpartyTx : Option CommitmentInfo2}
    (hholder : newHolderTx.or e.currentHolderCommitInfo = e.currentHolderCommitInfo)
    (hcounterparty :
      newCounterpartyTx.or e.currentCounterpartyCommitInfo = e.currentCounterpartyCommitInfo) :
    e.incomingPaymentsSummary o newHolderTx newCounterpartyTx =
        e.incomingPaymentsSummary o none none ∧
      e.paymentsSummary o newHolderTx newCounterpartyTx = e.paymentsSummary o none none := by
  unfold incomingPaymentsSummary paymentsSummary
  rw [hholder, hcounterparty]
  exact ⟨rfl, rfl⟩

end EnforcementState

/-- Where the entries of all HTLCs are the same, so is the verdict on a repeated commitment. -/
theorem Channel.revalidatePayments_congr (ch : Channel) {s s' : NodeState} {e : EnforcementState}
    (h : ∀ hash, e.commitments.Touches hash → s.SameEntries s' hash)
    (hexcess : s'.excessAmount = s.excessAmount)
    {newHolderTx newCounterpartyTx : Option CommitmentInfo2}
    (hholder : newHolderTx.or e.currentHolderCommitInfo = e.currentHolderCommitInfo)
    (hcounterparty :
      newCounterpartyTx.or e.currentCounterpartyCommitInfo = e.currentCounterpartyCommitInfo) :
    ch.revalidatePayments s' e newHolderTx newCounterpartyTx =
      ch.revalidatePayments s e newHolderTx newCounterpartyTx := by
  unfold revalidatePayments
  obtain ⟨hincoming, houtgoing⟩ := summaries_repeated (o := ch.overflow) hholder hcounterparty
  have hknown (hash : PaymentHash) (hhtlc : e.HasHtlc hash) :
      s'.hasPreimage hash = s.hasPreimage hash :=
    (h hash (touches_of_hasHtlc hhtlc)).hasPreimage_eq
  unfold claimableBalances
  rw [hincoming, houtgoing, hholder, hcounterparty,
    claimableOpt_congr fun tx htx hash hhtlc => hknown hash (.inl ⟨tx, htx, hhtlc⟩),
    claimableOpt_congr fun tx htx hash hhtlc => hknown hash (.inr ⟨tx, htx, hhtlc⟩)]
  refine congrArg _ (funext fun delta => ?_)
  cases hin : e.incomingPaymentsSummary ch.overflow none none with
  | error fault => rfl
  | ok incoming =>
    cases hout : e.paymentsSummary ch.overflow none none with
    | error fault => rfl
    | ok outgoing =>
      refine NodeState.validatePayments_congr (fun hash hmem => ?_) fun _ => hexcess
      exact (h hash ((mem_summaryHashes_iff hin hout).mp hmem)).isUnbalanced_eq _ _ _

/-! ## Heartbeats -/

namespace Node

/-- The change of the payment state to `s'` goes unseen by channel `i`: the verdict on its current
commitments, its balance and the entries of their HTLCs stay. -/
structure Unseen (N : Node) (m : NodeMemory N.size) (s' : NodeState) (i : Fin N.size) : Prop where
  holder : ∀ info, (m.estates i).currentHolderCommitInfo = some info →
    (N.channels i).revalidatePayments s' (m.estates i) (some info) none =
      (N.channels i).revalidatePayments m.node (m.estates i) (some info) none
  counterparty : ∀ info, (m.estates i).currentCounterpartyCommitInfo = some info →
    (N.channels i).revalidatePayments s' (m.estates i) none (some info) =
      (N.channels i).revalidatePayments m.node (m.estates i) none (some info)
  balance : (m.estates i).balance N.overflow s'.hasPreimage (N.channels i).setup =
    (m.estates i).balance N.overflow m.node.hasPreimage (N.channels i).setup
  entries : ∀ hash, (m.estates i).commitments.Touches hash → m.node.SameEntries s' hash

/-- A heartbeat goes unseen by every channel iff nothing is due of any HTLC of a current
commitment. -/
theorem heartbeat_unseen_iff (N : Node) (m : NodeMemory N.size) (now : Nat) (s' : NodeState)
    (h : m.node.prune N.overflow now = .ok s') :
    (∀ i, N.Unseen m s' i) ↔
      ∀ i hash, (m.estates i).commitments.Touches hash → ¬ m.node.Due N.overflow now hash := by
  constructor
  · intro hunseen i hash htouches
    exact (NodeState.sameEntries_prune_iff h hash).mp ((hunseen i).entries hash htouches)
  · intro hdue i
    have hentries (hash : PaymentHash) (htouches : (m.estates i).commitments.Touches hash) :
        m.node.SameEntries s' hash :=
      (NodeState.sameEntries_prune_iff h hash).mpr (hdue i hash htouches)
    have hexcess := (NodeState.prune_ok h).excess
    refine ⟨fun info hinfo => ?_, fun info hinfo => ?_, ?_, hentries⟩
    · exact Channel.revalidatePayments_congr _ hentries hexcess (by rw [hinfo]; rfl) rfl
    · exact Channel.revalidatePayments_congr _ hentries hexcess rfl (by rw [hinfo]; rfl)
    · exact balance_congr
        (fun hash hhtlc => (hentries hash (touches_of_hasHtlc hhtlc)).hasPreimage_eq) _ _

open Sample

/-- An HTLC goes out for an approved invoice, and its preimage becomes known. -/
def Sample.sendAndLearn : List (HostEvent 1) :=
  [.addInvoice true 0 (invoice 20000000), holder 0 0 999000 0 [] [],
    counterparty 0 0 ⟨7⟩ 999000 0 [] [], holder 0 1 979000 0 [htlc 20000] [],
    counterparty 0 1 ⟨8⟩ 979000 0 [] [htlc 20000],
    .htlcsFulfilled 0 [1]].map .request

/-- One of two approved invoices is paid, and the preimage is not known yet. -/
def Sample.payOneOfTwo : List (HostEvent 1) :=
  .request (.addInvoice true 0 { invoice 1000 with paymentHash := 5 }) :: Sample.sendAndLearn.take 5

/-- A heartbeat that drops the invoice nobody pays goes unseen by a channel with an HTLC for the
other one. -/
theorem heartbeat_unseen_iff_sample :
    ∃ m ∈ (oneChannel.hostMachine.final (oneChannel.newHost fun _ => 1000000)
        Sample.payOneOfTwo).memory,
      ∃ s', m.node.prune oneChannel.overflow (durationFromSecs 100000) = .ok s' ∧
        5 ∈ m.node.invoices ∧ 5 ∉ s'.invoices ∧ (∀ i, (m.estates i).commitments.Touches 0) ∧
        ∀ i, oneChannel.Unseen m s' i := by
  have hrun : ∃ m ∈ (oneChannel.hostMachine.final
      (oneChannel.newHost fun _ => 1000000) Sample.payOneOfTwo).memory,
      ∃ s' ∈ (m.node.prune oneChannel.overflow (durationFromSecs 100000)).toOption,
        (5 ∈ m.node.invoices ∧ 5 ∉ s'.invoices ∧ ∀ i, (m.estates i).commitments.Touches 0) ∧
        (0 ∈ s'.invoices ∧ s'.invoices.lookup 0 = m.node.invoices.lookup 0 ∧
          s'.issuedInvoices.lookup 0 = m.node.issuedInvoices.lookup 0) ∧
        ∀ i, ∀ htlc ∈ (m.estates i).commitments.incomingHtlcs ++
          (m.estates i).commitments.outgoingHtlcs, htlc.paymentHash = 0 := by
    decide +kernel
  obtain ⟨m, hm, s', hs', ⟨hbefore, hafter, htouched⟩, ⟨hkept, hinvoices, hissued⟩, hzero⟩ := hrun
  have hprune := mem_toOption.mp hs'
  refine ⟨m, hm, s', hprune, hbefore, hafter, htouched,
    (heartbeat_unseen_iff oneChannel m _ s' hprune).mpr ?_⟩
  intro i hash htouches
  obtain ⟨htlc, hmem, rfl⟩ := List.mem_map.mp htouches
  rw [hzero i htlc hmem]
  exact (NodeState.sameEntries_prune_iff hprune 0).mp
    ⟨hinvoices, hissued, (NodeState.prune_ok hprune).kept 0 hkept⟩

/-- A heartbeat a day after the invoice has expired drops the payment of an HTLC that is still
there; from then on the current commitment is refused. -/
theorem fulfilled_payment_dropped :
    ∃ m ∈ (oneChannel.hostMachine.final (oneChannel.newHost fun _ => 1000000)
        Sample.sendAndLearn).memory,
      ∃ s', m.node.prune oneChannel.overflow (durationFromSecs 100000) = .ok s' ∧
        ¬ ∀ i, oneChannel.Unseen m s' i := by
  have hrun : ∃ m ∈ (oneChannel.hostMachine.final
      (oneChannel.newHost fun _ => 1000000) Sample.sendAndLearn).memory,
      ∃ s' ∈ (m.node.prune oneChannel.overflow (durationFromSecs 100000)).toOption,
        ∃ i, ∃ info ∈ (m.estates i).currentHolderCommitInfo,
          ((oneChannel.channels i).revalidatePayments s' (m.estates i) (some info)
            none).isOk = false ∧
          ((oneChannel.channels i).revalidatePayments m.node (m.estates i) (some info)
            none).isOk = true := by
    decide +kernel
  obtain ⟨m, hm, s', hs', i, info, hinfo, hafter, hbefore⟩ := hrun
  refine ⟨m, hm, s', mem_toOption.mp hs', fun hunseen => ?_⟩
  rw [(hunseen i).holder info hinfo, hbefore] at hafter
  cases hafter

end Node

end ValidatingSigner
