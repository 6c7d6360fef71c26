import Vls.Node.Host
import Vls.Node.Invariant

/-!
# The amounts in flight of a node that restarts

A restart fills in the amounts in flight from the stored commitments of the channels.  While
channels store what they serve and nothing is pruned, these are the commitments in memory, so that
the ledger holds the same amounts before and after a restart.
-/

namespace ValidatingSigner

open Base EnforcementState NodeState Commitments

/-- The commitments have an HTLC of the payment. -/
def Commitments.Touches (c : Commitments) (hash : PaymentHash) : Prop :=
  hash ∈ (c.incomingHtlcs ++ c.outgoingHtlcs).map (·.paymentHash)

instance (c : Commitments) (hash : PaymentHash) : Decidable (c.Touches hash) :=
  inferInstanceAs (Decidable (hash ∈ (c.incomingHtlcs ++ c.outgoingHtlcs).map (·.paymentHash)))

theorem Commitments.touches_iff {c : Commitments} {hash : PaymentHash} :
    c.Touches hash ↔ hash ∈ c.incomingHtlcs.map (·.paymentHash) ∨
      hash ∈ c.outgoingHtlcs.map (·.paymentHash) := by
  rw [Touches, List.map_append, List.mem_append]

/-- The summaries of the current commitments have an entry for each payment they have an HTLC of. -/
theorem EnforcementState.mem_summaryHashes_iff {o : Overflow} {e : EnforcementState}
    {incoming outgoing : Summary} (hincoming : e.incomingPaymentsSummary o none none = .ok incoming)
    (houtgoing : e.paymentsSummary o none none = .ok outgoing) {hash : PaymentHash} :
    hash ∈ summaryHashes incoming outgoing ↔ e.commitments.Touches hash := by
  rw [mem_summaryHashes, touches_iff,
    (incomingPaymentsSummary_ok hincoming hash).1, (paymentsSummary_ok houtgoing hash).1]
  exact or_congr (or_iff_left_of_imp ComesInTwice.mem_incomingHtlcs) or_self_iff

/-! ## Restored amounts -/

namespace Node

variable {N : Node} {v : SimpleValidator} {stored : Fin N.size → EnforcementState}
  {channels : List (Fin N.size)} {s s' : NodeState}

/-- What restoring channels leaves of a payment: the amounts of the channels that have HTLCs of it,
and what was there for the others. -/
structure Refilled (N : Node) (stored : Fin N.size → EnforcementState)
    (channels : List (Fin N.size))
    (hash : PaymentHash) (s s' : NodeState) : Prop where
  mem : hash ∈ s'.payments ↔
    hash ∈ s.payments ∨ ∃ i ∈ channels, (stored i).commitments.Touches hash
  ids : ∀ k, k ∈ (s'.payment hash).incoming ∨ k ∈ (s'.payment hash).outgoing →
    (k ∈ (s.payment hash).incoming ∨ k ∈ (s.payment hash).outgoing) ∨ ∃ i, (N.channels i).id0 = k
  incoming : ∀ i, (s'.payment hash).incoming.lookup (N.channels i).id0 =
    if i ∈ channels ∧ (stored i).commitments.Touches hash then
      some ((stored i).commitments.incoming hash)
    else (s.payment hash).incoming.lookup (N.channels i).id0
  outgoing : ∀ i, (s'.payment hash).outgoing.lookup (N.channels i).id0 =
    if i ∈ channels ∧ (stored i).commitments.Touches hash then
      some ((stored i).commitments.outgoing hash)
    else (s.payment hash).outgoing.lookup (N.channels i).id0

/-- Restoring the payments of one channel refills each payment it has HTLCs of. -/
theorem refilled_of_restorePayments {i : Fin N.size}
    (hw : (stored i).commitments.Within v.policy.maxHtlcValueSat (N.channels i).setup)
    (h : s.restorePayments N.overflow (N.channels i).id0 (stored i) = .ok s') (hash : PaymentHash) :
    N.Refilled stored [i] hash s s' := by
  obtain ⟨incoming, outgoing, hincoming, houtgoing, -, hlookup⟩ := restorePayments_ok h
  have hin := (incomingPaymentsSummary_ok hincoming hash).2 hw.fits
  have hout := (paymentsSummary_ok houtgoing hash).2 hw.fits
  change incoming.amount hash = (stored i).commitments.incoming hash at hin
  change outgoing.amount hash = (stored i).commitments.outgoing hash at hout
  have hmem : hash ∈ summaryHashes incoming outgoing ↔
      (stored i).commitments.Touches hash := mem_summaryHashes_iff hincoming houtgoing
  by_cases htouches : (stored i).commitments.Touches hash
  · have hpayment : s'.payments.lookup hash =
        some (s.updated (N.channels i).id0 incoming outgoing hash) := by
      rw [hlookup, if_pos (hmem.mpr htouches)]
    refine ⟨?_, ?_, ?_, ?_⟩
    · rw [← AList.lookup_isSome, hpayment]
      simp [htouches]
    · intro k hk
      rw [payment, hpayment, Option.getD_some, updated, RoutedPayment.apply,
        AList.mem_insert, AList.mem_insert] at hk
      rcases hk with (rfl | hk) | rfl | hk
      · exact .inr ⟨i, rfl⟩
      · exact .inl (.inl hk)
      · exact .inr ⟨i, rfl⟩
      · exact .inl (.inr hk)
    · intro j
      rw [payment, hpayment, Option.getD_some, updated, RoutedPayment.apply,
        Table.lookup_insert_eq, hin]
      simp only [N.id0_eq_iff, List.mem_singleton]
      by_cases hj : j = i
      · subst hj
        rw [if_pos rfl, if_pos ⟨rfl, htouches⟩]
      · rw [if_neg hj, if_neg fun h => hj h.1]
    · intro j
      rw [payment, hpayment, Option.getD_some, updated, RoutedPayment.apply,
        Table.lookup_insert_eq, hout]
      simp only [N.id0_eq_iff, List.mem_singleton]
      by_cases hj : j = i
      · subst hj
        rw [if_pos rfl, if_pos ⟨rfl, htouches⟩]
      · rw [if_neg hj, if_neg fun h => hj h.1]
  · have hpayment : s'.payments.lookup hash = s.payments.lookup hash := by
      rw [hlookup, if_neg fun h => htouches (hmem.mp h)]
    have hnot (j : Fin N.size) : ¬ (j ∈ [i] ∧ (stored j).commitments.Touches hash) := by
      rintro ⟨hj, ht⟩
      rw [List.mem_singleton.mp hj] at ht
      exact htouches ht
    have hsame : s'.payment hash = s.payment hash := by rw [payment, hpayment]; rfl
    refine ⟨?_, ?_, ?_, ?_⟩
    · rw [← AList.lookup_isSome, hpayment, AList.lookup_isSome]
      simp [htouches]
    · intro k hk
      rw [hsame] at hk
      exact .inl hk
    · intro j
      rw [hsame, if_neg (hnot j)]
    · intro j
      rw [hsame, if_neg (hnot j)]

/-- Restoring one channel and then others refills from all of them. -/
theorem Refilled.cons {i : Fin N.size} {hash : PaymentHash} {s₁ : NodeState}
    (h₁ : N.Refilled stored [i] hash s s₁) (h : N.Refilled stored channels hash s₁ s') :
    N.Refilled stored (i :: channels) hash s s' := by
  have hlookup {β : Type} {x y z : Option β} {j : Fin N.size}
      (hfirst : y = if j ∈ [i] ∧ (stored j).commitments.Touches hash then x else z) :
      (if j ∈ channels ∧ (stored j).commitments.Touches hash then x else y) =
        if j ∈ i :: channels ∧ (stored j).commitments.Touches hash then x else z := by
    subst hfirst
    by_cases ht : (stored j).commitments.Touches hash
    · by_cases hj : j = i
      · subst hj
        simp [ht]
      · simp [ht, hj]
    · simp [ht]
  refine ⟨?_, ?_, ?_, ?_⟩
  · rw [h.mem, h₁.mem]
    simp [or_assoc]
  · intro k hk
    rcases h.ids k hk with hk | hk
    · exact h₁.ids k hk
    · exact .inr hk
  · intro j
    rw [h.incoming]
    exact hlookup (h₁.incoming j)
  · intro j
    rw [h.outgoing]
    exact hlookup (h₁.outgoing j)

/-- Restoring channels refills every payment. -/
theorem refilled_of_restoreChannels
    (hw : ∀ i, (stored i).commitments.Within v.policy.maxHtlcValueSat (N.channels i).setup)
    (h : N.restoreChannels stored channels s = .ok s') (hash : PaymentHash) :
    N.Refilled stored channels hash s s' := by
  induction channels generalizing s with
  | nil =>
    cases h
    refine ⟨?_, fun k hk => .inl hk, ?_, ?_⟩
    · simp
    · simp
    · simp
  | cons i channels ih =>
    obtain ⟨s₁, h₁, h⟩ := bind_ok h
    exact (refilled_of_restorePayments (hw i) h₁ hash).cons (ih h)

/-- A payment is restored from an entry when it is approved or has a stored preimage, and then with
nothing in flight. -/
theorem payments_restoreState (N : Node) (entry : NodeStateEntry) (hash : PaymentHash) :
    (hash ∈ (N.restoreState entry).payments ↔ hash ∈ entry.invoices ∨
      ∃ preimage ∈ entry.preimages, N.library.sha256 preimage = hash) ∧
    ((N.restoreState entry).payment hash).incoming = ∅ ∧
    ((N.restoreState entry).payment hash).outgoing = ∅ := by
  have hlookup : (N.restoreState entry).payments.lookup hash =
      if hash ∈ entry.invoices then some .new
      else (paymentsOfPreimages N.library.sha256 entry.preimages).lookup hash :=
    lookup_withInvoicePayments _ hash
  rw [payment, ← AList.lookup_isSome, hlookup]
  by_cases hmem : hash ∈ entry.invoices
  · rw [if_pos hmem]
    exact ⟨⟨fun _ => .inl hmem, fun _ => rfl⟩, rfl, rfl⟩
  · rw [if_neg hmem, or_iff_right hmem]
    rcases lookup_paymentsOfPreimages N.library.sha256 entry.preimages hash with
      ⟨preimage, hpreimage, hhash, hfound⟩ | ⟨hnone, hfound⟩
    · rw [hfound]
      exact ⟨⟨fun _ => ⟨preimage, hpreimage, hhash⟩, fun _ => rfl⟩, rfl, rfl⟩
    · rw [hfound]
      refine ⟨⟨fun h => absurd h Bool.false_ne_true, ?_⟩, rfl, rfl⟩
      rintro ⟨preimage, hpreimage, hhash⟩
      exact absurd hhash (hnone preimage hpreimage)

/-- What a restored node has of a payment. -/
structure Restored (N : Node) (disk : NodeDisk N.size) (m : NodeMemory N.size)
    (hash : PaymentHash) : Prop where
  mem : hash ∈ m.node.payments ↔
    (hash ∈ disk.entry.invoices ∨
      ∃ preimage ∈ disk.entry.preimages, N.library.sha256 preimage = hash) ∨
    ∃ i, (disk.channels i).commitments.Touches hash
  ids : ∀ k, k ∈ (m.node.payment hash).incoming ∨ k ∈ (m.node.payment hash).outgoing →
    ∃ i, (N.channels i).id0 = k
  incoming : ∀ i, (m.node.payment hash).incoming.lookup (N.channels i).id0 =
    if (disk.channels i).commitments.Touches hash then
      some ((disk.channels i).commitments.incoming hash) else none
  outgoing : ∀ i, (m.node.payment hash).outgoing.lookup (N.channels i).id0 =
    if (disk.channels i).commitments.Touches hash then
      some ((disk.channels i).commitments.outgoing hash) else none

/-- A restored node has the payments of its entry and of its channels, with the amounts of the
stored commitments. -/
theorem restored_of_restoreNode {disk : NodeDisk N.size} {m : NodeMemory N.size}
    (hw : ∀ i, (disk.channels i).commitments.Within v.policy.maxHtlcValueSat (N.channels i).setup)
    (h : N.restoreNode disk = .ok m) (hash : PaymentHash) : N.Restored disk m hash := by
  obtain ⟨s, hs, h⟩ := bind_ok h
  cases h
  have hrefilled := refilled_of_restoreChannels hw hs hash
  obtain ⟨hmem, hin, hout⟩ := N.payments_restoreState disk.entry hash
  refine ⟨?_, ?_, ?_, ?_⟩
  · rw [hrefilled.mem, hmem]
    simp
  · intro k hk
    rcases hrefilled.ids k hk with hk | hk
    · rw [hin, hout] at hk
      exact absurd hk (by simp)
    · exact hk
  · intro i
    rw [hrefilled.incoming, hin]
    simp
  · intro i
    rw [hrefilled.outgoing, hout]
    simp

/-- The ledger of a restored node holds exactly the amounts of its commitments. -/
theorem follows_of_restoreNode {disk : NodeDisk N.size} {m : NodeMemory N.size}
    (hw : ∀ i, (disk.channels i).commitments.Within v.policy.maxHtlcValueSat (N.channels i).setup)
    (h : N.restoreNode disk = .ok m) : N.Follows v m ∧ ∀ hash, N.Tracked m hash := by
  have hestates := (restoreNode_ok h).2.1
  have hrestored := restored_of_restoreNode hw h
  constructor
  · refine ⟨?_, fun hash => (hrestored hash).ids, ?_, ?_⟩
    · rw [hestates]
      exact hw
    · intro hash i
      rw [(hrestored hash).incoming, hestates]
      split_ifs
      · exact .inr rfl
      · exact .inl rfl
    · intro hash i
      rw [(hrestored hash).outgoing, hestates]
      split_ifs
      · exact .inr rfl
      · exact .inl rfl
  · intro hash i
    rw [Table.amount, Table.amount, (hrestored hash).incoming, (hrestored hash).outgoing, hestates]
    split_ifs with htouches
    · exact ⟨rfl, rfl⟩
    · rw [touches_iff, not_or] at htouches
      rw [incoming_eq_zero htouches.1, outgoing_eq_zero htouches.2]
      exact ⟨rfl, rfl⟩

end Node

/-! ## Runs -/

/-- Channels store what they serve, and nothing is pruned. -/
def HostEvent.Regular {size : Nat} : HostEvent size → Prop
  | .request (.request _ call _) => call.persistOk = true
  | .request (.heartbeat _) => False
  | _ => True

instance {size : Nat} : DecidablePred (@HostEvent.Regular size)
  | .request (.request _ call _) => inferInstanceAs (Decidable (call.persistOk = true))
  | .request (.heartbeat _) => isFalse id
  | .request (.htlcsFulfilled _ _) => isTrue trivial
  | .request (.addInvoice _ _ _) => isTrue trivial
  | .request (.addKeysend _ _ _ _ _) => isTrue trivial
  | .request (.signInvoice _) => isTrue trivial
  | .onchainTx _ _ => isTrue trivial
  | .restart _ => isTrue trivial

/-- What is stored is what the served request leaves in memory, as far as commitments go. -/
theorem Channel.Served.commitments_stored {ch : Channel} {call : Call} {s t : Session}
    {request : Request} {r : Result Reply} (h : ch.Served call s request r t)
    (hpersist : call.persistOk = true) (hs : s.stored.commitments = s.estate.commitments) :
    t.stored.commitments = t.estate.commitments := by
  cases h with
  | point point => exact hs
  | secret n released hn h => exact hs
  | counterparty _ _ _ hended => rw [hended.of_persists hpersist]
  | holder _ _ hended => rw [hended.of_persists hpersist]
  | holderSigned _ _ hended => rw [hended.of_persists hpersist]
  | closeSigned hended => rw [hended.of_persists hpersist]
  | revocationStored refusal _ _ hstore =>
    obtain ⟨secrets, rfl⟩ := storeSecret_ok hstore
    exact hs
  | revocation _ _ _ _ _ hended => rw [hended.of_persists hpersist]

namespace Node

variable {N : Node} {v : SimpleValidator} {event : NodeEvent N.size}

/-- Only an approval or a heartbeat changes the approved payments. -/
theorem Moved.invoices_eq {s s' : NodeState} (hmoved : N.Moved s event s')
    (hadds : event.adds = none) (hprunes : ¬ event.Prunes) : s'.invoices = s.invoices := by
  cases hmoved with
  | kept event => rfl
  | applied happlied => exact (applyPayments_ok happlied).invoices
  | fulfilled hfulfilled =>
    refine htlcsFulfilled_induction (P := fun t => t.invoices = s.invoices) ?_ rfl
      hfulfilled
    intro t t' _ _ ht hful
    rw [hful.invoices, ht]
  | added hevent _ =>
    rw [hadds] at hevent
    cases hevent
  | invoiceSigned hsigned => exact (signInvoice_ok hsigned).1
  | pruned _ => exact absurd trivial hprunes

/-- The stored commitments are those in memory, the ledger holds their amounts, and the stored entry
has the approved payments. -/
structure Live (N : Node) (v : SimpleValidator) (host : NodeHost N.size) : Prop where
  within : ∀ i,
    (host.disk.channels i).commitments.Within v.policy.maxHtlcValueSat (N.channels i).setup
  stored : ∀ m ∈ host.memory, ∀ i, (host.disk.channels i).commitments = (m.estates i).commitments
  follows : ∀ m ∈ host.memory, N.Follows v m
  tracked : ∀ m ∈ host.memory, ∀ hash, N.Tracked m hash
  invoices : ∀ m ∈ host.memory, ∀ hash,
    host.disk.entry.invoices.lookup hash = m.node.invoices.lookup hash

theorem Live.newHost (N : Node) (v : SimpleValidator) (values : Fin N.size → Nat) :
    N.Live v (N.newHost values) := by
  refine ⟨fun i => within_none _ _, ?_, ?_, ?_, ?_⟩
  · rintro m ⟨⟩ i
    rfl
  · rintro m ⟨⟩
    exact .initial N v rfl values
  · rintro m ⟨⟩ hash i
    exact ⟨rfl, rfl⟩
  · rintro m ⟨⟩ hash
    rfl

/-- A regular event served keeps what is stored, the ledger and the commitments together. -/
theorem Live.served {host : NodeHost N.size} {m m' : NodeMemory N.size} (h : N.Live v host)
    (hrestorable : N.Restorable host) (hv : N.validator = v.toValidator)
    (hfilter : v.policy.filter = .default) (hmemory : host.memory = some m)
    (hregular : (HostEvent.request event).Regular) (hstep : (N.step (some m) event).1 = some m') :
    N.Live v ⟨some m', N.diskAfter host.disk m event⟩ := by
  have hprunes : ¬ event.Prunes := by
    intro hprunes
    cases event with
    | heartbeat now => exact hregular
    | request i call request => exact hprunes
    | htlcsFulfilled i preimages => exact hprunes
    | addInvoice persistOk now invoice => exact hprunes
    | addKeysend persistOk now payee hash amountMsat => exact hprunes
    | signInvoice invoice => exact hprunes
  have hchanged := step_changed hv hfilter hstep
  have hfollows := h.follows m hmemory
  have hfollows' := hfollows.step hchanged
  obtain ⟨hchannels, hentry⟩ : (N.diskAfter host.disk m event).channels = m'.stored ∧ _ :=
    diskAfter_of_step hstep
  have hstored (i : Fin N.size) : (m'.stored i).commitments = (m'.estates i).commitments := by
    have hold : (m.stored i).commitments = (m.estates i).commitments := by
      rw [hrestorable.stored m hmemory]
      exact h.stored m hmemory i
    rcases step_channel hstep i with ⟨he, hs⟩ | ⟨call, request, r, t, rfl, hserved, he, hs⟩
    · rw [he, hs]
      exact hold
    · rw [he, hs]
      exact hserved.commitments_stored hregular hold
  refine ⟨?_, ?_, ?_, ?_, ?_⟩
  · intro i
    rw [hchannels, hstored]
    exact hfollows'.within i
  · rintro _ ⟨⟩ i
    rw [hchannels]
    exact hstored i
  · rintro _ ⟨⟩
    exact hfollows'
  · rintro _ ⟨⟩ hash
    exact (h.tracked m hmemory hash).step hfollows hchanged (.inr hprunes)
  · rintro _ ⟨⟩ hash
    rcases hentry with hwritten | ⟨hsame, hledger⟩
    · rw [hwritten]
      rfl
    · rw [hsame, h.invoices m hmemory]
      cases hadds : event.adds with
      | none => rw [(step_moved hstep).invoices_eq hadds hprunes]
      | some payment => rw [(hledger (by rw [hadds]; rfl)).invoices]

/-- A regular event keeps what is stored, the ledger and the commitments together. -/
theorem Live.step {host host' : NodeHost N.size} {event : HostEvent N.size} (h : N.Live v host)
    (hrestorable : N.Restorable host) (hv : N.validator = v.toValidator)
    (hfilter : v.policy.filter = .default) (hregular : event.Regular)
    (hhosted : N.Hosted host event host') : N.Live v host' := by
  cases hhosted with
  | ended _ hchannels =>
    refine ⟨?_, (fun _ hm => nomatch hm), (fun _ hm => nomatch hm), (fun _ hm => nomatch hm),
      (fun _ hm => nomatch hm)⟩
    rcases hchannels with rfl | ⟨m, hm, rfl⟩
    · exact h.within
    · rw [hrestorable.stored m hm]
      exact h.within
  | served hmemory hstep => exact h.served hrestorable hv hfilter hmemory hregular hstep
  | @checked m now nonBeneficialSat r s hmemory hexec =>
    have hfollows := h.follows m hmemory
    obtain ⟨control, rfl⟩ := checkOnchainFee_frame hexec
    refine ⟨h.within, ?_, ?_, ?_, ?_⟩
    · rintro _ ⟨⟩
      exact h.stored m hmemory
    · rintro _ ⟨⟩
      exact ⟨hfollows.within, hfollows.ids, hfollows.incoming, hfollows.outgoing⟩
    · rintro _ ⟨⟩
      exact h.tracked m hmemory
    · rintro _ ⟨⟩
      exact h.invoices m hmemory
  | @restarted m sync hrestore =>
    obtain ⟨hsame, hestates, -⟩ := restoreNode_ok hrestore
    obtain ⟨hfollows, htracked⟩ := follows_of_restoreNode h.within hrestore
    have hinvoices : m.node.invoices = host.disk.entry.invoices := hsame.invoices
    have hdisk : ∀ disk : NodeDisk N.size, disk.channels = host.disk.channels →
        disk.entry.invoices = host.disk.entry.invoices → N.Live v ⟨some m, disk⟩ := by
      intro disk hchannels hentry
      refine ⟨?_, ?_, ?_, ?_, ?_⟩
      · rw [hchannels]
        exact h.within
      · rintro _ ⟨⟩ i
        rw [hchannels, hestates]
      · rintro _ ⟨⟩
        exact hfollows
      · rintro _ ⟨⟩
        exact htracked
      · rintro _ ⟨⟩ hash
        rw [hentry, hinvoices]
    apply hdisk
    · split_ifs
      · rfl
      · rfl
    · split_ifs
      · exact hinvoices
      · rfl

/-- Every host that a new one reaches by regular events is live. -/
theorem Live.final (hv : N.validator = v.toValidator) (hfilter : v.policy.filter = .default)
    (values : Fin N.size → Nat) (events : List (HostEvent N.size))
    (hregular : ∀ event ∈ events, event.Regular) :
    N.Live v (N.hostMachine.final (N.newHost values) events) := by
  refine (N.hostMachine.final_induction (C := fun x => x.event.Regular)
    (P := fun host => N.Restorable host ∧ N.Live v host)
    ⟨.newHost N values, .newHost N v values⟩ ?_ events ?_).2
  · intro host event ⟨hrestorable, hlive⟩ hevent
    have hhosted := hostStep_hosted host event
    exact ⟨hrestorable.step hhosted, hlive.step hrestorable hv hfilter hevent hhosted⟩
  · intro x hx
    exact hregular x.event (N.hostMachine.event_mem_of_mem_trace hx)

end Node

end ValidatingSigner
