import Vls.Node.Live

/-!
# The checks on payments after a restart

The amounts in flight survive a restart.  What the ledger does not keep is which payments it has
seen: one whose HTLCs are gone is unknown after a restart, and a payment that is known but not
approved escapes the check on its balance.  The excess of the holder's balance is not stored either.
-/

namespace ValidatingSigner

open Base EnforcementState Table NodeState Sample

namespace NodeState

/-- Two states with the same amounts in flight and the same approved payments. -/
structure SameAmounts (s s' : NodeState) : Prop where
  incoming : ∀ hash k, (s'.payment hash).incoming.amount k = (s.payment hash).incoming.amount k
  outgoing : ∀ hash k, (s'.payment hash).outgoing.amount k = (s.payment hash).outgoing.amount k
  invoices : ∀ hash, s'.invoices.lookup hash = s.invoices.lookup hash

section Checks

variable {o : Overflow} {v : Validator} {s s' : NodeState} {channelId : ChannelId}
  {incoming outgoing : Summary} {delta : BalanceDelta} {hash : PaymentHash}

/-- The totals a check sees are those of the updated payment, whether it is recorded or not. -/
theorem updatedTotals_eq (hin : incoming.amount hash < 2 ^ 64)
    (hout : outgoing.amount hash < 2 ^ 64) :
    updatedTotals o s channelId incoming outgoing hash =
      (s.updated channelId incoming outgoing hash).incomingOutgoing o := by
  unfold updatedTotals updated payment
  cases s.payments.lookup hash with
  | some p => rfl
  | none =>
    simp only [Option.getD_none, RoutedPayment.incomingOutgoing, RoutedPayment.apply,
      RoutedPayment.new, total_insert_empty, o.u64_of_lt hin, o.u64_of_lt hout, ok_bind]
    rfl

/-- The totals of an updated payment depend on the amounts in flight only. -/
theorem SameAmounts.incomingOutgoing_updated (h : s.SameAmounts s') :
    (s'.updated channelId incoming outgoing hash).incomingOutgoing o =
      (s.updated channelId incoming outgoing hash).incomingOutgoing o := by
  have hin : (s'.updated channelId incoming outgoing hash).incoming.total =
      (s.updated channelId incoming outgoing hash).incoming.total := by
    apply total_congr
    intro k
    simp only [updated, RoutedPayment.apply, amount_insert, h.incoming]
  have hout : (s'.updated channelId incoming outgoing hash).outgoing.total =
      (s.updated channelId incoming outgoing hash).outgoing.total := by
    apply total_congr
    intro k
    simp only [updated, RoutedPayment.apply, amount_insert, h.outgoing]
  unfold RoutedPayment.incomingOutgoing
  rw [hin, hout]

/-- A payment that only one of the states records has nothing in flight. -/
theorem SameAmounts.eq_zero_of_recorded_once (h : s.SameAmounts s')
    (hrecorded : ¬ (hash ∈ s.payments ↔ hash ∈ s'.payments)) (k : ChannelId) :
    (s.payment hash).incoming.amount k = 0 ∧ (s.payment hash).outgoing.amount k = 0 := by
  have hnew {t : NodeState} (hmem : hash ∉ t.payments) : t.payment hash = .new := by
    rw [payment, AList.lookup_eq_none.mpr hmem]
    rfl
  by_cases hmem : hash ∈ s.payments
  · have hnot : hash ∉ s'.payments := fun hmem' => hrecorded ⟨fun _ => hmem', fun _ => hmem⟩
    rw [← h.incoming, ← h.outgoing, hnew hnot]
    exact ⟨rfl, rfl⟩
  · rw [hnew hmem]
    exact ⟨rfl, rfl⟩

/-- A payment that is approved, or recorded in both states or in none, is checked alike. -/
theorem SameAmounts.isUnbalanced_eq (h : s.SameAmounts s')
    (hrecorded : hash ∈ s.invoices ∨ (hash ∈ s'.payments ↔ hash ∈ s.payments))
    (hin : incoming.amount hash < 2 ^ 64) (hout : outgoing.amount hash < 2 ^ 64) :
    isUnbalanced o v s' channelId incoming outgoing hash =
      isUnbalanced o v s channelId incoming outgoing hash := by
  have hflag : ((s'.payments.lookup hash).isSome &&
      ((s.invoices.lookup hash).map (·.amountMsat)).isNone) =
      ((s.payments.lookup hash).isSome &&
        ((s.invoices.lookup hash).map (·.amountMsat)).isNone) := by
    rcases hrecorded with hmem | hiff
    · obtain ⟨state, hstate⟩ := Option.isSome_iff_exists.mp (AList.lookup_isSome.mpr hmem)
      simp [hstate]
    · rw [← AList.lookup_isSome, ← AList.lookup_isSome, ← Bool.eq_iff_iff] at hiff
      rw [hiff]
  unfold isUnbalanced
  rw [updatedTotals_eq hin hout, updatedTotals_eq hin hout, h.incomingOutgoing_updated, h.invoices]
  simp only [hflag]

end Checks

/-! ## Checks that tell states apart -/

section Probes

variable {o : Overflow} {v : SimpleValidator} {s : NodeState} {channelId : ChannelId}
  {hash : PaymentHash}

/-- A state whose balance must not fall short accepts to use up its excess, if it has any. -/
theorem excess_of_validateBalance (henforce : v.policy.enforceBalance = true) {s' : NodeState}
    (hzero : s'.excessAmount = 0)
    (hsame : validateBalance v.toValidator s' ⟨s.excessAmount, 0⟩ =
      validateBalance v.toValidator s ⟨s.excessAmount, 0⟩) : s.excessAmount = 0 := by
  by_contra hne
  have hpos : 0 < s.excessAmount := Nat.pos_of_ne_zero hne
  have hvalidator : v.toValidator.enforceBalance = true := henforce
  unfold validateBalance at hsame
  rw [if_pos hvalidator, if_pos hvalidator, hzero] at hsame
  dsimp only [Nat.add_zero] at hsame
  rw [if_pos (Nat.two_pow_pos 64)] at hsame
  by_cases hword : s.excessAmount < 2 ^ 64
  · rw [if_pos hword] at hsame
    simp [expect, refuseIf, hpos] at hsame
  · rw [if_neg hword] at hsame
    simp only [expect, refuseIf, ok_bind, if_pos hpos] at hsame
    cases hsame

/-- The outgoing summary of one satoshi for a payment. -/
def probe (hash : PaymentHash) : Summary := (∅ : Summary).insert hash 1

/-- Sending one satoshi of a payment that is not approved and has nothing in flight is unbalanced
unless the payment is recorded. -/
theorem isUnbalanced_probe (hfilter : v.policy.filter = .default)
    (hin : ∀ k, (s.payment hash).incoming.amount k = 0)
    (hout : ∀ k, (s.payment hash).outgoing.amount k = 0) (hinvoice : hash ∉ s.invoices) :
    isUnbalanced v.overflow v.toValidator s channelId ∅ (probe hash) hash =
      .ok (!(s.payments.lookup hash).isSome) := by
  have hprobe : (probe hash).amount hash = 1 := by
    rw [probe, amount_insert, if_pos rfl]
  have hincoming : (s.updated channelId ∅ (probe hash) hash).incoming.total = 0 := by
    rw [total_eq_zero_iff]
    intro k
    simp only [updated, RoutedPayment.apply, amount_insert, amount_empty, hin, ite_self]
  have houtgoing : (s.updated channelId ∅ (probe hash) hash).outgoing.total = 1 := by
    have htotal := total_insert (s.payment hash).outgoing channelId 1
    rw [hout, total_eq_zero_iff.mpr hout] at htotal
    rw [updated, RoutedPayment.apply, hprobe]
    exact htotal
  have hrefused : ∃ refusal, v.validatePaymentBalance 0 1000 none = .error (.refuse refusal) := by
    unfold SimpleValidator.validatePaymentBalance SimpleValidator.maxToInvoice
    simp only [ok_bind, Nat.add_zero, Overflow.u64_of_lt v.overflow (Nat.two_pow_pos 64), hfilter]
    exact ⟨_, rfl⟩
  obtain ⟨refusal, hrefused⟩ := hrefused
  have hrefused' : v.toValidator.validatePaymentBalance 0 1000 none = .error (.refuse refusal) :=
    hrefused
  unfold isUnbalanced
  rw [updatedTotals_eq (by rw [amount_empty]; decide) (by rw [hprobe]; decide),
    RoutedPayment.incomingOutgoing, hincoming, houtgoing, AList.lookup_eq_none.mpr hinvoice]
  have hzero : (v.overflow.u64 0 : Result Nat) = .ok 0 := v.overflow.u64_of_lt (by decide)
  have hone : (v.overflow.u64 1 : Result Nat) = .ok 1 := v.overflow.u64_of_lt (by decide)
  have hmsat : (v.overflow.u64 1000 : Result Nat) = .ok 1000 := v.overflow.u64_of_lt (by decide)
  simp only [hzero, hone, hmsat, ok_bind, pure_bind, Nat.zero_mul, Nat.one_mul, Option.map_none,
    hrefused', Option.isNone_none, Bool.and_true]

theorem probe_lt (hash h : PaymentHash) :
    (∅ : Summary).amount h < 2 ^ 64 ∧ (probe hash).amount h < 2 ^ 64 := by
  refine ⟨Nat.two_pow_pos 64, ?_⟩
  rw [probe, amount_insert]
  split_ifs
  · exact Nat.one_lt_two_pow (by decide)
  · exact Nat.two_pow_pos 64

theorem summaryHashes_probe (hash : PaymentHash) : summaryHashes ∅ (probe hash) = [hash] := by
  simp [summaryHashes, probe]

/-- So such a payment passes the checks exactly when it is recorded. -/
theorem validatePayments_probe (hfilter : v.policy.filter = .default)
    (hin : ∀ k, (s.payment hash).incoming.amount k = 0)
    (hout : ∀ k, (s.payment hash).outgoing.amount k = 0) (hinvoice : hash ∉ s.invoices)
    (hexcess : v.policy.enforceBalance = true → s.excessAmount = 0) :
    validatePayments v.overflow v.toValidator s channelId ∅ (probe hash) ⟨0, 0⟩ = .ok () ↔
      hash ∈ s.payments := by
  have hbalance : validateBalance v.toValidator s ⟨0, 0⟩ = .ok () := by
    unfold validateBalance
    by_cases henforce : v.toValidator.enforceBalance = true
    · rw [if_pos henforce, hexcess henforce]
      rfl
    · rw [if_neg henforce]
  simp only [validatePayments, summaryHashes_probe, List.mapM_cons, List.mapM_nil,
    isUnbalanced_probe hfilter hin hout hinvoice, ok_bind, pure_bind, hbalance]
  have hdefault : v.toValidator.filter = .default := hfilter
  rw [hdefault, ← AList.lookup_isSome]
  cases (s.payments.lookup hash).isSome with
  | true => simp [PolicyFilter.policyErr]
  | false => simp [PolicyFilter.policyErr, PolicyFilter.policyError, Bind.bind, Except.bind]

end Probes

end NodeState

/-! ## Restarts -/

/-- The payments that are recorded but not approved are those with an HTLC in a current commitment
or with a stored preimage. -/
def Node.RecordsKnown (N : Node) (entry : NodeStateEntry) (m : NodeMemory N.size) : Prop :=
  ∀ hash, hash ∉ m.node.invoices → (hash ∈ m.node.payments ↔
    (∃ preimage ∈ entry.preimages, N.library.sha256 preimage = hash) ∨
      ∃ i, (m.estates i).commitments.Touches hash)

section Verdict

variable {N : Node} {v : SimpleValidator} {m m' : NodeMemory N.size} {disk : NodeDisk N.size}

/-- A restarted node has the amounts in flight and the approved payments it had. -/
theorem Node.Live.sameAmounts {host : NodeHost N.size} (hlive : N.Live v host)
    (hmemory : host.memory = some m) (hrestore : N.restoreNode host.disk = .ok m') :
    m.node.SameAmounts m'.node := by
  obtain ⟨hfollows', htracked'⟩ := Node.follows_of_restoreNode hlive.within hrestore
  obtain ⟨hsame, hestates, -⟩ := Node.restoreNode_ok hrestore
  have hfollows := hlive.follows m hmemory
  have hcommitments (i : Fin N.size) :
      (m'.estates i).commitments = (m.estates i).commitments := by
    rw [hestates]
    exact hlive.stored m hmemory i
  refine ⟨?_, ?_, ?_⟩
  · intro hash k
    by_cases hk : ∃ i, (N.channels i).id0 = k
    · obtain ⟨i, rfl⟩ := hk
      rw [(htracked' hash i).1, (hlive.tracked m hmemory hash i).1, hcommitments]
    · rw [amount_of_notMem fun hmem => hk (hfollows'.ids hash k (.inl hmem)),
        amount_of_notMem fun hmem => hk (hfollows.ids hash k (.inl hmem))]
  · intro hash k
    by_cases hk : ∃ i, (N.channels i).id0 = k
    · obtain ⟨i, rfl⟩ := hk
      rw [(htracked' hash i).2, (hlive.tracked m hmemory hash i).2, hcommitments]
    · rw [amount_of_notMem fun hmem => hk (hfollows'.ids hash k (.inr hmem)),
        amount_of_notMem fun hmem => hk (hfollows.ids hash k (.inr hmem))]
  · intro hash
    rw [hsame.invoices]
    exact hlive.invoices m hmemory hash

end Verdict

/-- A node restarted from what it has stored has every amount in flight that it had, and it checks
every next commitment as before exactly when the payments it has seen are those it restores and,
where the balance is enforced, it has no excess. -/
theorem restart_keeps_in_flight {N : Node} {v : SimpleValidator} (hv : N.validator = v.toValidator)
    (hfilter : v.policy.filter = .default) (values : Fin N.size → Nat)
    (events : List (HostEvent N.size)) (hregular : ∀ event ∈ events, event.Regular)
    {m : NodeMemory N.size}
    (hm : (N.hostMachine.final (N.newHost values) events).memory = some m) :
    ∃ m', N.restoreNode (N.hostMachine.final (N.newHost values) events).disk = .ok m' ∧
      (∀ hash channelId,
        (m'.node.payment hash).incoming.amount channelId =
          (m.node.payment hash).incoming.amount channelId ∧
        (m'.node.payment hash).outgoing.amount channelId =
          (m.node.payment hash).outgoing.amount channelId) ∧
      ((∀ channelId incoming outgoing delta,
          (∀ hash, incoming.amount hash < 2 ^ 64 ∧ outgoing.amount hash < 2 ^ 64) →
          m'.node.validatePayments N.overflow N.validator channelId incoming outgoing delta =
            m.node.validatePayments N.overflow N.validator channelId incoming outgoing delta) ↔
        N.RecordsKnown (N.hostMachine.final (N.newHost values) events).disk.entry m ∧
          (v.policy.enforceBalance = true → m.node.excessAmount = 0)) := by
  have hlive := Node.Live.final hv hfilter values events hregular
  have hrestorable := Node.Restorable.final N values events
  generalize N.hostMachine.final (N.newHost values) events = host at hm hlive hrestorable
  obtain ⟨m', hrestore⟩ := Node.restoreNode_total hrestorable.channels
  have hamounts := hlive.sameAmounts hm hrestore
  have hzero : m'.node.excessAmount = 0 := (Node.restoreNode_ok hrestore).1.excess
  have hrecorded {hash : PaymentHash} (hinvoice : hash ∉ m.node.invoices) :
      hash ∈ m'.node.payments ↔
        (∃ preimage ∈ host.disk.entry.preimages, N.library.sha256 preimage = hash) ∨
          ∃ i, (m.estates i).commitments.Touches hash := by
    have hentry : hash ∉ host.disk.entry.invoices := by
      rw [← AList.lookup_eq_none, hlive.invoices m hm, AList.lookup_eq_none]
      exact hinvoice
    rw [(Node.restored_of_restoreNode hlive.within hrestore hash).mem]
    simp only [hentry, false_or, hlive.stored m hm]
  have hoverflow : N.overflow = v.overflow := by
    rw [Node.overflow, hv]
    rfl
  refine ⟨m', hrestore, fun hash k => ⟨hamounts.incoming hash k, hamounts.outgoing hash k⟩, ?_⟩
  rw [hoverflow, hv]
  constructor
  · intro hsame
    have hexcess (henforce : v.policy.enforceBalance = true) : m.node.excessAmount = 0 :=
      excess_of_validateBalance henforce hzero
        (hsame ⟨[]⟩ ∅ ∅ ⟨m.node.excessAmount, 0⟩ fun _ => ⟨Nat.two_pow_pos 64, Nat.two_pow_pos 64⟩)
    refine ⟨?_, hexcess⟩
    intro hash hinvoice
    rw [← hrecorded hinvoice]
    by_contra hdiffer
    have hnone := hamounts.eq_zero_of_recorded_once hdiffer
    have hinvoice' : hash ∉ m'.node.invoices := by
      rw [← AList.lookup_eq_none, hamounts.invoices, AList.lookup_eq_none]
      exact hinvoice
    have hprobe : m.node.validatePayments v.overflow v.toValidator ⟨[]⟩ ∅ (probe hash)
        ⟨0, 0⟩ = .ok () ↔ hash ∈ m.node.payments :=
      validatePayments_probe hfilter (fun k => (hnone k).1) (fun k => (hnone k).2)
        hinvoice hexcess
    have hprobe' : m'.node.validatePayments v.overflow v.toValidator ⟨[]⟩ ∅ (probe hash)
        ⟨0, 0⟩ = .ok () ↔ hash ∈ m'.node.payments :=
      validatePayments_probe hfilter
        (fun k => (hamounts.incoming hash k).trans (hnone k).1)
        (fun k => (hamounts.outgoing hash k).trans (hnone k).2) hinvoice' fun _ => hzero
    rw [hsame ⟨[]⟩ ∅ (probe hash) ⟨0, 0⟩ (probe_lt hash)] at hprobe'
    exact hdiffer (hprobe.symm.trans hprobe')
  · rintro ⟨hknown, hexcess⟩ channelId incoming outgoing delta hbounds
    apply validatePayments_congr
    · intro hash _
      apply hamounts.isUnbalanced_eq
      · by_cases hinvoice : hash ∈ m.node.invoices
        · exact .inl hinvoice
        · right
          rw [hrecorded hinvoice, hknown hash hinvoice]
      · exact (hbounds hash).1
      · exact (hbounds hash).2
    · intro henforce
      rw [hzero, hexcess henforce]

/-- A payment comes in on both commitments and is taken off again. -/
def Sample.receiveAndSettle : List (HostEvent 1) :=
  [holder 0 0 999000 0 [] [], counterparty 0 0 ⟨7⟩ 999000 0 [] [],
    holder 0 1 899000 0 [] [htlc 99500], counterparty 0 1 ⟨8⟩ 899000 0 [htlc 99500] [],
    revoke 0 0 7, holder 0 2 999000 0 [] [], counterparty 0 2 ⟨9⟩ 999000 0 [] []].map .request

/-- An HTLC that goes out for the same payment, which is not approved. -/
def Sample.sendUnapproved : HostEvent 1 :=
  .request (holder 0 3 899000 0 [htlc 99500] [])

/-- A restart while a payment is in flight. -/
theorem restart_keeps_in_flight_sample :
    ∃ m ∈ (oneChannel.hostMachine.final (oneChannel.newHost fun _ => 1000000)
        (receiveAndSettle.take 4)).memory,
      ∃ m', oneChannel.restoreNode (oneChannel.hostMachine.final
          (oneChannel.newHost fun _ => 1000000) (receiveAndSettle.take 4)).disk =
            .ok m' ∧
        ∀ hash channelId,
          (m'.node.payment hash).incoming.amount channelId =
            (m.node.payment hash).incoming.amount channelId ∧
          (m'.node.payment hash).outgoing.amount channelId =
            (m.node.payment hash).outgoing.amount channelId := by
  have hregular : ∀ event ∈ receiveAndSettle.take 4, event.Regular := by decide
  have hrun : ∃ m ∈ (oneChannel.hostMachine.final
      (oneChannel.newHost fun _ => 1000000) (receiveAndSettle.take 4)).memory,
      (m.node.payment 0).incoming.total = 99500 := by
    decide +kernel
  obtain ⟨m, hm, -⟩ := hrun
  obtain ⟨m', hrestore, hamounts, -⟩ := restart_keeps_in_flight (N := oneChannel)
    (v := validator .wrapping) rfl rfl (fun _ => 1000000) (receiveAndSettle.take 4)
    hregular hm
  exact ⟨m, hm, m', hrestore, hamounts⟩

/-- A commitment with an HTLC that nothing covers is accepted, because the payment was in flight
before, and refused after a restart. -/
theorem restart_changes_verdict :
    (∀ event ∈ receiveAndSettle, event.Regular) ∧
    (oneChannel.hostStep (oneChannel.hostMachine.final
      (oneChannel.newHost fun _ => 1000000) receiveAndSettle)
      sendUnapproved).2.toOption.isSome = true ∧
    (oneChannel.hostMachine.final (oneChannel.newHost fun _ => 1000000)
      (receiveAndSettle ++ [.restart false])).memory.isSome = true ∧
    (oneChannel.hostStep (oneChannel.hostMachine.final
      (oneChannel.newHost fun _ => 1000000) (receiveAndSettle ++ [.restart false]))
      sendUnapproved).2 =
        .error (.refuse
          (.validation (.policy ("validate_payments: unbalanced payments on channel " ++
          s!"{(⟨[]⟩ : ChannelId)}: {[(0 : Bytes32).toHex]}")))) := by
  decide +kernel

end ValidatingSigner
