import Vls.Node.Host
import Vls.Node.Pruning

/-!
# What the stored entry misses

The entry of a node is written when a payment is approved, and never when an invoice is issued, a
preimage is learned or a heartbeat prunes.  In a run without these changes the entry last written
holds the invoices and the preimages of the node in memory, and restarts lose nothing.
-/

namespace ValidatingSigner

open Base NodeState

/-! ## Which preimages survive a restart -/

/-- Every recorded preimage has the hash it is recorded under, or is the dummy of a paid invoice. -/
def NodeState.Hashed (sha256 : Bytes32 → Bytes32) (s : NodeState) : Prop :=
  ∀ hash preimage, (s.payment hash).preimage = some preimage →
    sha256 preimage = hash ∨ preimage = 0

/-- Every recorded preimage has the hash it is recorded under, and its payment is not approved. -/
def NodeState.Recoverable (sha256 : Bytes32 → Bytes32) (s : NodeState) : Prop :=
  ∀ hash preimage, (s.payment hash).preimage = some preimage →
    hash ∉ s.invoices ∧ sha256 preimage = hash

namespace NodeState

variable {sha256 : Bytes32 → Bytes32} {s s' : NodeState}

theorem hasPreimage_iff {hash : PaymentHash} :
    s.hasPreimage hash = true ↔ ∃ preimage, (s.payment hash).preimage = some preimage := by
  rw [hasPreimage_eq]
  exact Option.isSome_iff_exists

theorem Hashed.of_payments (h : s.Hashed sha256)
    (hpayments : ∀ hash, s'.payment hash = s.payment hash ∨ s'.payment hash = .new) :
    s'.Hashed sha256 := by
  intro hash preimage hp
  rcases hpayments hash with hsame | hnew
  · rw [hsame] at hp
    exact h hash preimage hp
  · rw [hnew] at hp
    cases hp

theorem Hashed.applied {o : Overflow} {v : Validator} {channelId : ChannelId}
    {incoming outgoing : EnforcementState.Summary} {delta : BalanceDelta} (h : s.Hashed sha256)
    (happlied : Applied o v s channelId incoming outgoing delta s') : s'.Hashed sha256 := by
  intro hash preimage hp
  by_cases hmem : hash ∈ summaryHashes incoming outgoing
  · obtain ⟨paid, -, hlookup⟩ := happlied.inside hash hmem
    rw [payment, hlookup, Option.getD_some] at hp
    dsimp only at hp
    split_ifs at hp
    · exact .inr (Option.some.inj hp).symm
    · exact h hash preimage hp
  · rw [payment, happlied.outside hash hmem] at hp
    exact h hash preimage hp

theorem Hashed.fulfilled {o : Overflow} {v : Validator} {preimages : List PaymentPreimage}
    (h : s.Hashed sha256) (hfulfilled : htlcsFulfilled o v sha256 s preimages = .ok s') :
    s'.Hashed sha256 := by
  refine htlcsFulfilled_induction ?_ h hfulfilled
  intro s s' learned _ hs hful hash preimage hp
  rw [hful.payment_eq] at hp
  split_ifs at hp with hhash
  · left
    rw [← Option.some.inj hp, hhash]
  · exact hs hash preimage hp

end NodeState

namespace Node

variable {N : Node} {s s' : NodeState}

/-- Every served event records preimages under their hashes, dummies apart. -/
theorem Moved.hashed {event : NodeEvent N.size} (hmoved : N.Moved s event s')
    (h : s.Hashed N.library.sha256) : s'.Hashed N.library.sha256 := by
  cases hmoved with
  | kept event => exact h
  | applied happlied => exact h.applied (applyPayments_ok happlied)
  | fulfilled hfulfilled => exact h.fulfilled hfulfilled
  | added hevent hadded =>
    rcases hadded.ledger with hsame | happroved
    · refine h.of_payments fun hash => .inl ?_
      rw [payment, hsame.payments]
      rfl
    · exact h.of_payments fun hash => .inl (happroved.payment_eq hash)
  | invoiceSigned hsigned =>
    obtain ⟨-, hpayments, -⟩ := signInvoice_ok hsigned
    refine h.of_payments fun hash => .inl ?_
    rw [payment, hpayments]
    rfl
  | pruned hpruned => exact h.of_payments (prune_ok hpruned).payment_eq

/-- Every host that a new one reaches records preimages under their hashes, dummies apart. -/
theorem hashed_final (N : Node) (values : Fin N.size → Nat) (events : List (HostEvent N.size))
    (m : NodeMemory N.size)
    (hm : (N.hostMachine.final (N.newHost values) events).memory = some m) :
    m.node.Hashed N.library.sha256 := by
  refine N.hostMachine.final_induction (C := fun _ => True)
    (P := fun host => ∀ m, host.memory = some m → m.node.Hashed N.library.sha256) ?_ ?_ events
    (fun _ _ => trivial) m hm
  · rintro m ⟨⟩ hash preimage hp
    cases hp
  · intro host event h _
    have hhosted := hostStep_hosted host event
    change ∀ m, (N.hostStep host event).1.memory = some m → m.node.Hashed N.library.sha256
    generalize (N.hostStep host event).1 = host' at hhosted ⊢
    cases hhosted with
    | ended _ _ => exact fun m hm => nomatch hm
    | @served m m' event hmemory hstep =>
      rintro _ ⟨⟩
      exact (step_moved hstep).hashed (h m hmemory)
    | @checked m now nonBeneficialSat r s hmemory hexec =>
      rintro _ ⟨⟩
      obtain ⟨control, rfl⟩ := checkOnchainFee_frame hexec
      exact (h m hmemory).of_payments fun hash => .inl rfl
    | @restarted m sync hrestore =>
      rintro _ ⟨⟩ hash preimage hp
      rw [(restoreNode_ok hrestore).1.preimage] at hp
      rcases N.preimage_restoreState host.disk.entry hash with
        ⟨q, -, hhash, -, hq⟩ | ⟨-, hnone⟩
      · rw [hq] at hp
        left
        rw [← Option.some.inj hp, hhash]
      · rw [hnone] at hp
        cases hp

end Node

/-! ## Restarts -/

/-- A node that is stored and restored, from any state a run with restarts reaches, knows the
preimages it knew exactly when each has the hash it is recorded under and none belongs to an
approved payment. -/
theorem restart_keeps_preimages_iff (N : Node) (values : Fin N.size → Nat)
    (events : List (HostEvent N.size)) (m : NodeMemory N.size)
    (hm : (N.hostMachine.final (N.newHost values) events).memory = some m) :
    ∃ m', N.restoreNode ⟨.ofState m.node, m.stored⟩ = .ok m' ∧
      ((∀ hash, m'.node.hasPreimage hash = m.node.hasPreimage hash) ↔
        m.node.Recoverable N.library.sha256) := by
  have hrestorable := Node.Restorable.final N values events
  have hstored : ∀ i, (m.stored i).commitments.Summable N.overflow := by
    rw [hrestorable.stored m hm]
    exact hrestorable.channels
  obtain ⟨m', hrestore⟩ : ∃ m', N.restoreNode ⟨.ofState m.node, m.stored⟩ = .ok m' :=
    Node.restoreNode_total hstored
  refine ⟨m', hrestore, ?_⟩
  have hpreimage := (Node.restoreNode_ok hrestore).1.preimage
  have hhashed := Node.hashed_final N values events m hm
  constructor
  · intro hsame hash preimage hp
    have hknown : m'.node.hasPreimage hash = true := by
      rw [hsame, hasPreimage_iff]
      exact ⟨preimage, hp⟩
    obtain ⟨q, hq⟩ := hasPreimage_iff.mp hknown
    rw [hpreimage] at hq
    rcases N.preimage_restoreState (.ofState m.node) hash with
      ⟨learned, hlearned, hhash, hnot, -⟩ | ⟨-, hnone⟩
    · refine ⟨hnot, ?_⟩
      obtain ⟨other, hother⟩ := NodeStateEntry.mem_preimages_ofState.mp hlearned
      rcases hhashed hash preimage hp with hright | rfl
      · exact hright
      · rcases hhashed other learned hother with hright | rfl
        · obtain rfl : hash = other := hhash.symm.trans hright
          rw [hp] at hother
          rw [Option.some.inj hother, hhash]
        · exact hhash
    · rw [hnone] at hq
      cases hq
  · intro hrecoverable hash
    rw [Bool.eq_iff_iff, hasPreimage_iff, hasPreimage_iff, hpreimage]
    rcases N.preimage_restoreState (.ofState m.node) hash with
      ⟨learned, hlearned, hhash, -, hfound⟩ | ⟨hall, hnone⟩
    · obtain ⟨other, hother⟩ := NodeStateEntry.mem_preimages_ofState.mp hlearned
      obtain rfl : hash = other := hhash.symm.trans (hrecoverable other learned hother).2
      exact ⟨fun _ => ⟨learned, hother⟩, fun _ => ⟨learned, hfound⟩⟩
    · constructor
      · rintro ⟨preimage, hp⟩
        rw [hnone] at hp
        cases hp
      · rintro ⟨preimage, hp⟩
        obtain ⟨hnot, hhash⟩ := hrecoverable hash preimage hp
        exact absurd (hall preimage (NodeStateEntry.mem_preimages_ofState.mpr ⟨hash, hp⟩) hhash)
          hnot

open Sample

/-- An invoice is approved and paid, and its preimage is learned. -/
def Sample.learnPreimage : List (HostEvent 1) :=
  [.request (.addInvoice true 0 (invoice 100000000)), .request (.htlcsFulfilled 0 [1])]

/-- An HTLC comes in for a payment that was never approved, and its preimage is learned. -/
def Sample.receiveAndLearn : List (HostEvent 1) :=
  [holder 0 0 999000 0 [] [], counterparty 0 0 ⟨7⟩ 999000 0 [] [],
    holder 0 1 979000 0 [] [htlc 20000], counterparty 0 1 ⟨8⟩ 979000 0 [htlc 20000] [],
    .htlcsFulfilled 0 [1]].map .request

/-- The preimage of a payment that came in is known again after a restart. -/
theorem restart_keeps_preimages_sample :
    ∃ m ∈ ((hashing oneChannel).hostMachine.final
        ((hashing oneChannel).newHost fun _ => 1000000) receiveAndLearn).memory,
      m.node.hasPreimage 0 = true ∧
      ∃ m', (hashing oneChannel).restoreNode ⟨.ofState m.node, m.stored⟩ = .ok m' ∧
        m'.node.hasPreimage 0 = true := by
  have hrun : ∃ m ∈ ((hashing oneChannel).hostMachine.final
      ((hashing oneChannel).newHost fun _ => 1000000) receiveAndLearn).memory,
      m.node.invoices.keys = [] ∧ m.node.payments.keys = [0] ∧
        (m.node.payment 0).preimage = some 1 := by
    decide +kernel
  obtain ⟨m, hm, hnone, hkeys, hlearned⟩ := hrun
  have hknown : m.node.hasPreimage 0 = true := NodeState.hasPreimage_iff.mpr ⟨1, hlearned⟩
  obtain ⟨m', hrestore, hkeeps⟩ := restart_keeps_preimages_iff (hashing oneChannel)
    (fun _ => 1000000) receiveAndLearn m hm
  have hrecoverable : m.node.Recoverable hashingLibrary.sha256 := by
    intro hash preimage hp
    refine ⟨fun hmem => ?_, ?_⟩
    · rw [AList.mem_keys, hnone] at hmem
      cases hmem
    · have hmem : hash ∈ m.node.payments := by
        by_contra hnot
        rw [NodeState.payment, AList.lookup_eq_none.mpr hnot] at hp
        cases hp
      rw [AList.mem_keys, hkeys, List.mem_singleton] at hmem
      rw [hmem, hlearned, Option.some.injEq] at hp
      rw [hmem, ← hp]
      rfl
  refine ⟨m, hm, hknown, m', hrestore, ?_⟩
  rw [hkeeps.mpr hrecoverable, hknown]

/-- The preimage of a paid invoice is forgotten by a restart, although the hash function has no
collisions. -/
theorem restart_forgets_preimage :
    Function.Injective hashingLibrary.sha256 ∧
    ∃ m ∈ ((hashing oneChannel).hostMachine.final
        ((hashing oneChannel).newHost fun _ => 1000000) learnPreimage).memory,
      m.node.hasPreimage 0 = true ∧
      ∃ m' ∈ ((hashing oneChannel).restoreNode
        ⟨.ofState m.node, m.stored⟩).toOption, m'.node.hasPreimage 0 = false := by
  constructor
  · intro a b h
    exact sub_left_injective h
  · decide +kernel

/-- The entry holds exactly the invoices and the preimages of the state. -/
structure NodeStateEntry.Matches (entry : NodeStateEntry) (s : NodeState) : Prop where
  invoices : ∀ hash, entry.invoices.lookup hash = s.invoices.lookup hash
  issued : ∀ hash, entry.issuedInvoices.lookup hash = s.issuedInvoices.lookup hash
  preimages : ∀ preimage, preimage ∈ entry.preimages ↔
    ∃ hash, (s.payment hash).preimage = some preimage

/-- No stored preimage belongs to an approved payment, and no two have the same hash. -/
def NodeStateEntry.Recoverable (sha256 : Bytes32 → Bytes32) (entry : NodeStateEntry) : Prop :=
  ∀ preimage ∈ entry.preimages, sha256 preimage ∉ entry.invoices ∧
    ∀ other ∈ entry.preimages, sha256 other = sha256 preimage → other = preimage

/-- The invoices and the preimages have not changed. -/
structure NodeState.Keeps (s s' : NodeState) : Prop where
  invoices : ∀ hash, s'.invoices.lookup hash = s.invoices.lookup hash
  issued : ∀ hash, s'.issuedInvoices.lookup hash = s.issuedInvoices.lookup hash
  preimage : ∀ hash, (s'.payment hash).preimage = (s.payment hash).preimage

/-- A heartbeat at time `now` finds no invoice to drop and no payment with a preimage. -/
structure NodeState.DropsNothing (o : Overflow) (s : NodeState) (now : Nat) : Prop where
  invoices : ∀ hash state payment, s.invoices.lookup hash = some state →
    s.payments.lookup hash = some payment → isInvoicePrunable o now state payment ≠ .ok true
  issued : ∀ hash state time, s.issuedInvoices.lookup hash = some state →
    pruneAt state = .ok time → now < time
  payments : ∀ hash payment, s.payments.lookup hash = some payment →
    payment.isFulfilled = true → s.isForwardedPaymentPrunable o hash payment ≠ .ok true

/-- The request changes no invoice that the node issued and no preimage that it knows: a commitment
update finds no issued invoice to mark, a preimage is known or of no use, an invoice is issued
already or not at all, and a heartbeat drops nothing. -/
def Node.Quiet (N : Node) (s : NodeState) : NodeEvent N.size → Prop
  | .request _ _ _ => N.validator.enforceBalance = true →
      ∀ hash ∈ s.issuedInvoices, s.hasPreimage hash = true
  | .htlcsFulfilled _ preimages => ∀ preimage ∈ preimages,
      N.library.sha256 preimage ∈ s.payments → s.hasPreimage (N.library.sha256 preimage) = true
  | .addInvoice _ _ _ => True
  | .addKeysend _ _ _ _ _ => True
  | .signInvoice invoice => invoice.paymentHash ∈ s.issuedInvoices ∨
      N.policy.maxInvoices ≤ s.issuedInvoices.keys.length
  | .heartbeat now => s.DropsNothing N.overflow now

/-- The event leaves nothing that the entry should hold unwritten, and a restart finds preimages
that it can restore. -/
def Node.Durable (N : Node) (host : NodeHost N.size) : HostEvent N.size → Prop
  | .request event => ∀ m ∈ host.memory, N.Quiet m.node event
  | .onchainTx _ _ => True
  | .restart _ => host.disk.entry.Recoverable N.library.sha256

namespace NodeStateEntry

variable {entry : NodeStateEntry} {s s' : NodeState}

theorem Matches.ofState (s : NodeState) : (NodeStateEntry.ofState s).Matches s :=
  ⟨fun _ => rfl, fun _ => rfl, fun _ => mem_preimages_ofState⟩

/-- An entry that matches still does while nothing changes. -/
theorem Matches.keeps (h : entry.Matches s) (hkeeps : s.Keeps s') : entry.Matches s' := by
  refine ⟨?_, ?_, ?_⟩
  · intro hash
    rw [h.invoices, hkeeps.invoices]
  · intro hash
    rw [h.issued, hkeeps.issued]
  · intro preimage
    simp only [h.preimages, hkeeps.preimage]

end NodeStateEntry

namespace NodeState

variable {o : Overflow} {v : Validator} {s s' : NodeState}

theorem SameLedger.keeps (h : s.SameLedger s') : s.Keeps s' := by
  refine ⟨?_, ?_, ?_⟩
  · intro hash
    rw [h.invoices]
  · intro hash
    rw [h.issued]
  · intro hash
    rw [payment, h.payments]
    rfl

/-- An update keeps what is stored when every issued invoice has been paid. -/
theorem Applied.keeps {channelId : ChannelId} {incoming outgoing : EnforcementState.Summary}
    {delta : BalanceDelta} (h : Applied o v s channelId incoming outgoing delta s')
    (hpaid : v.enforceBalance = true → ∀ hash ∈ s.issuedInvoices, s.hasPreimage hash = true) :
    s.Keeps s' := by
  refine ⟨?_, ?_, ?_⟩
  · intro hash
    rw [h.invoices]
  · intro hash
    rw [h.issued]
  · intro hash
    by_cases hmem : hash ∈ summaryHashes incoming outgoing
    · obtain ⟨paid, hpays, hlookup⟩ := h.inside hash hmem
      rw [payment, hlookup, Option.getD_some]
      dsimp only
      split_ifs with hmarks
      · obtain ⟨hbalance, rfl⟩ := Bool.and_eq_true_iff.mp hmarks
        exfalso
        unfold paysIssuedInvoice at hpays
        cases hissued : s.issuedInvoices.lookup hash with
        | none =>
          rw [hissued] at hpays
          cases hpays
        | some issued =>
          have hknown := hpaid hbalance hash (AList.lookup_isSome.mp (by rw [hissued]; rfl))
          rw [hasPreimage_eq] at hknown
          simp only [hissued, hknown, if_true] at hpays
          cases hpays
      · rfl
    · rw [payment, h.outside hash hmem]
      rfl

/-- An invoice that is issued already, or one too many, changes nothing. -/
theorem signInvoice_eq {maxInvoices : Nat} {invoice : Invoice}
    (hissued : invoice.paymentHash ∈ s.issuedInvoices ∨
      maxInvoices ≤ s.issuedInvoices.keys.length)
    (h : s.signInvoice maxInvoices invoice = .ok s') : s' = s := by
  unfold signInvoice at h
  split_ifs at h with hmany
  have hmem := hissued.resolve_right hmany
  obtain ⟨known, hknown⟩ := Option.isSome_iff_exists.mp (AList.lookup_isSome.mpr hmem)
  simp only [hknown] at h
  split_ifs at h
  exact (Except.ok.inj h).symm

/-! ## Heartbeats that drop nothing -/

/-- A heartbeat that finds nothing to drop keeps what is stored. -/
theorem DropsNothing.keeps {now : Nat} (hdrops : s.DropsNothing o now)
    (h : s.prune o now = .ok s') : s.Keeps s' := by
  obtain ⟨s₁, h₁, h⟩ := bind_ok h
  obtain ⟨s₂, h₂, h₃⟩ := bind_ok h
  have hsame (hash : PaymentHash) : s.SameEntries s₂ hash := by
    obtain ⟨hissued, ⟨⟨state, payment, hstate, hpayment, hdue⟩, -⟩ | ⟨-, hfirst⟩⟩ :=
      lookup_pruneInvoices h₁ hash
    · exact absurd hdue (hdrops.invoices hash state payment hstate hpayment)
    obtain ⟨-, -, ⟨⟨state, time, hstate, htime, hle⟩, -⟩ | ⟨-, hsecond⟩⟩ :=
      lookup_pruneIssuedInvoices h₂ hash
    · rw [hissued] at hstate
      exact absurd hle (not_le.mpr (hdrops.issued hash state time hstate htime))
    exact hfirst.trans hsecond
  refine ⟨fun hash => ?_, fun hash => ?_, fun hash => ?_⟩
  · rw [(lookup_pruneForwardedPayments h₃ hash).1, (hsame hash).invoices]
  · rw [(lookup_pruneForwardedPayments h₃ hash).2.1, (hsame hash).issued]
  · rw [payment, payment]
    obtain ⟨-, -, ⟨hdue, hnone⟩ | ⟨-, hthird⟩⟩ := lookup_pruneForwardedPayments h₃ hash
    · obtain ⟨p, hlookup, hprunable⟩ := (hsame hash).forwardedDue_iff.mp hdue
      rw [hnone, hlookup, Option.getD_none, Option.getD_some]
      cases hfulfilled : p.preimage with
      | none => rfl
      | some preimage =>
        have hknown : p.isFulfilled = true := by
          rw [RoutedPayment.isFulfilled, hfulfilled]
          rfl
        exact absurd hprunable (hdrops.payments hash p hlookup hknown)
    · rw [((hsame hash).trans hthird).payments]

end NodeState

namespace Node

variable {N : Node}

/-- A quiet request that approves nothing keeps what is stored. -/
theorem Moved.keeps {event : NodeEvent N.size} {s s' : NodeState} (hmoved : N.Moved s event s')
    (hquiet : N.Quiet s event) (hadds : event.adds = none) : s.Keeps s' := by
  cases hmoved with
  | kept event => exact (SameLedger.refl s).keeps
  | applied happlied => exact (applyPayments_ok happlied).keeps hquiet
  | fulfilled hfulfilled =>
    obtain rfl : s' = s := by
      refine htlcsFulfilled_induction (P := fun t => t = s) ?_ rfl hfulfilled
      rintro _ t preimage hmem rfl hful
      have hlearned := hquiet preimage hmem hful.mem
      rw [hful.unknown] at hlearned
      cases hlearned
    exact (SameLedger.refl s').keeps
  | added hevent _ =>
    rw [hadds] at hevent
    cases hevent
  | invoiceSigned hsigned =>
    rw [signInvoice_eq hquiet hsigned]
    exact (SameLedger.refl s).keeps
  | pruned hpruned => exact DropsNothing.keeps hquiet hpruned

/-- A node restored from an entry matches it when the stored preimages can be restored. -/
theorem matches_of_restoreNode {disk : NodeDisk N.size} {m : NodeMemory N.size}
    (hrestore : N.restoreNode disk = .ok m)
    (hrecoverable : disk.entry.Recoverable N.library.sha256) : disk.entry.Matches m.node := by
  have hsame := (restoreNode_ok hrestore).1
  refine ⟨?_, ?_, ?_⟩
  · intro hash
    rw [hsame.invoices]
    rfl
  · intro hash
    rw [hsame.issued]
    rfl
  · intro preimage
    simp only [hsame.preimage]
    constructor
    · intro hmem
      obtain ⟨hnot, hunique⟩ := hrecoverable preimage hmem
      refine ⟨N.library.sha256 preimage, ?_⟩
      rcases N.preimage_restoreState disk.entry (N.library.sha256 preimage) with
        ⟨other, hother, hhash, -, hfound⟩ | ⟨hall, -⟩
      · rw [hfound, hunique other hother hhash]
      · exact absurd (hall preimage hmem rfl) hnot
    · rintro ⟨hash, hp⟩
      rcases N.preimage_restoreState disk.entry hash with ⟨other, hother, -, -, hfound⟩ | ⟨-, hnone⟩
      · rw [hfound] at hp
        exact Option.some.inj hp ▸ hother
      · rw [hnone] at hp
        cases hp

/-- The entry last written matches the node in memory. -/
def Synced (N : Node) (host : NodeHost N.size) : Prop :=
  ∀ m ∈ host.memory, host.disk.entry.Matches m.node

/-- A durable event keeps the entry and the memory alike. -/
theorem Synced.step {host host' : NodeHost N.size} {event : HostEvent N.size} (h : N.Synced host)
    (hdurable : N.Durable host event) (hhosted : N.Hosted host event host') : N.Synced host' := by
  cases hhosted with
  | ended _ _ =>
    intro m hm
    cases hm
  | @served m m' event hmemory hstep =>
    rintro _ ⟨⟩
    change (N.diskAfter host.disk m event).entry.Matches m'.node
    rcases (diskAfter_of_step hstep).2 with hwritten | ⟨hsame, hledger⟩
    · rw [hwritten]
      exact .ofState m'.node
    · rw [hsame]
      refine (h m hmemory).keeps ?_
      cases hadds : event.adds with
      | none => exact (step_moved hstep).keeps (hdurable m hmemory) hadds
      | some payment => exact (hledger (by rw [hadds]; rfl)).keeps
  | @checked m now nonBeneficialSat r s hmemory hexec =>
    rintro _ ⟨⟩
    obtain ⟨control, rfl⟩ := checkOnchainFee_frame hexec
    exact (h m hmemory).keeps ⟨fun _ => rfl, fun _ => rfl, fun _ => rfl⟩
  | @restarted m sync hrestore =>
    rintro _ ⟨⟩
    change (if sync then _ else _ : NodeDisk N.size).entry.Matches m.node
    split_ifs
    · exact .ofState m.node
    · exact matches_of_restoreNode hrestore hdurable

/-- A durable restart succeeds and finds what was stored. -/
theorem Restorable.restart {host : NodeHost N.size} {sync : Bool} (h : N.Restorable host)
    (hdurable : N.Durable host (.restart sync)) :
    ∃ m ∈ (N.hostStep host (.restart sync)).1.memory, host.disk.entry.Matches m.node := by
  obtain ⟨m, hrestore⟩ := restoreNode_total h.channels
  refine ⟨m, ?_, matches_of_restoreNode hrestore hdurable⟩
  simp only [hostStep, hrestore]
  rfl

end Node

/-- In every run in which no event leaves something unwritten, from a host whose entry matches its
memory, the entry last written matches the memory after every event, and every restart succeeds with
exactly what was stored. -/
theorem node_entry_durable (N : Node) {host : NodeHost N.size} (hrestorable : N.Restorable host)
    (hsynced : N.Synced host) (events : List (HostEvent N.size))
    (hdurable : ∀ x ∈ N.hostMachine.trace host events, N.Durable x.before x.event) :
    ∀ x ∈ N.hostMachine.trace host events, N.Synced x.after ∧
      ∀ sync, x.event = .restart sync →
        ∃ m ∈ x.after.memory, x.before.disk.entry.Matches m.node := by
  refine N.hostMachine.trace_induction (C := fun x => N.Durable x.before x.event)
    (P := fun host => N.Restorable host ∧ N.Synced host) ⟨hrestorable, hsynced⟩ ?_ events hdurable
  intro host event ⟨hrestorable, hsynced⟩ hstep
  have hhosted := Node.hostStep_hosted host event
  have hafter := hsynced.step hstep hhosted
  refine ⟨⟨hrestorable.step hhosted, hafter⟩, hafter, ?_⟩
  rintro sync hsync
  obtain rfl : event = .restart sync := hsync
  exact hrestorable.restart hstep

open Sample

/-- A node that runs the sample requests. -/
def Sample.host : NodeHost (hashing oneChannel).size :=
  (hashing oneChannel).newHost fun _ => 1000000

theorem Sample.synced_host : (hashing oneChannel).Synced host := by
  rintro m ⟨⟩
  exact .ofState _

/-- An invoice is approved, and the node restarts. -/
def Sample.approveAndRestart : List (HostEvent 1) :=
  [.request (.addInvoice true 0 (invoice 100000000)), .restart false]

/-- Nothing is lost when a node restarts after it has approved an invoice. -/
theorem node_entry_durable_sample :
    (hashing oneChannel).Synced host ∧
      ∀ x ∈ (hashing oneChannel).hostMachine.trace host
          approveAndRestart,
        (hashing oneChannel).Synced x.after ∧
          ∀ sync, x.event = .restart sync →
            ∃ m ∈ x.after.memory, x.before.disk.entry.Matches m.node := by
  refine ⟨synced_host, ?_⟩
  refine node_entry_durable (hashing oneChannel) (.newHost _ _) synced_host
    approveAndRestart ?_
  refine List.forall_mem_cons.mpr ⟨fun _ _ => trivial, List.forall_mem_cons.mpr ⟨?_, ?_⟩⟩
  · intro preimage hmem
    cases hmem
  · intro x hx
    cases hx

/-- An issued invoice and a learned preimage are not stored, and an invoice that a heartbeat has
dropped still is. -/
theorem node_entry_stale :
    (∃ m ∈ ((hashing oneChannel).hostMachine.final host
        [.request (.signInvoice (invoice 100000000))]).memory,
      0 ∈ m.node.issuedInvoices ∧
      0 ∉ ((hashing oneChannel).hostMachine.final host
        [.request (.signInvoice (invoice 100000000))]).disk.entry.issuedInvoices) ∧
    (∃ m ∈ ((hashing oneChannel).hostMachine.final host
        learnPreimage).memory,
      (m.node.payment 0).preimage = some 1 ∧
      1 ∉ ((hashing oneChannel).hostMachine.final host
        learnPreimage).disk.entry.preimages) ∧
    ∃ m ∈ ((hashing oneChannel).hostMachine.final host
        [.request (.addInvoice true 0 (invoice 100000000)),
          .request (.heartbeat (durationFromSecs 100000))]).memory,
      0 ∉ m.node.invoices ∧
      0 ∈ ((hashing oneChannel).hostMachine.final host
        [.request (.addInvoice true 0 (invoice 100000000)),
          .request (.heartbeat (durationFromSecs 100000))]).disk.entry.invoices := by
  decide +kernel

end ValidatingSigner
