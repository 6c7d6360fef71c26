import Vls.Node.Machine
import Vls.Node.Payments

/-!
# Storing and restoring a node

A node writes its invoices, its velocity controls and the preimages it knows as one entry, and each
channel its enforcement state.  A restart builds the payment state from the entry, gives every
approved payment a fresh ledger entry, starts new velocity controls, and fills in the amounts in
flight from the current commitments of the stored channels.
-/

namespace ValidatingSigner

open Base NodeState List

/-- A node's payment state as it is stored. -/
structure NodeStateEntry where
  invoices : Table PaymentHash PaymentState
  issuedInvoices : Table PaymentHash PaymentState
  velocityControl : VelocityControl
  feeVelocityControl : VelocityControl
  preimages : List PaymentPreimage

/-- The entry of a state; preimages are stored without their hashes. -/
def NodeStateEntry.ofState (s : NodeState) : NodeStateEntry where
  invoices := s.invoices
  issuedInvoices := s.issuedInvoices
  velocityControl := s.velocityControl
  feeVelocityControl := s.feeVelocityControl
  preimages := s.payments.entries.filterMap fun payment => payment.2.preimage

namespace NodeState

/-- The payments of some preimages, with nothing in flight. -/
def paymentsOfPreimages (sha256 : Bytes32 → Bytes32) (preimages : List PaymentPreimage) :
    Table PaymentHash RoutedPayment :=
  preimages.foldl
    (fun t preimage =>
      t.insert (sha256 preimage) { RoutedPayment.new with preimage := some preimage })
    ∅

/-- The state of an entry. -/
def restore (sha256 : Bytes32 → Bytes32) (entry : NodeStateEntry) (excessAmount : Nat) :
    NodeState where
  invoices := entry.invoices
  issuedInvoices := entry.issuedInvoices
  payments := paymentsOfPreimages sha256 entry.preimages
  excessAmount := excessAmount
  velocityControl := entry.velocityControl
  feeVelocityControl := entry.feeVelocityControl

/-- Create a payment state for each approved payment. -/
def withInvoicePayments (s : NodeState) : NodeState :=
  { s with payments := s.invoices.keys.foldl (fun t hash => t.insert hash .new) s.payments }

/-- The state with other velocity controls. -/
def withControls (s : NodeState) (velocityControl feeVelocityControl : VelocityControl) :
    NodeState :=
  { s with velocityControl := velocityControl, feeVelocityControl := feeVelocityControl }

/-- The state a full node starts with: its velocity controls are those of the policy. -/
def newFull (policy : SimplePolicy) (s : NodeState) : NodeState :=
  s.withControls (.new policy.globalVelocityControl) (.new policy.feeVelocityControl)

/-- Record what the current commitments of a channel have in flight. -/
def restorePayments (o : Overflow) (channelId : ChannelId) (e : EnforcementState) (s : NodeState) :
    Result NodeState := do
  let incoming ← e.incomingPaymentsSummary o none none
  let outgoing ← e.paymentsSummary o none none
  let hashes := summaryHashes incoming outgoing
  return { s with
    payments := hashes.foldl
      (fun t h => modifyPayment t h fun p =>
        p.apply channelId (incoming.amount h) (outgoing.amount h))
      (withEntries s.payments hashes) }

/-- Record on a fee what an on-chain transaction spends without benefit; a fee beyond the limit is a
policy error. -/
def checkOnchainFee (o : Overflow) (v : Validator) (now nonBeneficialSat : Nat) :
    Effect NodeState Refusal Unit := do
  let s ← get
  let amount ← Effect.lift (o.u64 (nonBeneficialSat * 1000))
  let (fits, control) ← Effect.lift (s.feeVelocityControl.insert o (durationAsSecs now) amount)
  set { s with feeVelocityControl := control }
  Effect.lift (v.filter.policyErr (fits = false) "policy-onchain-fee-range" "check_onchain_tx"
    s!"fee velocity would be exceeded {control.velocity} + {amount} > {control.limit}")

end NodeState

/-- What is stored of a node. -/
structure NodeDisk (size : Nat) where
  entry : NodeStateEntry
  channels : Fin size → EnforcementState

namespace Node

variable (N : Node)

/-- The payment state restored from an entry, before the channels are. -/
def restoreState (entry : NodeStateEntry) : NodeState :=
  ((NodeState.restore N.library.sha256 entry 0).withInvoicePayments).newFull N.policy

/-- Record what is in flight on some stored channels, one after the other. -/
def restoreChannels (stored : Fin N.size → EnforcementState) :
    List (Fin N.size) → NodeState → Result NodeState
  | [], s => .ok s
  | i :: channels, s => do
    let s ← s.restorePayments N.overflow (N.channels i).id0 (stored i)
    restoreChannels stored channels s

/-- The node restored from what is stored. -/
def restoreNode (disk : NodeDisk N.size) : Result (NodeMemory N.size) := do
  let s ← N.restoreChannels disk.channels (List.finRange N.size) (N.restoreState disk.entry)
  return ⟨s, disk.channels, disk.channels⟩

end Node

/-! ## What an entry and a restored state hold -/

/-- The stored preimages are those of the payments. -/
theorem NodeStateEntry.mem_preimages_ofState {s : NodeState} {preimage : PaymentPreimage} :
    preimage ∈ (NodeStateEntry.ofState s).preimages ↔
      ∃ hash, (s.payment hash).preimage = some preimage := by
  change preimage ∈ s.payments.entries.filterMap (fun payment => payment.2.preimage) ↔ _
  rw [mem_filterMap]
  constructor
  · rintro ⟨⟨hash, p⟩, hmem, hp⟩
    refine ⟨hash, ?_⟩
    rw [payment, AList.mem_lookup_iff.mpr hmem]
    exact hp
  · rintro ⟨hash, hp⟩
    cases hlookup : s.payments.lookup hash with
    | none =>
      rw [payment, hlookup] at hp
      cases hp
    | some p =>
      rw [payment, hlookup] at hp
      exact ⟨⟨hash, p⟩, AList.mem_lookup_iff.mp hlookup, hp⟩

namespace NodeState

variable {s s' : NodeState} {hash : PaymentHash}

/-- The payment of a hash is one of the preimages with this hash. -/
theorem lookup_paymentsOfPreimages (sha256 : Bytes32 → Bytes32) (preimages : List PaymentPreimage)
    (hash : PaymentHash) :
    (∃ preimage ∈ preimages, sha256 preimage = hash ∧
      (paymentsOfPreimages sha256 preimages).lookup hash =
        some { RoutedPayment.new with preimage := some preimage }) ∨
      (∀ preimage ∈ preimages, sha256 preimage ≠ hash) ∧
        (paymentsOfPreimages sha256 preimages).lookup hash = none := by
  induction preimages using reverseRecOn with
  | nil => exact .inr ⟨fun _ h => absurd h not_mem_nil, rfl⟩
  | append_singleton preimages last ih =>
    have hlookup : (paymentsOfPreimages sha256 (preimages ++ [last])).lookup hash =
        if hash = sha256 last then some { RoutedPayment.new with preimage := some last }
        else (paymentsOfPreimages sha256 preimages).lookup hash := by
      rw [paymentsOfPreimages, foldl_append, foldl_cons, foldl_nil,
        Table.lookup_insert_eq]
      rfl
    rw [hlookup]
    by_cases hlast : hash = sha256 last
    · left
      rw [if_pos hlast]
      exact ⟨last, mem_append_right _ mem_cons_self, hlast.symm, rfl⟩
    · rw [if_neg hlast]
      rcases ih with ⟨preimage, hmem, hhash, hfound⟩ | ⟨hnone, hfound⟩
      · exact .inl ⟨preimage, mem_append_left _ hmem, hhash, hfound⟩
      · right
        refine ⟨?_, hfound⟩
        intro preimage hmem
        rcases mem_append.mp hmem with hmem | hmem
        · exact hnone preimage hmem
        · rw [mem_singleton.mp hmem]
          exact Ne.symm hlast

/-- Every approved payment starts over. -/
theorem lookup_withInvoicePayments (s : NodeState) (hash : PaymentHash) :
    s.withInvoicePayments.payments.lookup hash =
      if hash ∈ s.invoices then some .new else s.payments.lookup hash := by
  refine (Table.lookup_foldl id (f := fun _ _ => some .new) (fun t h a => ?_) (fun _ _ => rfl)
    s.invoices.keys s.payments hash).trans ?_
  · exact Table.lookup_insert_eq t a h .new
  · rw [map_id]
    simp only [AList.mem_keys]

/-- Restoring the payments of a channel writes its amounts for every payment it has in flight. -/
theorem restorePayments_ok {o : Overflow} {channelId : ChannelId} {e : EnforcementState}
    (h : s.restorePayments o channelId e = .ok s') :
    ∃ incoming outgoing, e.incomingPaymentsSummary o none none = .ok incoming ∧
      e.paymentsSummary o none none = .ok outgoing ∧
      s' = { s with payments := s'.payments } ∧
      ∀ hash, s'.payments.lookup hash =
        if hash ∈ summaryHashes incoming outgoing then
          some (s.updated channelId incoming outgoing hash)
        else s.payments.lookup hash := by
  obtain ⟨incoming, hincoming, h⟩ := bind_ok h
  obtain ⟨outgoing, houtgoing, h⟩ := bind_ok h
  cases h
  refine ⟨incoming, outgoing, hincoming, houtgoing, rfl, ?_⟩
  intro hash
  have happly := lookup_foldl_modifyPayment (f := fun h p =>
    p.apply channelId (incoming.amount h) (outgoing.amount h))
    (fun h p => p.apply_apply channelId _ _) (summaryHashes incoming outgoing)
    (withEntries s.payments (summaryHashes incoming outgoing)) hash
  refine happly.trans ?_
  rw [lookup_withEntries]
  split_ifs
  · rfl
  · rfl

/-- What restoring the payments of channels leaves of a state. -/
structure SameKnowledge (s s' : NodeState) : Prop where
  invoices : s'.invoices = s.invoices
  issued : s'.issuedInvoices = s.issuedInvoices
  excess : s'.excessAmount = s.excessAmount
  velocityControl : s'.velocityControl = s.velocityControl
  feeVelocityControl : s'.feeVelocityControl = s.feeVelocityControl
  preimage : ∀ hash, (s'.payment hash).preimage = (s.payment hash).preimage

theorem SameKnowledge.refl (s : NodeState) : s.SameKnowledge s :=
  ⟨rfl, rfl, rfl, rfl, rfl, fun _ => rfl⟩

theorem SameKnowledge.trans {s'' : NodeState} (h : s.SameKnowledge s')
    (h' : s'.SameKnowledge s'') : s.SameKnowledge s'' where
  invoices := h'.invoices.trans h.invoices
  issued := h'.issued.trans h.issued
  excess := h'.excess.trans h.excess
  velocityControl := h'.velocityControl.trans h.velocityControl
  feeVelocityControl := h'.feeVelocityControl.trans h.feeVelocityControl
  preimage hash := (h'.preimage hash).trans (h.preimage hash)

/-- Restoring the payments of a channel changes only amounts. -/
theorem sameKnowledge_of_restorePayments {o : Overflow} {channelId : ChannelId}
    {e : EnforcementState} (h : s.restorePayments o channelId e = .ok s') : s.SameKnowledge s' := by
  obtain ⟨incoming, outgoing, -, -, heq, hlookup⟩ := restorePayments_ok h
  have hpreimage (hash : PaymentHash) :
      (s'.payment hash).preimage = (s.payment hash).preimage := by
    rw [payment, hlookup]
    split_ifs
    · rfl
    · rfl
  rw [heq]
  exact ⟨rfl, rfl, rfl, rfl, rfl, hpreimage⟩

end NodeState

namespace Node

variable {N : Node}

/-- An approved payment is restored without its preimage; any other has one of the stored preimages
with its hash. -/
theorem preimage_restoreState (N : Node) (entry : NodeStateEntry) (hash : PaymentHash) :
    (∃ preimage ∈ entry.preimages, N.library.sha256 preimage = hash ∧ hash ∉ entry.invoices ∧
      ((N.restoreState entry).payment hash).preimage = some preimage) ∨
    ((∀ preimage ∈ entry.preimages, N.library.sha256 preimage = hash → hash ∈ entry.invoices) ∧
      ((N.restoreState entry).payment hash).preimage = none) := by
  have hlookup : (N.restoreState entry).payments.lookup hash =
      if hash ∈ entry.invoices then some .new
      else (paymentsOfPreimages N.library.sha256 entry.preimages).lookup hash :=
    lookup_withInvoicePayments _ hash
  rw [payment, hlookup]
  by_cases hmem : hash ∈ entry.invoices
  · right
    rw [if_pos hmem]
    exact ⟨fun _ _ _ => hmem, rfl⟩
  · rw [if_neg hmem]
    rcases lookup_paymentsOfPreimages N.library.sha256 entry.preimages hash with
      ⟨preimage, hpreimage, hhash, hfound⟩ | ⟨hnone, hfound⟩
    · left
      rw [hfound]
      exact ⟨preimage, hpreimage, hhash, hmem, rfl⟩
    · right
      rw [hfound]
      exact ⟨fun preimage hpreimage hhash => absurd hhash (hnone preimage hpreimage), rfl⟩

/-- Restoring channels changes only amounts. -/
theorem sameKnowledge_of_restoreChannels {stored : Fin N.size → EnforcementState}
    {channels : List (Fin N.size)} {s s' : NodeState}
    (h : N.restoreChannels stored channels s = .ok s') : s.SameKnowledge s' := by
  induction channels generalizing s with
  | nil =>
    obtain rfl := Except.ok.inj h
    exact .refl s
  | cons i channels ih =>
    obtain ⟨s₁, h₁, h⟩ := bind_ok h
    exact (sameKnowledge_of_restorePayments h₁).trans (ih h)

/-- A restored node has the payment state of its entry up to amounts, and its channels as stored. -/
theorem restoreNode_ok {disk : NodeDisk N.size} {m : NodeMemory N.size}
    (h : N.restoreNode disk = .ok m) :
    (N.restoreState disk.entry).SameKnowledge m.node ∧ m.estates = disk.channels ∧
      m.stored = disk.channels := by
  obtain ⟨s, hs, h⟩ := bind_ok h
  cases h
  exact ⟨sameKnowledge_of_restoreChannels hs, rfl, rfl⟩

end Node

end ValidatingSigner
