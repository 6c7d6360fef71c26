import Vls.Channel.Updates
import Vls.Node.Machine

/-!
# What a request can do to a node

`Node.Moved` lists what one served request can do to the payment state of a node, whatever its
validator and filter.  `Node.Changed` lists what it can do to the commitments of the channels and to
the payment ledger, for a node that uses the simple validator under the default filter.
-/

namespace ValidatingSigner

open Base EnforcementState NodeState

namespace NodeState

variable {o : Overflow} {v : Validator} {s s' : NodeState} {hash : PaymentHash}

/-- Two states with the same ledger. -/
structure SameLedger (s s' : NodeState) : Prop where
  invoices : s'.invoices = s.invoices
  issued : s'.issuedInvoices = s.issuedInvoices
  payments : s'.payments = s.payments
  excess : s'.excessAmount = s.excessAmount

theorem SameLedger.refl (s : NodeState) : SameLedger s s := ⟨rfl, rfl, rfl, rfl⟩

/-! ## Approved and issued invoices -/

variable {now : Nat} {state : PaymentState}

/-- A payment with hash `hash` has been approved. -/
structure Approved (s : NodeState) (hash : PaymentHash) (state : PaymentState) (s' : NodeState) :
    Prop where
  new : hash ∉ s.invoices
  invoices : s'.invoices = s.invoices.insert hash state
  issued : s'.issuedInvoices = s.issuedInvoices
  payments : s'.payments = if hash ∈ s.payments then s.payments else s.payments.insert hash .new
  excess : s'.excessAmount = s.excessAmount

/-- Approving leaves every payment as it is. -/
theorem Approved.payment_eq (h : s.Approved hash state s') (k : PaymentHash) :
    s'.payment k = s.payment k := by
  unfold payment
  rw [h.payments]
  split_ifs with hmem
  · rfl
  · rw [Table.lookup_insert_eq]
    split_ifs with hk
    · rw [hk, AList.lookup_eq_none.mpr hmem]
      rfl
    · rfl

/-- How approving a payment ends: a known payment stays, and a new one counts against the velocity
limit and is recorded when it fits. -/
inductive Added (o : Overflow) (s : NodeState) (now : Nat) (hash : PaymentHash)
    (state : PaymentState) : Bool → NodeState → Prop where
  | known (hknown : hash ∈ s.invoices) : Added o s now hash state true s
  | exceeded {control : VelocityControl} (hnew : hash ∉ s.invoices)
      (hinsert : s.velocityControl.insert o (durationAsSecs now) state.amountMsat =
        .ok (false, control)) :
      Added o s now hash state false { s with velocityControl := control }
  | approved {control : VelocityControl} (hnew : hash ∉ s.invoices)
      (hinsert : s.velocityControl.insert o (durationAsSecs now) state.amountMsat =
        .ok (true, control)) :
      Added o s now hash state true
        { s with
          velocityControl := control
          invoices := s.invoices.insert hash state
          payments := if hash ∈ s.payments then s.payments else s.payments.insert hash .new }

theorem addPayment_added {maxInvoices : Nat} {persistOk added : Bool} {other : String}
    (h : s.addPayment o maxInvoices persistOk now hash state other = .ok (added, s')) :
    s.Added o now hash state added s' := by
  unfold addPayment at h
  split_ifs at h
  cases hknown : s.invoices.lookup hash with
  | some known =>
    simp only [hknown] at h
    split_ifs at h
    obtain ⟨rfl, rfl⟩ := Prod.mk.inj (Except.ok.inj h)
    exact .known (AList.lookup_isSome.mp (by rw [hknown]; rfl))
  | none =>
    have hnew := AList.lookup_eq_none.mp hknown
    simp only [hknown] at h
    obtain ⟨⟨fits, control⟩, hinsert, h⟩ := bind_ok h
    cases fits with
    | false =>
      obtain ⟨rfl, rfl⟩ := Prod.mk.inj (pure_eq_ok.mp h)
      exact .exceeded hnew hinsert
    | true =>
      obtain ⟨u, -, h⟩ := bind_ok h
      obtain ⟨rfl, rfl⟩ := Prod.mk.inj (pure_eq_ok.mp h)
      exact .approved hnew hinsert

theorem Added.ledger {added : Bool} (h : s.Added o now hash state added s') :
    s.SameLedger s' ∨ s.Approved hash state s' := by
  cases h with
  | known _ => exact .inl (.refl s)
  | exceeded _ _ => exact .inl ⟨rfl, rfl, rfl, rfl⟩
  | approved hnew _ => exact .inr ⟨hnew, rfl, rfl, rfl, rfl⟩

/-- The payment with a hash is the one of this invoice or keysend. -/
def Tracks (payments : Table PaymentHash PaymentState) (hash : PaymentHash)
    (invoiceHash : Bytes32) : Prop :=
  ∃ known, payments.lookup hash = some known ∧ known.invoiceHash = invoiceHash

/-- Issuing an invoice changes only the issued invoices, which then have it. -/
theorem signInvoice_ok {maxInvoices : Nat} {invoice : Invoice}
    (h : s.signInvoice maxInvoices invoice = .ok s') :
    s'.invoices = s.invoices ∧ s'.payments = s.payments ∧ s'.excessAmount = s.excessAmount ∧
      Tracks s'.issuedInvoices invoice.paymentHash invoice.invoiceHash := by
  unfold signInvoice at h
  split_ifs at h
  cases hknown : s.issuedInvoices.lookup invoice.paymentHash with
  | some known =>
    simp only [hknown] at h
    split_ifs at h with hsame
    cases h
    exact ⟨rfl, rfl, rfl, known, hknown, hsame⟩
  | none =>
    simp only [hknown] at h
    cases h
    exact ⟨rfl, rfl, rfl, _, AList.lookup_insert s.issuedInvoices, rfl⟩

/-! ## Preimages -/

/-- A preimage for `hash` has been recorded. -/
structure Fulfilled (o : Overflow) (v : Validator) (s : NodeState) (hash : PaymentHash)
    (preimage : PaymentPreimage) (s' : NodeState) : Prop where
  mem : hash ∈ s.payments
  unknown : s.hasPreimage hash = false
  invoices : s'.invoices = s.invoices
  issued : s'.issuedInvoices = s.issuedInvoices
  payments : s'.payments =
    s.payments.insert hash { s.payment hash with preimage := some preimage }
  excess : ∃ incoming outgoing, (s.payment hash).incomingOutgoing o = .ok (incoming, outgoing) ∧
    s.fulfilledExcess v hash incoming outgoing = .ok s'.excessAmount

theorem fulfill_ok {preimage : PaymentPreimage} (h : s.fulfill o v hash preimage = .ok s') :
    s' = s ∨ s.Fulfilled o v hash preimage s' := by
  unfold fulfill at h
  cases hp : s.payments.lookup hash with
  | none =>
    simp only [hp] at h
    exact .inl (Except.ok.inj h).symm
  | some p =>
    have hpayment : s.payment hash = p := by rw [payment, hp]; rfl
    simp only [hp] at h
    split_ifs at h with hfulfilled
    · exact .inl (Except.ok.inj h).symm
    · obtain ⟨⟨incoming, outgoing⟩, htotals, h⟩ := bind_ok h
      obtain ⟨excess, hexcess, h⟩ := bind_ok h
      cases h
      refine .inr ⟨?_, ?_, rfl, rfl, by rw [hpayment], ?_⟩
      · exact AList.lookup_isSome.mp (by rw [hp]; rfl)
      · rw [hasPreimage_eq, hpayment]
        exact Bool.not_eq_true _ ▸ hfulfilled
      · exact ⟨incoming, outgoing, by rw [hpayment]; exact htotals, hexcess⟩

namespace Fulfilled

variable {preimage : PaymentPreimage}

theorem payment_eq (h : s.Fulfilled o v hash preimage s') (k : PaymentHash) :
    s'.payment k = if k = hash then { s.payment hash with preimage := some preimage }
      else s.payment k := by
  rw [payment, h.payments, Table.lookup_insert_eq]
  split_ifs with hk
  · rfl
  · rfl

theorem amounts_eq (h : s.Fulfilled o v hash preimage s') (k : PaymentHash) :
    (s'.payment k).incoming = (s.payment k).incoming ∧
      (s'.payment k).outgoing = (s.payment k).outgoing := by
  rw [h.payment_eq]
  split_ifs with hk
  · rw [hk]
    exact ⟨rfl, rfl⟩
  · exact ⟨rfl, rfl⟩

theorem hasPreimage_eq_learn (h : s.Fulfilled o v hash preimage s') :
    s'.hasPreimage = learn s.hasPreimage hash := by
  funext k
  rw [hasPreimage_eq, h.payment_eq, learn, Function.update_apply]
  split_ifs with hk
  · rfl
  · rw [hasPreimage_eq]

end Fulfilled

/-- What holds before some preimages are recorded and is kept by each holds after. -/
theorem htlcsFulfilled_induction {P : NodeState → Prop} {sha256 : Bytes32 → Bytes32}
    {preimages : List PaymentPreimage}
    (hstep : ∀ s s', ∀ preimage ∈ preimages, P s →
      s.Fulfilled o v (sha256 preimage) preimage s' → P s') (hs : P s)
    (h : htlcsFulfilled o v sha256 s preimages = .ok s') : P s' := by
  induction preimages generalizing s with
  | nil => exact Except.ok.inj h ▸ hs
  | cons preimage preimages ih =>
    obtain ⟨s₁, hfirst, hrest⟩ := bind_ok h
    refine ih (fun s s' p hp => hstep s s' p (List.mem_cons_of_mem preimage hp)) ?_ hrest
    rcases fulfill_ok hfirst with rfl | hful
    · exact hs
    · exact hstep s s₁ preimage List.mem_cons_self hs hful

/-! ## Pruning -/

/-- What pruning leaves.  An approved payment goes with its ledger entry, and only when it is over;
other entries may go. -/
structure Pruned (o : Overflow) (s s' : NodeState) : Prop where
  excess : s'.excessAmount = s.excessAmount
  invoices : ∀ hash, s'.invoices.lookup hash = s.invoices.lookup hash ∨
    s'.invoices.lookup hash = none
  payments : ∀ hash, s'.payments.lookup hash = s.payments.lookup hash ∨
    s'.payments.lookup hash = none
  kept : ∀ hash ∈ s'.invoices, s'.payments.lookup hash = s.payments.lookup hash
  dropped : ∀ hash ∈ s.invoices, hash ∉ s'.invoices → s'.payments.lookup hash = none ∧
    isPaymentComplete o (s.payment hash) = .ok true

theorem prunableInvoices_ok {prune : List PaymentHash} (h : s.prunableInvoices o now = .ok prune)
    (hmem : hash ∈ prune) : isPaymentComplete o (s.payment hash) = .ok true := by
  obtain ⟨flags, hflags, h⟩ := bind_ok h
  cases h
  obtain ⟨entry, -, rfl, hflag⟩ := (mem_flagged (fun entry : Sigma fun _ : PaymentHash =>
    PaymentState => entry.1) hflags).mp hmem
  obtain ⟨payment, hpayment, hflag⟩ := bind_ok hflag
  obtain ⟨complete, hcomplete, hflag⟩ := bind_ok hflag
  obtain ⟨time, -, hflag⟩ := bind_ok hflag
  rw [expect_eq_ok] at hpayment
  have hboth := Bool.and_eq_true_iff.mp (pure_eq_ok.mp hflag)
  rw [NodeState.payment, hpayment, Option.getD_some, hcomplete, hboth.2]

theorem pruneInvoices_ok (h : s.pruneInvoices o now = .ok s') : s.Pruned o s' := by
  obtain ⟨prune, hprune, h⟩ := bind_ok h
  cases h
  have hinvoice (hash : PaymentHash) :
      (s.invoices.retain fun k _ => k ∉ prune).lookup hash =
        if hash ∈ prune then none else s.invoices.lookup hash := by
    rw [Table.lookup_retain_keys]
    by_cases h : hash ∈ prune <;> simp [h]
  have hpayment (hash : PaymentHash) :
      (s.payments.retain fun k _ => k ∉ prune).lookup hash =
        if hash ∈ prune then none else s.payments.lookup hash := by
    rw [Table.lookup_retain_keys]
    by_cases h : hash ∈ prune <;> simp [h]
  refine ⟨rfl, fun hash => ?_, fun hash => ?_, fun hash hmem => ?_, fun hash hmem hnot => ?_⟩
  · rw [hinvoice]
    split_ifs
    · exact .inr rfl
    · exact .inl rfl
  · rw [hpayment]
    split_ifs
    · exact .inr rfl
    · exact .inl rfl
  · rw [← AList.lookup_isSome, hinvoice] at hmem
    rw [hpayment]
    split_ifs at hmem ⊢
    · cases hmem
    · rfl
  · rw [← AList.lookup_isSome, hinvoice] at hnot
    rw [hpayment]
    split_ifs at hnot ⊢ with hin
    · exact ⟨rfl, prunableInvoices_ok hprune hin⟩
    · exact absurd (AList.lookup_isSome.mpr hmem) hnot

theorem pruneIssuedInvoices_ok (h : s.pruneIssuedInvoices now = .ok s') :
    s'.invoices = s.invoices ∧ s'.payments = s.payments ∧ s'.excessAmount = s.excessAmount := by
  obtain ⟨times, -, h⟩ := bind_ok h
  cases h
  exact ⟨rfl, rfl, rfl⟩

theorem pruneForwardedPayments_ok (h : s.pruneForwardedPayments o = .ok s') :
    s'.invoices = s.invoices ∧ s'.excessAmount = s.excessAmount ∧
      ∀ hash, (s'.payments.lookup hash = s.payments.lookup hash) ∨
        (hash ∉ s.invoices ∧ s'.payments.lookup hash = none) := by
  obtain ⟨flags, hflags, h⟩ := bind_ok h
  cases h
  refine ⟨rfl, rfl, fun hash => ?_⟩
  rw [Table.lookup_retain_keys]
  by_cases hin : hash ∈ ((s.payments.keys.zip flags).filter (·.2)).map (·.1)
  · right
    obtain ⟨entry, -, rfl, hflag⟩ := (mem_flagged (fun entry : Sigma fun _ : PaymentHash =>
      RoutedPayment => entry.1) hflags).mp hin
    constructor
    · intro hmem
      unfold isForwardedPaymentPrunable at hflag
      rw [if_pos (.inl hmem)] at hflag
      cases hflag
    · rw [if_neg (by simpa using hin)]
  · left
    rw [if_pos (by simpa using hin)]

/-- Pruning does what `Pruned` says. -/
theorem prune_ok (h : s.prune o now = .ok s') : s.Pruned o s' := by
  obtain ⟨s₁, h₁, h⟩ := bind_ok h
  obtain ⟨s₂, h₂, h₃⟩ := bind_ok h
  have hfirst := pruneInvoices_ok h₁
  obtain ⟨hinvoices₂, hpayments₂, hexcess₂⟩ := pruneIssuedInvoices_ok h₂
  obtain ⟨hinvoices₃, hexcess₃, hpayments₃⟩ := pruneForwardedPayments_ok h₃
  rw [hinvoices₂] at hinvoices₃
  rw [hpayments₂, hinvoices₂] at hpayments₃
  refine ⟨by rw [hexcess₃, hexcess₂, hfirst.excess], fun hash => ?_, fun hash => ?_,
    fun hash hmem => ?_, fun hash hmem hnot => ?_⟩
  · rw [hinvoices₃]
    exact hfirst.invoices hash
  · rcases hpayments₃ hash with h | ⟨-, h⟩
    · rw [h]
      exact hfirst.payments hash
    · exact .inr h
  · rw [hinvoices₃] at hmem
    rcases hpayments₃ hash with h | ⟨hnot, -⟩
    · rw [h]
      exact hfirst.kept hash hmem
    · exact absurd hmem hnot
  · rw [hinvoices₃] at hnot
    obtain ⟨hlookup, hcomplete⟩ := hfirst.dropped hash hmem hnot
    refine ⟨?_, hcomplete⟩
    rcases hpayments₃ hash with h | ⟨-, h⟩
    · rw [h, hlookup]
    · exact h

theorem Pruned.payment_eq (h : s.Pruned o s') (hash : PaymentHash) :
    s'.payment hash = s.payment hash ∨ s'.payment hash = .new := by
  unfold payment
  rcases h.payments hash with h | h
  · exact .inl (by rw [h])
  · exact .inr (by rw [h]; rfl)

end NodeState

/-! ## Served events -/

/-- The event asks to approve a payment. -/
def NodeEvent.Approves {size : Nat} : NodeEvent size → Prop
  | .addInvoice _ _ _ => True
  | .addKeysend _ _ _ _ _ => True
  | _ => False

/-- The event prunes payments. -/
def NodeEvent.Prunes {size : Nat} : NodeEvent size → Prop
  | .heartbeat _ => True
  | _ => False

instance {size : Nat} : DecidablePred (@NodeEvent.Prunes size)
  | .heartbeat _ => isTrue trivial
  | .request _ _ _ => isFalse id
  | .htlcsFulfilled _ _ => isFalse id
  | .addInvoice _ _ _ => isFalse id
  | .addKeysend _ _ _ _ _ => isFalse id
  | .signInvoice _ => isFalse id

/-- The time, the hash and the state of the payment an event asks to approve. -/
def NodeEvent.adds {size : Nat} : NodeEvent size → Option (Nat × PaymentHash × PaymentState)
  | .addInvoice _ now invoice => some (now, invoice.paymentHash, paymentStateFromInvoice invoice)
  | .addKeysend _ now payee hash amountMsat =>
    some (now, hash, paymentStateFromKeysend payee hash amountMsat now)
  | _ => none

/-- What one served event can do to the payment state of a node. -/
inductive Node.Moved (N : Node) (s : NodeState) : NodeEvent N.size → NodeState → Prop where
  | kept (event : NodeEvent N.size) : Moved N s event s
  | applied {i : Fin N.size} {call : Call} {request : Request} {incoming outgoing : Summary}
      {delta : BalanceDelta} {s' : NodeState}
      (h : s.applyPayments N.overflow N.validator (N.channels i).id0 incoming outgoing delta =
        .ok s') : Moved N s (.request i call request) s'
  | fulfilled {i : Fin N.size} {preimages : List PaymentPreimage} {s' : NodeState}
      (h : s.htlcsFulfilled N.overflow N.validator N.library.sha256 preimages = .ok s') :
      Moved N s (.htlcsFulfilled i preimages) s'
  | added {event : NodeEvent N.size} {now : Nat} {hash : PaymentHash} {state : PaymentState}
      {added : Bool} {s' : NodeState} (hevent : event.adds = some (now, hash, state))
      (h : s.Added N.overflow now hash state added s') : Moved N s event s'
  | invoiceSigned {invoice : Invoice} {s' : NodeState}
      (h : s.signInvoice N.policy.maxInvoices invoice = .ok s') :
      Moved N s (.signInvoice invoice) s'
  | pruned {now : Nat} {s' : NodeState} (h : s.prune N.overflow now = .ok s') :
      Moved N s (.heartbeat now) s'

/-- What one served event can do to the memory of a node. -/
inductive Node.Changed (N : Node) (v : SimpleValidator) (m : NodeMemory N.size) :
    NodeEvent N.size → NodeMemory N.size → Prop where
  | kept {event : NodeEvent N.size} {m' : NodeMemory N.size} (hledger : m.node.SameLedger m'.node)
      (hcommitments : ∀ i, (m'.estates i).commitments = (m.estates i).commitments)
      (hinitial : ∀ i, (m'.estates i).initialHolderValue = (m.estates i).initialHolderValue) :
      Changed N v m event m'
  | updated {i : Fin N.size} {call : Call} {request : Request} {s : Session}
      {newHolderTx newCounterpartyTx : Option CommitmentInfo2} {update : CommitmentUpdate}
      (h : (N.channels i).Updated v (N.session m i) s newHolderTx newCounterpartyTx update) :
      Changed N v m (.request i call request) (m.write i s)
  | fulfilled {i : Fin N.size} {preimages : List PaymentPreimage} {s : NodeState}
      (h : m.node.htlcsFulfilled N.overflow N.validator N.library.sha256 preimages = .ok s) :
      Changed N v m (.htlcsFulfilled i preimages) { m with node := s }
  | approved {event : NodeEvent N.size} {hash : PaymentHash} {state : PaymentState}
      {s : NodeState} (hevent : event.Approves) (h : m.node.Approved hash state s) :
      Changed N v m event { m with node := s }
  | issued {invoice : Invoice} {s : NodeState} (hinvoices : s.invoices = m.node.invoices)
      (hpayments : s.payments = m.node.payments) (hexcess : s.excessAmount = m.node.excessAmount) :
      Changed N v m (.signInvoice invoice) { m with node := s }
  | pruned {now : Nat} {s : NodeState} (h : m.node.Pruned N.overflow s) :
      Changed N v m (.heartbeat now) { m with node := s }

namespace Node

variable {N : Node} {v : SimpleValidator} {m m' : NodeMemory N.size} {event : NodeEvent N.size}

theorem Changed.of_same (N : Node) (v : SimpleValidator) (m : NodeMemory N.size)
    (event : NodeEvent N.size) : N.Changed v m event m :=
  .kept (.refl m.node) (fun _ => rfl) fun _ => rfl

/-- Writing a session that has not moved keeps everything. -/
theorem Changed.of_unmoved {i : Fin N.size} {s : Session} (h : (N.session m i).Unmoved s) :
    N.Changed v m event (m.write i s) := by
  refine .kept ?_ (fun j => ?_) fun j => ?_
  · change m.node.SameLedger s.node
    rw [h.node]
    exact .refl m.node
  · simp only [NodeMemory.write, Function.update_apply]
    split_ifs with hj
    · rw [hj, h.commitments]
      rfl
    · rfl
  · simp only [NodeMemory.write, Function.update_apply]
    split_ifs with hj
    · rw [hj, h.initial]
      rfl
    · rfl

/-- What one event that does not abort can do. -/
inductive Stepped (N : Node) (m : NodeMemory N.size) : NodeEvent N.size → NodeMemory N.size →
    Prop where
  | kept (event : NodeEvent N.size) : Stepped N m event m
  | served {i : Fin N.size} {call : Call} {request : Request} {r : Result Reply} {t : Session}
      (h : (N.channels i).Served call (N.session m i) request r t) :
      Stepped N m (.request i call request) (m.write i t)
  | moved {event : NodeEvent N.size} {s : NodeState}
      (hevent : ∀ i call request, event ≠ .request i call request) (h : N.Moved m.node event s) :
      Stepped N m event { m with node := s }

/-- The memory after an operation on payments is that of its result. -/
theorem stepped_of_settle {α : Type} {reply : α → NodeReply} {x : Result (α × NodeState)}
    (h : (N.step (some m) event).1 = some m') (hserve : N.serve m event = m.settle reply x)
    (hevent : ∀ i call request, event ≠ .request i call request)
    (hmoved : ∀ a s, x = .ok (a, s) → N.Moved m.node event s) : N.Stepped m event m' := by
  simp only [step, hserve] at h
  rcases x with (e | text) | ⟨a, s⟩
  · cases h
    exact .kept event
  · cases h
  · cases h
    exact .moved hevent (hmoved a s rfl)

/-- Every event that does not abort does one of these things. -/
theorem step_stepped (h : (N.step (some m) event).1 = some m') : N.Stepped m event m' := by
  cases event with
  | request i call request =>
    rcases hexec : ((N.channels i).execute call request).exec (N.session m i) with ⟨r, t⟩
    have hserve : N.serve m (.request i call request) = (r.map .channel, m.write i t) := by
      simp only [serve, hexec]
    simp only [step, hserve] at h
    have hwrite : m.write i t = m' := by
      rcases r with (e | text) | reply
      · exact Option.some.inj h
      · cases h
      · exact Option.some.inj h
    subst hwrite
    cases Channel.execute_outcome hexec with
    | failed fault =>
      have hsame : m.write i (N.session m i) = m := by
        simp only [NodeMemory.write, session, Function.update_eq_self]
      rw [hsame]
      exact .kept _
    | aborted text t hstored => exact nomatch h
    | ended hserved => exact .served hserved
  | htlcsFulfilled i preimages =>
    refine stepped_of_settle h (by rw [serve]) nofun fun a s hs => ?_
    obtain ⟨s', hs', hs⟩ := bind_ok hs
    obtain ⟨-, rfl⟩ := Prod.mk.inj (pure_eq_ok.mp hs)
    rw [N.library_eq i] at hs'
    exact .fulfilled hs'
  | addInvoice persistOk now invoice =>
    refine stepped_of_settle h (by rw [serve]) nofun fun a s hs => ?_
    obtain ⟨u, -, hs⟩ := bind_ok hs
    exact .added rfl (addPayment_added hs)
  | addKeysend persistOk now payee hash amountMsat =>
    refine stepped_of_settle h (by rw [serve]) nofun fun a s hs => ?_
    exact .added rfl (addPayment_added hs)
  | signInvoice invoice =>
    refine stepped_of_settle h (by rw [serve]) nofun fun a s hs => ?_
    obtain ⟨s', hs', hs⟩ := bind_ok hs
    obtain ⟨-, rfl⟩ := Prod.mk.inj (pure_eq_ok.mp hs)
    exact .invoiceSigned hs'
  | heartbeat now =>
    refine stepped_of_settle h (by rw [serve]) nofun fun a s hs => ?_
    obtain ⟨s', hs', hs⟩ := bind_ok hs
    obtain ⟨-, rfl⟩ := Prod.mk.inj (pure_eq_ok.mp hs)
    exact .pruned hs'

/-- Under the simple validator every such event does one of these things. -/
theorem step_changed (hv : N.validator = v.toValidator) (hfilter : v.policy.filter = .default)
    (h : (N.step (some m) event).1 = some m') : N.Changed v m event m' := by
  cases step_stepped h with
  | kept => exact .of_same N v m _
  | @served i _ _ _ _ hserved =>
    have hch : (N.channels i).validator = v.toValidator := (N.validator_eq i).trans hv
    rcases hserved.unmoved_or_updated hch hfilter with hsame | ⟨_, _, _, hupdated⟩
    · exact .of_unmoved hsame
    · exact .updated hupdated
  | moved hevent hmoved =>
    cases hmoved with
    | kept => exact .of_same N v m _
    | applied happlied => exact absurd rfl (hevent _ _ _)
    | fulfilled hfulfilled => exact .fulfilled hfulfilled
    | added hadds hadded =>
      have happroves : event.Approves := by cases event <;> trivial
      rcases hadded.ledger with hsame | happroved
      · exact .kept hsame (fun _ => rfl) fun _ => rfl
      · exact .approved happroves happroved
    | invoiceSigned hsigned =>
      obtain ⟨hinvoices, hpayments, hexcess, -⟩ := signInvoice_ok hsigned
      exact .issued hinvoices hpayments hexcess
    | pruned hpruned => exact .pruned (prune_ok hpruned)

end Node

end ValidatingSigner
