import Vls.Policy.Validator

/-!
# The payment ledger of a node

A node records, for each payment hash, what is in flight on each of its channels, the invoices it
approved and issued, and the preimages it has seen.  Commitment updates are checked against this
ledger and then applied to it.
-/

namespace ValidatingSigner

open Base

/-- How an outgoing payment was requested. -/
inductive PaymentType where
  | invoice
  | keysend
  deriving DecidableEq

/-- The name of a payment type in messages. -/
def PaymentType.text : PaymentType → String
  | .invoice => "invoice"
  | .keysend => "keysend"

/-- An approved or issued invoice.  Times are in nanoseconds since the epoch. -/
structure PaymentState where
  invoiceHash : Bytes32
  amountMsat : Nat
  payee : PublicKey
  durationSinceEpoch : Nat
  expiryDuration : Nat
  isFulfilled : Bool
  paymentType : PaymentType
  deriving DecidableEq

/-- The HTLCs of one payment in flight on each channel, in satoshi. -/
structure RoutedPayment where
  incoming : Table ChannelId Nat
  outgoing : Table ChannelId Nat
  preimage : Option PaymentPreimage

namespace RoutedPayment

/-- A payment with nothing in flight. -/
def new : RoutedPayment := ⟨∅, ∅, none⟩

/-- Whether the preimage is known. -/
def isFulfilled (p : RoutedPayment) : Bool := p.preimage.isSome

/-- Whether nothing comes in. -/
def isNoIncoming (o : Overflow) (p : RoutedPayment) : Result Bool := do
  let sum ← o.u64 p.incoming.total
  return sum == 0

/-- Whether nothing goes out. -/
def isNoOutgoing (o : Overflow) (p : RoutedPayment) : Result Bool := do
  let sum ← o.u64 p.outgoing.total
  return sum == 0

/-- The payment after a channel reports what is in flight on it. -/
def apply (p : RoutedPayment) (channelId : ChannelId) (incomingSat outgoingSat : Nat) :
    RoutedPayment :=
  { p with
    incoming := p.incoming.insert channelId incomingSat
    outgoing := p.outgoing.insert channelId outgoingSat }

/-- The total incoming and outgoing amounts. -/
def incomingOutgoing (o : Overflow) (p : RoutedPayment) : Result (Nat × Nat) := do
  let incoming ← o.u64 p.incoming.total
  let outgoing ← o.u64 p.outgoing.total
  return (incoming, outgoing)

/-- The total incoming and outgoing amounts if a channel reports the given ones. -/
def updatedIncomingOutgoing (o : Overflow) (p : RoutedPayment) (channelId : ChannelId)
    (incomingSat outgoingSat : Nat) : Result (Nat × Nat) :=
  (p.apply channelId incomingSat outgoingSat).incomingOutgoing o

end RoutedPayment

/-- A limit on the amount approved over a span of time, kept in buckets, newest first. -/
structure VelocityControl where
  startSec : Nat
  bucketInterval : Nat
  buckets : List Nat
  limit : Nat
  deriving DecidableEq

namespace VelocityControl

/-- The limit, bucket interval and number of buckets of a specification. -/
def specToTriple (spec : VelocityControlSpec) : Nat × Nat × Nat :=
  match spec.intervalType with
  | .hourly => (spec.limitMsat, 300, 12)
  | .daily => (spec.limitMsat, 3600, 24)
  | .unlimited => (2 ^ 64 - 1, 300, 12)

/-- An empty control for a specification. -/
def new (spec : VelocityControlSpec) : VelocityControl :=
  let (limit, bucketInterval, numBuckets) := specToTriple spec
  ⟨0, bucketInterval, List.replicate numBuckets 0, limit⟩

/-- The sum of two amounts, held at the largest 64-bit number. -/
def saturatingAdd (a b : Nat) : Nat := min (a + b) (2 ^ 64 - 1)

/-- The amount approved over the tracked span. -/
def velocity (c : VelocityControl) : Nat := c.buckets.foldl saturatingAdd 0

/-- The control at time `currentSec`, its old buckets dropped. -/
def shift (o : Overflow) (c : VelocityControl) (currentSec : Nat) : Result VelocityControl := do
  let elapsed ← o.sub currentSec c.startSec
  let nshift := min c.buckets.length (elapsed / c.bucketInterval)
  return { c with
    buckets := List.replicate nshift 0 ++ c.buckets.take (c.buckets.length - nshift)
    startSec := currentSec - currentSec % c.bucketInterval }

/-- Record an amount unless it exceeds the limit; also whether it was recorded. -/
def insert (o : Overflow) (c : VelocityControl) (currentSec velocityMsat : Nat) :
    Result (Bool × VelocityControl) := do
  let c ← c.shift o currentSec
  if saturatingAdd c.velocity velocityMsat > c.limit then return (false, c)
  else return (true, { c with buckets := c.buckets.modifyHead (saturatingAdd · velocityMsat) })

end VelocityControl

/-- The payment state of a node. -/
structure NodeState where
  invoices : Table PaymentHash PaymentState
  issuedInvoices : Table PaymentHash PaymentState
  payments : Table PaymentHash RoutedPayment
  excessAmount : Nat
  velocityControl : VelocityControl
  feeVelocityControl : VelocityControl

namespace NodeState

/-- The state of a new node. -/
def new (velocityControl feeVelocityControl : VelocityControl) : NodeState where
  invoices := ∅
  issuedInvoices := ∅
  payments := ∅
  excessAmount := 0
  velocityControl := velocityControl
  feeVelocityControl := feeVelocityControl

/-- Whether the preimage of a hash is known. -/
def hasPreimage (s : NodeState) (hash : PaymentHash) : Bool :=
  match s.payments.lookup hash with
  | some p => p.isFulfilled
  | none => false

/-! ## Commitment updates -/

/-- The hashes of two summaries, each once. -/
def summaryHashes (incoming outgoing : EnforcementState.Summary) : List PaymentHash :=
  (incoming.keys ++ outgoing.keys).dedup

section Update

variable (o : Overflow) (v : Validator) (s : NodeState) (channelId : ChannelId)
  (incoming outgoing : EnforcementState.Summary) (delta : BalanceDelta)

/-- The totals for a hash if the channel reports what the summaries say. -/
def updatedTotals (hash : PaymentHash) : Result (Nat × Nat) :=
  match s.payments.lookup hash with
  | some p => p.updatedIncomingOutgoing o channelId (incoming.amount hash) (outgoing.amount hash)
  | none => .ok (incoming.amount hash, outgoing.amount hash)

/-- Whether the payment with this hash would be out of balance.  A payment that is recorded but not
invoiced is let through. -/
def isUnbalanced (hash : PaymentHash) : Result Bool := do
  let (incomingSat, outgoingSat) ← updatedTotals o s channelId incoming outgoing hash
  let invoicedAmount := (s.invoices.lookup hash).map (·.amountMsat)
  let incomingMsat ← o.u64 (incomingSat * 1000)
  let outgoingMsat ← o.u64 (outgoingSat * 1000)
  match v.validatePaymentBalance incomingMsat outgoingMsat invoicedAmount with
  | .ok () => .ok false
  | .error (.refuse _) =>
    .ok (!((s.payments.lookup hash).isSome && invoicedAmount.isNone))
  | .error (.abort m) => .error (.abort m)

/-- The check that the holder's balance does not fall short. -/
def validateBalance : Result Unit :=
  if v.enforceBalance then do
    let sum ← expect "overflow"
      (if s.excessAmount + delta.new < 2 ^ 64 then some (s.excessAmount + delta.new) else none)
    refuseIf (sum < delta.current)
      (policyError s!"shortfall {s.excessAmount} + {delta.new} - {delta.current}")
  else .ok ()

/-- Check the payments a new commitment would put in flight. -/
def validatePayments : Result Unit := do
  let hashes := summaryHashes incoming outgoing
  let flags ← hashes.mapM (isUnbalanced o v s channelId incoming outgoing)
  let unbalanced := ((hashes.zip flags).filter (·.2)).map (·.1)
  v.filter.policyErr (unbalanced ≠ []) "policy-commitment-htlc-routing-balance"
    "validate_payments"
    s!"unbalanced payments on channel {channelId}: {unbalanced.map Bytes32.toHex}"
  validateBalance v s delta

/-- The payments with an entry for each of the hashes. -/
def withEntries (payments : Table PaymentHash RoutedPayment) (hashes : List PaymentHash) :
    Table PaymentHash RoutedPayment :=
  hashes.foldl (fun t h => if h ∈ t then t else t.insert h RoutedPayment.new) payments

/-- Change the entry of a hash. -/
def modifyPayment (payments : Table PaymentHash RoutedPayment) (hash : PaymentHash)
    (f : RoutedPayment → RoutedPayment) : Table PaymentHash RoutedPayment :=
  match payments.lookup hash with
  | some p => payments.insert hash (f p)
  | none => payments

/-- Whether the update pays an issued invoice in full for the first time. -/
def paysIssuedInvoice (hash : PaymentHash) (p : RoutedPayment) : Result Bool :=
  match s.issuedInvoices.lookup hash with
  | some issued =>
    if p.isFulfilled then .ok false
    else do
      let (incomingSat, outgoingSat) ← p.updatedIncomingOutgoing o channelId
        (incoming.amount hash) (outgoing.amount hash)
      let needed ← o.u64 (outgoingSat + issued.amountMsat / 1000)
      return incomingSat ≥ needed
  | none => .ok false

/-- The excess after the balance moves by `delta`, which `validatePayments` has checked. -/
def adjustedExcess : Result Nat := do
  let sum ← expect "overflow"
    (if s.excessAmount + delta.new < 2 ^ 64 then some (s.excessAmount + delta.new) else none)
  expect "validation didn't catch underflow"
    (if delta.current ≤ sum then some (sum - delta.current) else none)

/-- The excess and the payments once the balance is accounted for.  An issued invoice that is now
paid is marked with a dummy preimage. -/
def settleIssued (payments : Table PaymentHash RoutedPayment) (paid : List PaymentHash) :
    Result (Nat × Table PaymentHash RoutedPayment) :=
  if v.enforceBalance then do
    let excess ← adjustedExcess s delta
    return (excess, paid.foldl
      (fun t h => modifyPayment t h fun p => { p with preimage := some 0 }) payments)
  else .ok (s.excessAmount, payments)

/-- Apply the payments a new commitment puts in flight. -/
def applyPayments : Result NodeState := do
  let hashes := summaryHashes incoming outgoing
  let payments := withEntries s.payments hashes
  let flags ← hashes.mapM fun h =>
    paysIssuedInvoice o s channelId incoming outgoing h ((payments.lookup h).getD .new)
  let paid := ((hashes.zip flags).filter (·.2)).map (·.1)
  let (excess, payments) ← settleIssued v s delta payments paid
  return { s with
    excessAmount := excess
    payments := hashes.foldl
      (fun t h => modifyPayment t h fun p =>
        p.apply channelId (incoming.amount h) (outgoing.amount h)) payments }

theorem noRefusal_paysIssuedInvoice (hash : PaymentHash) (p : RoutedPayment) :
    NoRefusal (paysIssuedInvoice o s channelId incoming outgoing hash p) := by
  unfold paysIssuedInvoice
  split
  · split
    · exact .ok _
    · refine .bind (.bind (.u64 _ _) fun _ => .bind (.u64 _ _) fun _ => .ok _) fun _ => ?_
      exact .bind (.u64 _ _) fun _ => .ok _
  · exact .ok _

/-- Applying payments never refuses: it was checked before. -/
theorem noRefusal_applyPayments :
    NoRefusal (applyPayments o v s channelId incoming outgoing delta) := by
  refine .bind (.mapM (fun h => noRefusal_paysIssuedInvoice o s channelId incoming outgoing h _) _)
    fun flags => ?_
  refine .bind ?_ fun settled => .ok _
  unfold settleIssued
  split
  · exact .bind (.bind (.expect _ _) fun _ => .expect _ _) fun _ => .ok _
  · exact .ok _

end Update

end NodeState

/-! ## Invoices

Times are in nanoseconds. -/

/-- An invoice as the signer reads it. -/
structure Invoice where
  paymentHash : PaymentHash
  invoiceHash : Bytes32
  amountMilliSatoshis : Nat
  payeePubKey : PublicKey
  durationSinceEpoch : Nat
  expiryDuration : Nat
  deriving DecidableEq

/-- A duration of some seconds. -/
def durationFromSecs (secs : Nat) : Nat := secs * 1000000000

/-- The whole seconds of a duration. -/
def durationAsSecs (duration : Nat) : Nat := duration / 1000000000

/-- The sum of two durations, which aborts when its seconds do not fit. -/
def addDuration (a b : Nat) : Result Nat :=
  expect "overflow when adding durations"
    (if a + b < durationFromSecs (2 ^ 64) then some (a + b) else none)

/-- The least time an invoice must still be valid for. -/
def MIN_INVOICE_EXPIRY : Nat := durationFromSecs 60

/-- How far clocks may differ. -/
def MAX_CLOCK_SKEW : Nat := durationFromSecs 60

/-- How long an expired invoice is kept. -/
def INVOICE_PRUNE_TIME : Nat := durationFromSecs (60 * 60 * 24)

/-- How long an expired keysend is kept. -/
def KEYSEND_PRUNE_TIME : Nat := durationFromSecs 0

/-- The checks on an invoice to be paid. -/
def Validator.validateInvoice (v : Validator) (invoice : Invoice) (now : Nat) : Result Unit := do
  let latest ← addDuration now MAX_CLOCK_SKEW
  v.filter.policyErr (latest < invoice.durationSinceEpoch) "policy-invoice-not-expired"
    "validate_invoice"
    (s!"invoice is not yet valid ({durationAsSecs now} + {durationAsSecs MAX_CLOCK_SKEW} (skew) " ++
      s!"+ 0 (tolerance) < {durationAsSecs invoice.durationSinceEpoch})")
  let needed ← addDuration now MIN_INVOICE_EXPIRY
  let expires ← addDuration invoice.durationSinceEpoch invoice.expiryDuration
  let limit ← addDuration expires MAX_CLOCK_SKEW
  v.filter.policyErr (needed > limit) "policy-invoice-not-expired" "validate_invoice"
    (s!"invoice is expired ({durationAsSecs now} + {durationAsSecs MIN_INVOICE_EXPIRY} (buffer) " ++
      s!"> {durationAsSecs expires} + {durationAsSecs MAX_CLOCK_SKEW} (skew) + 0 (tolerance))")

/-- The state that tracks an invoice. -/
def paymentStateFromInvoice (invoice : Invoice) : PaymentState where
  invoiceHash := invoice.invoiceHash
  amountMsat := invoice.amountMilliSatoshis
  payee := invoice.payeePubKey
  durationSinceEpoch := invoice.durationSinceEpoch
  expiryDuration := invoice.expiryDuration
  isFulfilled := false
  paymentType := .invoice

/-- The state that tracks a keysend. -/
def paymentStateFromKeysend (payee : PublicKey) (paymentHash : PaymentHash) (amountMsat now : Nat) :
    PaymentState where
  invoiceHash := paymentHash
  amountMsat := amountMsat
  payee := payee
  durationSinceEpoch := now
  expiryDuration := durationFromSecs 60
  isFulfilled := false
  paymentType := .keysend

namespace NodeState

variable (o : Overflow) (v : Validator) (s : NodeState)

/-- Record a payment that counts against the velocity limit; whether it was recorded. -/
def recordPayment (persistOk : Bool) (now : Nat) (hash : PaymentHash) (state : PaymentState) :
    Result (Bool × NodeState) := do
  let (fits, control) ← s.velocityControl.insert o (durationAsSecs now) state.amountMsat
  if fits then do
    assert (persistOk = true) "node persistence failure"
    return (true,
      { s with
        velocityControl := control
        invoices := s.invoices.insert hash state
        payments := if hash ∈ s.payments then s.payments else s.payments.insert hash .new })
  else return (false, { s with velocityControl := control })

/-- Approve a payment unless there are too many or another with its hash. -/
def addPayment (maxInvoices : Nat) (persistOk : Bool) (now : Nat) (hash : PaymentHash)
    (state : PaymentState) (other : String) : Result (Bool × NodeState) :=
  if s.invoices.keys.length ≥ maxInvoices then
    .error (.refuse (failedPrecondition
      s!"too many invoices ({s.invoices.keys.length} >= {maxInvoices})"))
  else
    match s.invoices.lookup hash with
    | some known =>
      if known.invoiceHash = state.invoiceHash then .ok (true, s)
      else .error (.refuse (failedPrecondition other))
    | none => s.recordPayment o persistOk now hash state

/-- Approve an invoice. -/
def addInvoice (maxInvoices : Nat) (persistOk : Bool) (now : Nat) (invoice : Invoice) :
    Result (Bool × NodeState) := do
  v.validateInvoice invoice now
  s.addPayment o maxInvoices persistOk now invoice.paymentHash (paymentStateFromInvoice invoice)
    "add_invoice: already have a different invoice for same payment_hash"

/-- Approve a keysend. -/
def addKeysend (maxInvoices : Nat) (persistOk : Bool) (now : Nat) (payee : PublicKey)
    (paymentHash : PaymentHash) (amountMsat : Nat) : Result (Bool × NodeState) :=
  s.addPayment o maxInvoices persistOk now paymentHash
    (paymentStateFromKeysend payee paymentHash amountMsat now)
    "add_keysend: already have a different keysend for same payment_hash"

/-- Issue an invoice and track its payment. -/
def signInvoice (maxInvoices : Nat) (invoice : Invoice) : Result NodeState :=
  if s.issuedInvoices.keys.length ≥ maxInvoices then
    .error (.refuse (failedPrecondition
      s!"too many invoices {s.issuedInvoices.keys.length} (max {maxInvoices})"))
  else
    match s.issuedInvoices.lookup invoice.paymentHash with
    | some known =>
      if known.invoiceHash = invoice.invoiceHash then .ok s
      else .error (.refuse (failedPrecondition
        "sign_invoice: already have a different invoice for same secret"))
    | none =>
      .ok { s with
        issuedInvoices :=
          s.issuedInvoices.insert invoice.paymentHash (paymentStateFromInvoice invoice) }

/-! ## Preimages -/

/-- The excess once a payment is fulfilled.  Paying an approved invoice leaves it as it is. -/
def fulfilledExcess (hash : PaymentHash) (incoming outgoing : Nat) : Result Nat :=
  if hash ∈ s.invoices then .ok s.excessAmount
  else if v.enforceBalance then do
    let sum ← expect "overflow"
      (if s.excessAmount + incoming < 2 ^ 64 then some (s.excessAmount + incoming) else none)
    expect "underflow" (if outgoing ≤ sum then some (sum - outgoing) else none)
  else .ok s.excessAmount

/-- Record a preimage for the payment with hash `hash`, if there is one that has none. -/
def fulfill (hash : PaymentHash) (preimage : PaymentPreimage) : Result NodeState :=
  match s.payments.lookup hash with
  | none => .ok s
  | some p =>
    if p.isFulfilled then .ok s
    else do
      let (incoming, outgoing) ← p.incomingOutgoing o
      let excess ← s.fulfilledExcess v hash incoming outgoing
      return { s with
        excessAmount := excess
        payments := s.payments.insert hash { p with preimage := some preimage } }

/-- Record a preimage. -/
def htlcFulfilled (sha256 : Bytes32 → Bytes32) (preimage : PaymentPreimage) : Result NodeState :=
  s.fulfill o v (sha256 preimage) preimage

/-- Record preimages one after the other. -/
def htlcsFulfilled (sha256 : Bytes32 → Bytes32) : NodeState → List PaymentPreimage →
    Result NodeState
  | s, [] => .ok s
  | s, preimage :: preimages => do
    let s ← s.htlcFulfilled o v sha256 preimage
    htlcsFulfilled sha256 s preimages

/-! ## Pruning -/

/-- How long after its expiry a payment is kept. -/
def pruneTime (state : PaymentState) : Nat :=
  match state.paymentType with
  | .invoice => INVOICE_PRUNE_TIME
  | .keysend => KEYSEND_PRUNE_TIME

/-- When a payment may be pruned. -/
def pruneAt (state : PaymentState) : Result Nat := do
  let expires ← addDuration state.durationSinceEpoch state.expiryDuration
  addDuration expires (pruneTime state)

/-- Whether a payment is over: its preimage is known or nothing goes out. -/
def isPaymentComplete (payment : RoutedPayment) : Result Bool :=
  if payment.isFulfilled then .ok true else payment.isNoOutgoing o

/-- Whether an approved payment is over and long expired. -/
def isInvoicePrunable (now : Nat) (state : PaymentState) (payment : RoutedPayment) :
    Result Bool := do
  let complete ← isPaymentComplete o payment
  let time ← pruneAt state
  return decide (now > time) && complete

/-- The hashes of the approved payments that may be pruned. -/
def prunableInvoices (now : Nat) : Result (List PaymentHash) := do
  let flags ← s.invoices.entries.mapM fun entry => do
    let payment ← expect s!"missing payments struct for {entry.2.paymentType.text}"
      (s.payments.lookup entry.1)
    isInvoicePrunable o now entry.2 payment
  return ((s.invoices.keys.zip flags).filter (·.2)).map (·.1)

/-- Drop approved payments that are over and long expired. -/
def pruneInvoices (now : Nat) : Result NodeState := do
  let prune ← s.prunableInvoices o now
  return { s with
    invoices := s.invoices.retain fun hash _ => hash ∉ prune
    payments := s.payments.retain fun hash _ => hash ∉ prune }

/-- Drop issued invoices that are long expired. -/
def pruneIssuedInvoices (now : Nat) : Result NodeState := do
  let times ← s.issuedInvoices.entries.mapM fun entry => pruneAt entry.2
  let keep := ((s.issuedInvoices.keys.zip times).filter (now < ·.2)).map (·.1)
  return { s with issuedInvoices := s.issuedInvoices.retain fun hash _ => hash ∈ keep }

/-- Whether a payment that nothing tracks has nothing in flight. -/
def isForwardedPaymentPrunable (hash : PaymentHash) (payment : RoutedPayment) : Result Bool :=
  if hash ∈ s.invoices ∨ hash ∈ s.issuedInvoices then .ok false
  else do
    let noIncoming ← payment.isNoIncoming o
    if noIncoming then payment.isNoOutgoing o else return false

/-- Drop payments that nothing tracks and that have nothing in flight. -/
def pruneForwardedPayments : Result NodeState := do
  let flags ← s.payments.entries.mapM fun entry =>
    s.isForwardedPaymentPrunable o entry.1 entry.2
  let prune := ((s.payments.keys.zip flags).filter (·.2)).map (·.1)
  return { s with payments := s.payments.retain fun hash _ => hash ∉ prune }

/-- What a heartbeat drops. -/
def prune (now : Nat) : Result NodeState := do
  let s ← s.pruneInvoices o now
  let s ← s.pruneIssuedInvoices now
  s.pruneForwardedPayments o

end NodeState

end ValidatingSigner
