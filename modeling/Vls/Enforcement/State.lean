import Mathlib.Data.Prod.Lex
import Mathlib.Data.List.Sort
import Vls.Base.Table
import Vls.Enforcement.Secrets

/-!
# The enforcement state of a channel

The counters, points and commitments a channel remembers between requests, and the setters that move
them.  The setters assume that the caller has checked the policy.
-/

namespace ValidatingSigner

open Base

/-! ## Commitments as the signer remembers them -/

/-- An HTLC of a commitment. -/
structure HTLCInfo2 where
  valueSat : Nat
  paymentHash : PaymentHash
  cltvExpiry : Nat
  deriving DecidableEq

namespace HTLCInfo2

/-- The fields of an HTLC in the order they are compared. -/
def sortKey (h : HTLCInfo2) : ℕ ×ₗ (ℕ ×ₗ ℕ) :=
  toLex (h.valueSat, toLex (h.paymentHash.toNat, h.cltvExpiry))

/-- The order HTLCs are sorted in. -/
def Before (a b : HTLCInfo2) : Prop := a.sortKey ≤ b.sortKey

instance : DecidableRel Before := fun a b => inferInstanceAs (Decidable (a.sortKey ≤ b.sortKey))

end HTLCInfo2

/-- The HTLCs of a list in order. -/
def sortHtlcs (htlcs : List HTLCInfo2) : List HTLCInfo2 := htlcs.insertionSort HTLCInfo2.Before

theorem sortHtlcs_perm (htlcs : List HTLCInfo2) : (sortHtlcs htlcs).Perm htlcs :=
  List.perm_insertionSort HTLCInfo2.Before htlcs

/-- A commitment transaction described by its values. -/
structure CommitmentInfo2 where
  isCounterpartyBroadcaster : Bool
  toCountersignerPubkey : PublicKey
  toCountersignerValueSat : Nat
  revocationPubkey : PublicKey
  toBroadcasterDelayedPubkey : PublicKey
  toBroadcasterValueSat : Nat
  toSelfDelay : Nat
  offeredHtlcs : List HTLCInfo2
  receivedHtlcs : List HTLCInfo2
  feeratePerKw : Nat
  deriving DecidableEq

/-- The values read off a commitment transaction. -/
structure CommitmentInfo where
  toCountersignerValueSat : Nat
  toBroadcasterValueSat : Nat
  deriving DecidableEq

namespace CommitmentInfo2

/-- The description of a commitment; both HTLC lists are sorted. -/
def new (isCounterpartyBroadcaster : Bool) (toCountersignerPubkey : PublicKey)
    (toCountersignerValueSat : Nat) (revocationPubkey toBroadcasterDelayedPubkey : PublicKey)
    (toBroadcasterValueSat toSelfDelay : Nat) (offeredHtlcs receivedHtlcs : List HTLCInfo2)
    (feeratePerKw : Nat) : CommitmentInfo2 where
  isCounterpartyBroadcaster := isCounterpartyBroadcaster
  toCountersignerPubkey := toCountersignerPubkey
  toCountersignerValueSat := toCountersignerValueSat
  revocationPubkey := revocationPubkey
  toBroadcasterDelayedPubkey := toBroadcasterDelayedPubkey
  toBroadcasterValueSat := toBroadcasterValueSat
  toSelfDelay := toSelfDelay
  offeredHtlcs := sortHtlcs offeredHtlcs
  receivedHtlcs := sortHtlcs receivedHtlcs
  feeratePerKw := feeratePerKw

/-- The values paid to the holder and to the counterparty, HTLCs excluded. -/
def valueToParties (info : CommitmentInfo2) : Nat × Nat :=
  if info.isCounterpartyBroadcaster then
    (info.toCountersignerValueSat, info.toBroadcasterValueSat)
  else (info.toBroadcasterValueSat, info.toCountersignerValueSat)

/-- The HTLCs the holder offers. -/
def holderOffered (info : CommitmentInfo2) : List HTLCInfo2 :=
  if info.isCounterpartyBroadcaster then info.receivedHtlcs else info.offeredHtlcs

/-- The HTLCs the holder receives. -/
def holderReceived (info : CommitmentInfo2) : List HTLCInfo2 :=
  if info.isCounterpartyBroadcaster then info.offeredHtlcs else info.receivedHtlcs

/-- The sum of the outputs, in 64-bit arithmetic. -/
def totalValue (o : Overflow) (info : CommitmentInfo2) : Result Nat := do
  let parties ← o.u64 (info.toBroadcasterValueSat + info.toCountersignerValueSat)
  let offered ← o.u64 (info.offeredHtlcs.map (·.valueSat)).sum
  let withOffered ← o.u64 (parties + offered)
  let received ← o.u64 (info.receivedHtlcs.map (·.valueSat)).sum
  o.u64 (withOffered + received)

/-- Add to a balance the values of the HTLCs that `counted` selects. -/
def addHtlcs (counted : HTLCInfo2 → Bool) : Nat → List HTLCInfo2 → Result Nat
  | balance, [] => .ok balance
  | balance, htlc :: htlcs =>
    if counted htlc then
      if balance + htlc.valueSat < 2 ^ 64 then addHtlcs counted (balance + htlc.valueSat) htlcs
      else .error (.abort "overflow")
    else addHtlcs counted balance htlcs

/-- The holder's output, with the fee of the commitment when the holder funded the channel. -/
def ownBalance (o : Overflow) (info : CommitmentInfo2) (isOutbound : Bool) (channelValue : Nat) :
    Result Nat :=
  if isOutbound then do
    let totalValue ← info.totalValue o
    let fee ← expect "called unwrap on a None value"
      (if totalValue ≤ channelValue then some (channelValue - totalValue) else none)
    expect "called unwrap on a None value"
      (if info.valueToParties.1 + fee < 2 ^ 64 then some (info.valueToParties.1 + fee) else none)
  else .ok info.valueToParties.1

/-- What the holder can claim from this commitment: its output, the fee it paid, the HTLCs it offers
whose preimage is unknown and the HTLCs it receives whose preimage is known. -/
def claimableBalance (o : Overflow) (info : CommitmentInfo2) (hasPreimage : PaymentHash → Bool)
    (isOutbound : Bool) (channelValue : Nat) : Result Nat := do
  let balance ← info.ownBalance o isOutbound channelValue
  let balance ← addHtlcs (fun h => !hasPreimage h.paymentHash) balance info.holderOffered
  addHtlcs (fun h => hasPreimage h.paymentHash) balance info.holderReceived

end CommitmentInfo2

/-- The counterparty's signatures on a holder commitment and its HTLCs. -/
structure CommitmentSignatures where
  commitment : Signature
  htlcs : List Signature
  deriving DecidableEq

/-- What a channel remembers between requests. -/
structure EnforcementState where
  nextHolderCommitNum : Nat
  nextCounterpartyCommitNum : Nat
  nextCounterpartyRevokeNum : Nat
  currentCounterpartyPoint : Option PublicKey
  previousCounterpartyPoint : Option PublicKey
  currentHolderCommitInfo : Option CommitmentInfo2
  currentCounterpartySignatures : Option CommitmentSignatures
  currentCounterpartyCommitInfo : Option CommitmentInfo2
  previousCounterpartyCommitInfo : Option CommitmentInfo2
  channelClosed : Bool
  initialHolderValue : Nat
  counterpartySecrets : Option CounterpartyCommitmentSecrets
  deriving DecidableEq

/-- The claimable balance of a channel before and after a new commitment. -/
structure BalanceDelta where
  current : Nat
  new : Nat
  deriving DecidableEq

/-- The smaller of two optional values, or the one that is there. -/
def minOpt : Option Nat → Option Nat → Option Nat
  | some a, some b => some (min a b)
  | some a, none => some a
  | none, b => b

namespace EnforcementState

/-- The state of a new channel whose first commitment must pay the holder `initialHolderValue`. -/
def new (initialHolderValue : Nat) : EnforcementState where
  nextHolderCommitNum := 0
  nextCounterpartyCommitNum := 0
  nextCounterpartyRevokeNum := 0
  currentCounterpartyPoint := none
  previousCounterpartyPoint := none
  currentHolderCommitInfo := none
  currentCounterpartySignatures := none
  currentCounterpartyCommitInfo := none
  previousCounterpartyCommitInfo := none
  channelClosed := false
  initialHolderValue := initialHolderValue
  counterpartySecrets := some .new

/-! ## Setters and getters -/

/-- Move to holder commitment number `num`. -/
def setNextHolderCommitNum (e : EnforcementState) (num : Nat) (info : CommitmentInfo2)
    (signatures : CommitmentSignatures) : EnforcementState :=
  { e with
    nextHolderCommitNum := num
    currentHolderCommitInfo := some info
    currentCounterpartySignatures := some signatures }

/-- The holder commitment accepted last. -/
def getCurrentHolderCommitmentInfo (e : EnforcementState) : Result CommitmentInfo2 :=
  expect "called unwrap on a None value" e.currentHolderCommitInfo

/-- The state in which the current counterparty commitment has become the previous one. -/
def shiftCounterparty (e : EnforcementState) : EnforcementState :=
  { e with
    previousCounterpartyPoint := e.currentCounterpartyPoint
    previousCounterpartyCommitInfo := e.currentCounterpartyCommitInfo
    currentCounterpartyCommitInfo := none }

/-- The state that knows no previous counterparty commitment. -/
def clearPreviousCounterparty (e : EnforcementState) : EnforcementState :=
  { e with
    previousCounterpartyPoint := none
    previousCounterpartyCommitInfo := none }

/-- Move to counterparty commitment number `num`. -/
def setNextCounterpartyCommitNum (o : Overflow) (e : EnforcementState) (num : Nat)
    (point : PublicKey) (info : CommitmentInfo2) : Result EnforcementState := do
  assert (0 < num) "assertion failed: num > 0"
  let current := e.nextCounterpartyCommitNum
  let next ← o.u64 (current + 1)
  let e :=
    if num = next then e.shiftCounterparty
    else if num > next ∨ num < current then e.clearPreviousCounterparty
    else e
  let e :=
    if num ≥ next then
      { e with
        currentCounterpartyPoint := some point
        currentCounterpartyCommitInfo := some info }
    else e
  return { e with nextCounterpartyCommitNum := num }

/-- What the state keeps of counterparty commitment `num`: the current value of a field, its
previous value, or nothing. -/
def previousCounterparty {α : Type} (o : Overflow) (e : EnforcementState) (num : Nat)
    (current previous : Option α) : Result (Option α) := do
  let one ← o.u64 (num + 1)
  if one = e.nextCounterpartyCommitNum then return current
  else do
    let two ← o.u64 (num + 2)
    if two = e.nextCounterpartyCommitNum then return previous else return none

/-- The point counterparty commitment `num` was signed under, when it is remembered. -/
def getPreviousCounterpartyPoint (o : Overflow) (e : EnforcementState) (num : Nat) :
    Result (Option PublicKey) :=
  e.previousCounterparty o num e.currentCounterpartyPoint e.previousCounterpartyPoint

/-- The description of counterparty commitment `num`, when it is remembered. -/
def getPreviousCounterpartyCommitInfo (o : Overflow) (e : EnforcementState) (num : Nat) :
    Result (Option CommitmentInfo2) :=
  e.previousCounterparty o num e.currentCounterpartyCommitInfo e.previousCounterpartyCommitInfo

/-- Move to counterparty revocation number `num`. -/
def setNextCounterpartyRevokeNum (o : Overflow) (e : EnforcementState) (num : Nat) :
    Result EnforcementState := do
  assert (num ≠ 0) "assertion failed: num != 0"
  let next ← o.u64 (num + 1)
  return { e with
    previousCounterpartyCommitInfo :=
      if next ≥ e.nextCounterpartyCommitNum then none else e.previousCounterpartyCommitInfo
    nextCounterpartyRevokeNum := num }

/-! ## Payment summaries -/

/-- The amounts in flight for each payment hash. -/
abbrev Summary := Table PaymentHash Nat

/-- Add the HTLCs of a list to a summary. -/
def summarizeFrom (o : Overflow) : Summary → List HTLCInfo2 → Result Summary
  | summary, [] => .ok summary
  | summary, h :: htlcs =>
    match summary.lookup h.paymentHash with
    | some e => do
      let sum ← o.u64 (e + h.valueSat)
      summarizeFrom o (summary.insert h.paymentHash sum) htlcs
    | none => summarizeFrom o (summary.insert h.paymentHash h.valueSat) htlcs

/-- The sum of the HTLCs of each payment. -/
def summarizePayments (o : Overflow) (htlcs : List HTLCInfo2) : Result Summary :=
  summarizeFrom o ∅ htlcs

/-- The summary of the HTLCs `htlcs` selects from a commitment, empty when there is none. -/
def summarizeOpt (o : Overflow) (htlcs : CommitmentInfo2 → List HTLCInfo2) :
    Option CommitmentInfo2 → Result Summary
  | some tx => summarizePayments o (htlcs tx)
  | none => .ok ∅

/-- Record amount 0 for each HTLC whose hash is not recorded. -/
def orZero (summary : Summary) (htlcs : List HTLCInfo2) : Summary :=
  htlcs.foldl
    (fun s h => if h.paymentHash ∈ s then s else s.insert h.paymentHash 0) summary

/-- The HTLCs `htlcs` selects from a commitment, none when there is no commitment. -/
def htlcsOpt (htlcs : CommitmentInfo2 → List HTLCInfo2) : Option CommitmentInfo2 → List HTLCInfo2
  | some tx => htlcs tx
  | none => []

/-- Choose the higher amount when the hash is there, or insert it. -/
def raiseTo (summary : Summary) (entry : Sigma fun _ : PaymentHash => Nat) : Summary :=
  match summary.lookup entry.1 with
  | some v => summary.insert entry.1 (max v entry.2)
  | none => summary.insert entry.1 entry.2

/-- Choose the lower amount when the hash is there. -/
def lowerTo (summary : Summary) (entry : Sigma fun _ : PaymentHash => Nat) : Summary :=
  match summary.lookup entry.1 with
  | some v => summary.insert entry.1 (min v entry.2)
  | none => summary

/-- The outgoing payments in flight, taking the larger of the two commitments' sums. -/
def paymentsSummary (o : Overflow) (e : EnforcementState)
    (newHolderTx newCounterpartyTx : Option CommitmentInfo2) : Result Summary := do
  let holderSummary ←
    summarizeOpt o (·.offeredHtlcs) (newHolderTx.or e.currentHolderCommitInfo)
  let counterpartySummary ←
    summarizeOpt o (·.receivedHtlcs) (newCounterpartyTx.or e.currentCounterpartyCommitInfo)
  let summary := counterpartySummary.entries.foldl raiseTo holderSummary
  let summary := orZero summary (htlcsOpt (·.offeredHtlcs) e.currentHolderCommitInfo)
  return orZero summary (htlcsOpt (·.receivedHtlcs) e.currentCounterpartyCommitInfo)

/-- The incoming payments in flight, taking the smaller of the two commitments' sums. -/
def incomingPaymentsSummary (o : Overflow) (e : EnforcementState)
    (newHolderTx newCounterpartyTx : Option CommitmentInfo2) : Result Summary := do
  let holderSummary ←
    summarizeOpt o (·.receivedHtlcs) (newHolderTx.or e.currentHolderCommitInfo)
  let counterpartySummary ←
    summarizeOpt o (·.offeredHtlcs) (newCounterpartyTx.or e.currentCounterpartyCommitInfo)
  let summary := holderSummary.retain fun hash _ => hash ∈ counterpartySummary
  let summary := counterpartySummary.entries.foldl lowerTo summary
  let summary := orZero summary (htlcsOpt (·.receivedHtlcs) e.currentHolderCommitInfo)
  return orZero summary (htlcsOpt (·.offeredHtlcs) e.currentCounterpartyCommitInfo)

/-! ## Balances -/

/-- The claimable balance of an optional commitment. -/
def claimableOpt (o : Overflow) (hasPreimage : PaymentHash → Bool) (setup : ChannelSetup) :
    Option CommitmentInfo2 → Result (Option Nat)
  | some tx => do
    let balance ← tx.claimableBalance o hasPreimage setup.isOutbound setup.channelValueSat
    return some balance
  | none => .ok none

/-- The claimable balance of the channel before and after a new commitment. -/
def claimableBalances (o : Overflow) (e : EnforcementState) (hasPreimage : PaymentHash → Bool)
    (newHolderTx newCounterpartyTx : Option CommitmentInfo2) (setup : ChannelSetup) :
    Result BalanceDelta := do
  assert (newHolderTx.isSome ∨ newCounterpartyTx.isSome) "must have at least one new tx"
  assert (newHolderTx.isNone ∨ newCounterpartyTx.isNone) "must have at most one new tx"
  let curHolderBal ← claimableOpt o hasPreimage setup e.currentHolderCommitInfo
  let curCpBal ← claimableOpt o hasPreimage setup e.currentCounterpartyCommitInfo
  let newHolderBal ←
    claimableOpt o hasPreimage setup (newHolderTx.or e.currentHolderCommitInfo)
  let newCpBal ←
    claimableOpt o hasPreimage setup (newCounterpartyTx.or e.currentCounterpartyCommitInfo)
  let newBal ← expect "already checked that we have a new tx" (minOpt newHolderBal newCpBal)
  return ⟨(minOpt curHolderBal curCpBal).getD e.initialHolderValue, newBal⟩

end EnforcementState

/-! ## The balance of a channel -/

namespace CommitmentInfo2

/-- The sums and the numbers of the HTLCs that the holder receives and offers. -/
def htlcBalance (info : CommitmentInfo2) : Result (Nat × Nat × Nat × Nat) := do
  let sumOffered ← addHtlcs (fun _ => true) 0 info.holderOffered
  let sumReceived ← addHtlcs (fun _ => true) 0 info.holderReceived
  return (sumReceived, sumOffered, info.holderReceived.length % 2 ^ 32,
    info.holderOffered.length % 2 ^ 32)

/-- The commitment has an HTLC of the payment. -/
def HasHtlc (info : CommitmentInfo2) (hash : PaymentHash) : Prop :=
  hash ∈ (info.offeredHtlcs ++ info.receivedHtlcs).map (·.paymentHash)

variable {known known' : PaymentHash → Bool}

theorem addHtlcs_congr {counted counted' : HTLCInfo2 → Bool} {htlcs : List HTLCInfo2}
    (h : ∀ htlc ∈ htlcs, counted htlc = counted' htlc) (balance : Nat) :
    addHtlcs counted balance htlcs = addHtlcs counted' balance htlcs := by
  induction htlcs generalizing balance with
  | nil => rfl
  | cons htlc htlcs ih =>
    have hrest := ih fun x hx => h x (List.mem_cons_of_mem htlc hx)
    rw [addHtlcs, addHtlcs, h htlc List.mem_cons_self, hrest, hrest]

theorem hasHtlc_of_mem {info : CommitmentInfo2} {htlc : HTLCInfo2}
    (h : htlc ∈ info.holderOffered ∨ htlc ∈ info.holderReceived) :
    info.HasHtlc htlc.paymentHash := by
  have hmem : htlc ∈ info.offeredHtlcs ++ info.receivedHtlcs := by
    unfold holderOffered holderReceived at h
    rw [List.mem_append]
    split_ifs at h
    · exact h.symm
    · exact h
  exact List.mem_map_of_mem hmem

/-- Only the preimages of the HTLCs of a commitment decide what can be claimed from it. -/
theorem claimableBalance_congr {info : CommitmentInfo2}
    (h : ∀ hash, info.HasHtlc hash → known hash = known' hash) (o : Overflow) (isOutbound : Bool)
    (channelValue : Nat) :
    info.claimableBalance o known isOutbound channelValue =
      info.claimableBalance o known' isOutbound channelValue := by
  unfold claimableBalance
  refine congrArg _ (funext fun balance => ?_)
  have hoffered (balance : Nat) :
      addHtlcs (fun htlc => !known htlc.paymentHash) balance info.holderOffered =
        addHtlcs (fun htlc => !known' htlc.paymentHash) balance info.holderOffered :=
    addHtlcs_congr (fun htlc hmem => congrArg (!·) (h _ (hasHtlc_of_mem (.inl hmem)))) balance
  have hreceived (balance : Nat) :
      addHtlcs (fun htlc => known htlc.paymentHash) balance info.holderReceived =
        addHtlcs (fun htlc => known' htlc.paymentHash) balance info.holderReceived :=
    addHtlcs_congr (fun htlc hmem => h _ (hasHtlc_of_mem (.inr hmem))) balance
  simp only [hoffered, hreceived]

end CommitmentInfo2

/-- What a channel is worth to the holder. -/
structure ChannelBalance where
  claimable : Nat
  receivedHtlc : Nat
  offeredHtlc : Nat
  sweeping : Nat
  channelCount : Nat
  receivedHtlcCount : Nat
  offeredHtlcCount : Nat
  deriving DecidableEq

/-- The balance of nothing. -/
def ChannelBalance.zero : ChannelBalance := ⟨0, 0, 0, 0, 0, 0, 0⟩

namespace EnforcementState

/-- The balance of the channel: the lower of the two commitments', nothing while one is missing. -/
def balance (o : Overflow) (e : EnforcementState) (hasPreimage : PaymentHash → Bool)
    (setup : ChannelSetup) : Result ChannelBalance :=
  match e.currentHolderCommitInfo, e.currentCounterpartyCommitInfo with
  | some holder, some counterparty => do
    let holderBal ← holder.claimableBalance o hasPreimage setup.isOutbound setup.channelValueSat
    let cpBal ← counterparty.claimableBalance o hasPreimage setup.isOutbound setup.channelValueSat
    let (bal, info) := if holderBal < cpBal then (holderBal, holder) else (cpBal, counterparty)
    let (receivedHtlc, offeredHtlc, receivedCount, offeredCount) ← info.htlcBalance
    let (claimable, sweeping) := if e.channelClosed then (0, bal) else (bal, 0)
    return ⟨claimable, receivedHtlc, offeredHtlc, sweeping, 1, receivedCount, offeredCount⟩
  | _, _ => .ok .zero

variable {e : EnforcementState} {known known' : PaymentHash → Bool}

/-- A current commitment of the state has an HTLC of the payment. -/
def HasHtlc (e : EnforcementState) (hash : PaymentHash) : Prop :=
  (∃ info, e.currentHolderCommitInfo = some info ∧ info.HasHtlc hash) ∨
    ∃ info, e.currentCounterpartyCommitInfo = some info ∧ info.HasHtlc hash

theorem claimableOpt_congr {info : Option CommitmentInfo2}
    (h : ∀ tx, info = some tx → ∀ hash, tx.HasHtlc hash → known hash = known' hash)
    (o : Overflow) (setup : ChannelSetup) :
    claimableOpt o known setup info = claimableOpt o known' setup info := by
  cases info with
  | none => rfl
  | some tx => rw [claimableOpt, claimableOpt, tx.claimableBalance_congr (h tx rfl)]

/-- Only the preimages of the HTLCs of the current commitments decide the balance. -/
theorem balance_congr (h : ∀ hash, e.HasHtlc hash → known hash = known' hash) (o : Overflow)
    (setup : ChannelSetup) : e.balance o known setup = e.balance o known' setup := by
  unfold balance
  cases hholder : e.currentHolderCommitInfo with
  | none => rfl
  | some holder =>
    cases hcounterparty : e.currentCounterpartyCommitInfo with
    | none => rfl
    | some counterparty =>
      simp only
      rw [holder.claimableBalance_congr fun hash hhtlc => h hash (.inl ⟨holder, hholder, hhtlc⟩),
        counterparty.claimableBalance_congr fun hash hhtlc =>
          h hash (.inr ⟨counterparty, hcounterparty, hhtlc⟩)]

end EnforcementState

end ValidatingSigner
