import Vls.Enforcement.State

/-!
# The amounts of a channel as plain numbers

What is in flight for a payment and what the holder can claim, as sums of natural numbers over the
current commitments.  The summaries and balances that the signer computes in machine words are these
numbers as long as the outputs of each commitment add up to a machine word.
-/

namespace ValidatingSigner

open Base Table CommitmentInfo2 Overflow List AList Option

/-! ## HTLCs -/

/-- The value of some HTLCs. -/
def htlcValue (htlcs : List HTLCInfo2) : Nat := (htlcs.map (·.valueSat)).sum

/-- The value of the HTLCs for a payment. -/
def valueFor (hash : PaymentHash) (htlcs : List HTLCInfo2) : Nat :=
  htlcValue (htlcs.filter (·.paymentHash = hash))

/-- The value of the HTLCs that `counted` selects. -/
def valueOf (counted : PaymentHash → Bool) (htlcs : List HTLCInfo2) : Nat :=
  htlcValue (htlcs.filter fun h => counted h.paymentHash)

@[simp] theorem htlcValue_cons (h : HTLCInfo2) (htlcs : List HTLCInfo2) :
    htlcValue (h :: htlcs) = h.valueSat + htlcValue htlcs := rfl

@[simp] theorem valueFor_nil (hash : PaymentHash) : valueFor hash [] = 0 := rfl

theorem valueOf_cons (counted : PaymentHash → Bool) (h : HTLCInfo2) (htlcs : List HTLCInfo2) :
    valueOf counted (h :: htlcs) =
      (if counted h.paymentHash then h.valueSat else 0) + valueOf counted htlcs := by
  unfold valueOf
  cases hh : counted h.paymentHash <;> simp [hh]

theorem valueFor_cons (hash : PaymentHash) (h : HTLCInfo2) (htlcs : List HTLCInfo2) :
    valueFor hash (h :: htlcs) =
      (if h.paymentHash = hash then h.valueSat else 0) + valueFor hash htlcs := by
  unfold valueFor
  by_cases hh : h.paymentHash = hash <;> simp [hh]

theorem valueFor_le (hash : PaymentHash) (htlcs : List HTLCInfo2) :
    valueFor hash htlcs ≤ htlcValue htlcs := by
  induction htlcs with
  | nil => exact le_rfl
  | cons h htlcs ih =>
    rw [valueFor_cons, htlcValue_cons]
    split_ifs <;> omega

theorem valueFor_eq_zero {hash : PaymentHash} {htlcs : List HTLCInfo2}
    (h : hash ∉ htlcs.map (·.paymentHash)) : valueFor hash htlcs = 0 := by
  induction htlcs with
  | nil => rfl
  | cons x htlcs ih =>
    rw [map_cons, mem_cons, not_or] at h
    rw [valueFor_cons, if_neg fun hx => h.1 hx.symm, ih h.2]

/-- An HTLC with a value gives its payment one. -/
theorem notMem_of_valueFor_eq_zero {hash : PaymentHash} {htlcs : List HTLCInfo2}
    (hpos : ∀ h ∈ htlcs, 0 < h.valueSat) (h : valueFor hash htlcs = 0) :
    hash ∉ htlcs.map (·.paymentHash) := by
  induction htlcs with
  | nil => exact not_mem_nil
  | cons x htlcs ih =>
    have hx := hpos x mem_cons_self
    rw [valueFor_cons] at h
    rw [map_cons, mem_cons, not_or]
    refine ⟨fun heq => ?_, ih (fun h' hh => hpos h' (mem_cons_of_mem _ hh)) (by omega)⟩
    rw [if_pos heq.symm] at h
    omega

/-- The hashes known once `hash` is. -/
def learn (known : PaymentHash → Bool) (hash : PaymentHash) : PaymentHash → Bool :=
  Function.update known hash true

section Learn

variable {known : PaymentHash → Bool} {hash : PaymentHash}

/-- Learning a preimage adds the HTLCs of its payment to those with a known preimage. -/
theorem valueOf_learn (hnew : known hash = false) (htlcs : List HTLCInfo2) :
    valueOf (learn known hash) htlcs = valueOf known htlcs + valueFor hash htlcs := by
  induction htlcs with
  | nil => rfl
  | cons h htlcs ih =>
    rw [valueOf_cons, valueOf_cons, valueFor_cons, ih]
    by_cases hh : h.paymentHash = hash
    · simp only [learn, hh, Function.update_self, if_true, hnew, Bool.false_eq_true, if_false]
      omega
    · simp only [learn, hh, Function.update_of_ne, ne_eq, not_false_eq_true, if_false]
      omega

/-- Learning a preimage takes the HTLCs of its payment from those with an unknown preimage. -/
theorem valueOf_not_learn (hnew : known hash = false) (htlcs : List HTLCInfo2) :
    valueOf (fun k => !learn known hash k) htlcs + valueFor hash htlcs =
      valueOf (fun k => !known k) htlcs := by
  have hback : learn (fun k => !learn known hash k) hash = fun k => !known k := by
    funext k
    by_cases hk : k = hash <;> simp [learn, hk, hnew]
  rw [← hback, valueOf_learn (by simp [learn])]

end Learn

/-! ## Commitments -/

namespace CommitmentInfo2

/-- The value of the outputs. -/
def outputValue (info : CommitmentInfo2) : Nat :=
  info.toBroadcasterValueSat + info.toCountersignerValueSat + htlcValue info.offeredHtlcs +
    htlcValue info.receivedHtlcs

/-- The holder's output, with the fee when the holder funded the channel. -/
def ownValue (info : CommitmentInfo2) (setup : ChannelSetup) : Nat :=
  info.valueToParties.1 +
    (if setup.isOutbound then setup.channelValueSat - info.outputValue else 0)

/-- What the holder can claim when it knows the preimages of `known`. -/
def claimable (known : PaymentHash → Bool) (setup : ChannelSetup) (info : CommitmentInfo2) : Nat :=
  info.ownValue setup + valueOf (fun k => !known k) info.holderOffered +
    valueOf known info.holderReceived

/-- The commitment stays within the channel and its HTLCs within `limit`. -/
structure Within (limit : Nat) (setup : ChannelSetup) (info : CommitmentInfo2) : Prop where
  htlcs : htlcValue info.offeredHtlcs + htlcValue info.receivedHtlcs ≤ limit
  word : info.outputValue < 2 ^ 64
  channel : info.outputValue ≤ setup.channelValueSat
  positive : ∀ h ∈ info.offeredHtlcs ++ info.receivedHtlcs, 0 < h.valueSat

theorem addHtlcs_ok {counted : HTLCInfo2 → Bool} {htlcs : List HTLCInfo2} {balance r : Nat}
    (h : addHtlcs counted balance htlcs = .ok r) :
    r = balance + htlcValue (htlcs.filter counted) := by
  induction htlcs generalizing balance with
  | nil => exact (Except.ok.inj h).symm
  | cons x htlcs ih =>
    unfold addHtlcs at h
    cases hx : counted x with
    | true =>
      rw [hx, if_pos rfl] at h
      split_ifs at h
      rw [ih h, filter_cons_of_pos hx, htlcValue_cons, Nat.add_assoc]
    | false =>
      rw [hx, if_neg Bool.false_ne_true] at h
      rw [ih h, filter_cons_of_neg (by simp [hx])]

section Within

variable {o : Overflow} {limit : Nat} {setup : ChannelSetup} {info : CommitmentInfo2}
  {known : PaymentHash → Bool} {hash : PaymentHash}

theorem Within.totalValue_ok (hw : info.Within limit setup) {r : Nat}
    (h : info.totalValue o = .ok r) : r = info.outputValue := by
  have hword := hw.word
  unfold outputValue at hword ⊢
  obtain ⟨parties, hparties, h⟩ := bind_ok h
  obtain ⟨offered, hoffered, h⟩ := bind_ok h
  obtain ⟨withOffered, hwith, h⟩ := bind_ok h
  obtain ⟨received, hreceived, h⟩ := bind_ok h
  change o.u64 (htlcValue info.offeredHtlcs) = _ at hoffered
  change o.u64 (htlcValue info.receivedHtlcs) = _ at hreceived
  rw [eq_of_u64 hparties (.inr (by omega)), eq_of_u64 hoffered (.inr (by omega))]
    at hwith
  rw [eq_of_u64 hwith (.inr (by omega)), eq_of_u64 hreceived (.inr (by omega))]
    at h
  exact eq_of_u64 h (.inr (by omega))

theorem Within.ownBalance_ok (hw : info.Within limit setup) {r : Nat}
    (h : info.ownBalance o setup.isOutbound setup.channelValueSat = .ok r) :
    r = info.ownValue setup := by
  unfold ownBalance at h
  unfold ownValue
  cases hout : setup.isOutbound with
  | false =>
    rw [hout, if_neg Bool.false_ne_true] at h
    rw [← Except.ok.inj h, if_neg Bool.false_ne_true, Nat.add_zero]
  | true =>
    rw [hout, if_pos rfl] at h
    obtain ⟨total, htotal, h⟩ := bind_ok h
    obtain ⟨fee, hfee, h⟩ := bind_ok h
    rw [hw.totalValue_ok htotal, expect_eq_ok, if_pos hw.channel, some.injEq] at hfee
    rw [expect_eq_ok] at h
    split_ifs at h
    rw [some.injEq] at h
    rw [if_pos rfl, hfee, h]

/-- The balance the signer computes is the claimable one. -/
theorem Within.claimableBalance_ok (hw : info.Within limit setup) {r : Nat}
    (h : info.claimableBalance o known setup.isOutbound setup.channelValueSat = .ok r) :
    r = info.claimable known setup := by
  obtain ⟨own, hown, h⟩ := bind_ok h
  obtain ⟨balance, hbalance, h⟩ := bind_ok h
  rw [addHtlcs_ok h, addHtlcs_ok hbalance, hw.ownBalance_ok hown]
  rfl

/-- Learning a preimage moves the HTLCs of its payment to their recipient. -/
theorem claimable_learn (hnew : known hash = false) :
    info.claimable (learn known hash) setup + valueFor hash info.holderOffered =
      info.claimable known setup + valueFor hash info.holderReceived := by
  have hoffered := valueOf_not_learn hnew info.holderOffered
  have hreceived := valueOf_learn hnew info.holderReceived
  unfold claimable
  omega

end Within

end CommitmentInfo2

/-! ## Summaries -/

namespace EnforcementState

variable {htlcs : List HTLCInfo2} {t : Summary}

/-- An HTLC whose payment's sum fits is added to the entry of its payment. -/
theorem summarizeFrom_cons_eq (o : Overflow) {x : HTLCInfo2}
    (hfit : t.amount x.paymentHash + x.valueSat < 2 ^ 64) : summarizeFrom o t (x :: htlcs) =
      summarizeFrom o (t.insert x.paymentHash (t.amount x.paymentHash + x.valueSat)) htlcs := by
  rw [amount] at hfit ⊢
  rw [summarizeFrom]
  cases hlookup : t.lookup x.paymentHash with
  | some e =>
    rw [hlookup, getD_some] at hfit
    change (o.u64 (e + x.valueSat) >>= fun sum => _) = _
    rw [u64_of_lt o hfit]
    rfl
  | none => rw [getD_none, Nat.zero_add]

/-- Sums that fit are added, payment by payment. -/
theorem exists_summarizeFrom (o : Overflow)
    (hfit : ∀ hash, t.amount hash + valueFor hash htlcs < 2 ^ 64) :
    ∃ r, summarizeFrom o t htlcs = .ok r ∧
      ∀ hash, r.amount hash = t.amount hash + valueFor hash htlcs := by
  induction htlcs generalizing t with
  | nil => exact ⟨t, rfl, fun _ => rfl⟩
  | cons x htlcs ih =>
    have hx := hfit x.paymentHash
    rw [valueFor_cons, if_pos rfl] at hx
    have hinsert (k : PaymentHash) :
        amount (t.insert x.paymentHash (t.amount x.paymentHash + x.valueSat)) k +
          valueFor k htlcs = t.amount k + valueFor k (x :: htlcs) := by
      rw [amount_insert, valueFor_cons]
      by_cases hk : k = x.paymentHash
      · rw [if_pos hk, if_pos hk.symm, hk, Nat.add_assoc]
      · rw [if_neg hk, if_neg (Ne.symm hk), Nat.zero_add]
    rw [summarizeFrom_cons_eq o (by omega)]
    obtain ⟨r, hr, hamount⟩ := ih fun k => hinsert k ▸ hfit k
    exact ⟨r, hr, fun k => (hamount k).trans (hinsert k)⟩

theorem mem_summarizeFrom {o : Overflow} {t r : Summary} (h : summarizeFrom o t htlcs = .ok r)
    {hash : PaymentHash} : hash ∈ r ↔ hash ∈ t ∨ hash ∈ htlcs.map (·.paymentHash) := by
  induction htlcs generalizing t with
  | nil =>
    rw [← Except.ok.inj h]
    simp
  | cons x htlcs ih =>
    have hinsert : ∃ n, summarizeFrom o (t.insert x.paymentHash n) htlcs = .ok r := by
      unfold summarizeFrom at h
      cases hlookup : t.lookup x.paymentHash with
      | some e =>
        rw [hlookup] at h
        obtain ⟨sum, -, h⟩ := bind_ok h
        exact ⟨sum, h⟩
      | none =>
        rw [hlookup] at h
        exact ⟨_, h⟩
    obtain ⟨n, h⟩ := hinsert
    rw [ih h, mem_insert, map_cons, mem_cons]
    tauto

section SummarizeOpt

variable {o : Overflow} {htlcs : CommitmentInfo2 → List HTLCInfo2} {tx : Option CommitmentInfo2}
  {r : Summary}

/-- The HTLCs of a commitment are summarized when the sums of their payments fit. -/
theorem exists_summarizeOpt (hfit : ∀ hash, valueFor hash (htlcsOpt htlcs tx) < 2 ^ 64) :
    ∃ r, summarizeOpt o htlcs tx = .ok r ∧
      ∀ hash, r.amount hash = valueFor hash (htlcsOpt htlcs tx) := by
  cases tx with
  | none => exact ⟨∅, rfl, fun _ => rfl⟩
  | some tx =>
    obtain ⟨r, hr, hamount⟩ : ∃ r, summarizeFrom o ∅ (htlcs tx) = .ok r ∧ _ :=
      exists_summarizeFrom o fun hash => by
        rw [amount_empty, Nat.zero_add]
        exact hfit hash
    refine ⟨r, hr, fun hash => ?_⟩
    rw [hamount, amount_empty, Nat.zero_add]
    rfl

theorem amount_summarizeOpt (h : summarizeOpt o htlcs tx = .ok r)
    (hfit : ∀ hash, valueFor hash (htlcsOpt htlcs tx) < 2 ^ 64) (hash : PaymentHash) :
    r.amount hash = valueFor hash (htlcsOpt htlcs tx) := by
  obtain ⟨r', hr', hamount⟩ := exists_summarizeOpt (o := o) hfit
  obtain rfl := Except.ok.inj (h.symm.trans hr')
  exact hamount hash

/-- The summary of a commitment's HTLCs has their payments and no others. -/
theorem mem_summarizeOpt (h : summarizeOpt o htlcs tx = .ok r) {hash : PaymentHash} :
    hash ∈ r ↔ hash ∈ (htlcsOpt htlcs tx).map (·.paymentHash) := by
  cases tx with
  | none =>
    rw [← Except.ok.inj h]
    simp [htlcsOpt]
  | some tx => exact (mem_summarizeFrom h).trans (or_iff_right (notMem_empty hash))

end SummarizeOpt

theorem lookup_orZero (t : Summary) (htlcs : List HTLCInfo2) (hash : PaymentHash) :
    (orZero t htlcs).lookup hash =
      if hash ∈ htlcs.map (·.paymentHash) then some (t.amount hash) else t.lookup hash := by
  unfold orZero
  refine lookup_foldl (·.paymentHash) (f := fun _ x => some (x.getD 0)) (fun t x a => ?_)
    (fun _ _ => rfl) htlcs t hash
  by_cases hx : x.paymentHash ∈ t
  · rw [if_pos hx]
    split_ifs with ha
    · obtain ⟨b, hb⟩ := isSome_iff_exists.mp (lookup_isSome.mpr (ha ▸ hx))
      rw [hb]
      rfl
    · rfl
  · rw [if_neg hx, lookup_insert_eq]
    split_ifs with ha
    · rw [ha, lookup_eq_none.mpr hx]
      rfl
    · rfl

@[simp] theorem amount_orZero (t : Summary) (htlcs : List HTLCInfo2) (hash : PaymentHash) :
    (orZero t htlcs).amount hash = t.amount hash := by
  rw [amount, lookup_orZero]
  split_ifs
  · rfl
  · rfl

theorem mem_orZero {hash : PaymentHash} :
    hash ∈ orZero t htlcs ↔ hash ∈ t ∨ hash ∈ htlcs.map (·.paymentHash) := by
  rw [← lookup_isSome, lookup_orZero, ← lookup_isSome]
  split_ifs with h <;> simp [h]

end EnforcementState

/-! ## The commitments of a channel -/

/-- The current commitments of a channel. -/
structure Commitments where
  holder : Option CommitmentInfo2
  counterparty : Option CommitmentInfo2
  deriving DecidableEq

/-- The current commitments of the state. -/
def EnforcementState.commitments (e : EnforcementState) : Commitments :=
  ⟨e.currentHolderCommitInfo, e.currentCounterpartyCommitInfo⟩

namespace Commitments

open EnforcementState

/-- The commitments with new ones in place of the current ones. -/
def replace (c : Commitments) (newHolderTx newCounterpartyTx : Option CommitmentInfo2) :
    Commitments :=
  ⟨newHolderTx.or c.holder, newCounterpartyTx.or c.counterparty⟩

/-- What goes out for a payment: the larger of the two commitments' sums. -/
def outgoing (c : Commitments) (hash : PaymentHash) : Nat :=
  max (valueFor hash (htlcsOpt (·.offeredHtlcs) c.holder))
    (valueFor hash (htlcsOpt (·.receivedHtlcs) c.counterparty))

/-- What comes in for a payment: the smaller of the two commitments' sums. -/
def incoming (c : Commitments) (hash : PaymentHash) : Nat :=
  min (valueFor hash (htlcsOpt (·.receivedHtlcs) c.holder))
    (valueFor hash (htlcsOpt (·.offeredHtlcs) c.counterparty))

/-- The HTLCs that go out under either commitment. -/
def outgoingHtlcs (c : Commitments) : List HTLCInfo2 :=
  htlcsOpt (·.offeredHtlcs) c.holder ++ htlcsOpt (·.receivedHtlcs) c.counterparty

/-- The HTLCs that come in under either commitment. -/
def incomingHtlcs (c : Commitments) : List HTLCInfo2 :=
  htlcsOpt (·.receivedHtlcs) c.holder ++ htlcsOpt (·.offeredHtlcs) c.counterparty

/-- Both commitments have an HTLC that comes in for the payment. -/
def ComesInTwice (c : Commitments) (hash : PaymentHash) : Prop :=
  hash ∈ (htlcsOpt (·.receivedHtlcs) c.holder).map (·.paymentHash) ∧
    hash ∈ (htlcsOpt (·.offeredHtlcs) c.counterparty).map (·.paymentHash)

variable {hash : PaymentHash}

theorem ComesInTwice.mem_incomingHtlcs {c : Commitments} (h : c.ComesInTwice hash) :
    hash ∈ c.incomingHtlcs.map (·.paymentHash) := by
  rw [incomingHtlcs, map_append]
  exact mem_append_left _ h.1

theorem outgoing_eq_zero {c : Commitments} (h : hash ∉ c.outgoingHtlcs.map (·.paymentHash)) :
    c.outgoing hash = 0 := by
  rw [outgoingHtlcs, map_append, mem_append, not_or] at h
  rw [outgoing, valueFor_eq_zero h.1, valueFor_eq_zero h.2, Nat.max_self]

theorem incoming_eq_zero {c : Commitments} (h : hash ∉ c.incomingHtlcs.map (·.paymentHash)) :
    c.incoming hash = 0 := by
  rw [incomingHtlcs, map_append, mem_append, not_or] at h
  rw [incoming, valueFor_eq_zero h.1, Nat.zero_min]

/-- What the holder can claim whichever commitment is broadcast, `initial` before there is one. -/
def claimable (known : PaymentHash → Bool) (setup : ChannelSetup) (initial : Nat)
    (c : Commitments) : Nat :=
  (minOpt (c.holder.map (·.claimable known setup))
    (c.counterparty.map (·.claimable known setup))).getD initial

/-- The HTLCs that the broadcaster of one of the commitments offers or receives. -/
def htlcs (c : Commitments) : (isHolder offered : Bool) → List HTLCInfo2
  | true, true => htlcsOpt (·.offeredHtlcs) c.holder
  | true, false => htlcsOpt (·.receivedHtlcs) c.holder
  | false, true => htlcsOpt (·.offeredHtlcs) c.counterparty
  | false, false => htlcsOpt (·.receivedHtlcs) c.counterparty

/-- The sums of the HTLCs for each payment fit in a word. -/
def Fits (c : Commitments) : Prop :=
  ∀ hash isHolder offered, valueFor hash (c.htlcs isHolder offered) < 2 ^ 64

/-- Each commitment is of its side, within the channel and within the limit on HTLCs. -/
structure Within (limit : Nat) (setup : ChannelSetup) (c : Commitments) : Prop where
  holder : ∀ info, c.holder = some info →
    info.isCounterpartyBroadcaster = false ∧ info.Within limit setup
  counterparty : ∀ info, c.counterparty = some info →
    info.isCounterpartyBroadcaster = true ∧ info.Within limit setup

theorem within_none (limit : Nat) (setup : ChannelSetup) : Within limit setup ⟨none, none⟩ :=
  ⟨(fun _ h => nomatch h), (fun _ h => nomatch h)⟩

namespace Within

variable {limit : Nat} {setup : ChannelSetup} {c : Commitments}

variable (hw : c.Within limit setup)

include hw

/-- The HTLC lists of both commitments stay within the limit and fit in a word. -/
theorem lists {htlcs : CommitmentInfo2 → List HTLCInfo2}
    (hhtlcs : htlcs = (·.offeredHtlcs) ∨ htlcs = (·.receivedHtlcs)) :
    (htlcValue (htlcsOpt htlcs c.holder) ≤ limit ∧
      htlcValue (htlcsOpt htlcs c.holder) < 2 ^ 64) ∧
    htlcValue (htlcsOpt htlcs c.counterparty) ≤ limit ∧
      htlcValue (htlcsOpt htlcs c.counterparty) < 2 ^ 64 := by
  have hone {tx : Option CommitmentInfo2} (htx : ∀ info, tx = some info → info.Within limit setup) :
      htlcValue (htlcsOpt htlcs tx) ≤ limit ∧ htlcValue (htlcsOpt htlcs tx) < 2 ^ 64 := by
    cases tx with
    | none => exact ⟨Nat.zero_le _, Nat.two_pow_pos 64⟩
    | some info =>
      have hwi := htx info rfl
      have hword := hwi.word
      have hlimit := hwi.htlcs
      unfold outputValue at hword
      rcases hhtlcs with rfl | rfl
      · exact ⟨by change htlcValue info.offeredHtlcs ≤ _; omega,
          by change htlcValue info.offeredHtlcs < _; omega⟩
      · exact ⟨by change htlcValue info.receivedHtlcs ≤ _; omega,
          by change htlcValue info.receivedHtlcs < _; omega⟩
  exact ⟨hone fun info h => (hw.holder info h).2, hone fun info h => (hw.counterparty info h).2⟩

theorem fits : c.Fits := by
  intro hash isHolder offered
  refine (valueFor_le hash _).trans_lt ?_
  cases isHolder <;> cases offered
  exacts [(hw.lists (.inr rfl)).2.2, (hw.lists (.inl rfl)).2.2, (hw.lists (.inr rfl)).1.2,
    (hw.lists (.inl rfl)).1.2]

theorem outgoing_le (hash : PaymentHash) : c.outgoing hash ≤ limit :=
  max_le ((valueFor_le hash _).trans (hw.lists (.inl rfl)).1.1)
    ((valueFor_le hash _).trans (hw.lists (.inr rfl)).2.1)

/-- Where nothing goes out for a payment there is no HTLC that would. -/
theorem notMem_outgoingHtlcs {hash : PaymentHash} (h : c.outgoing hash = 0) :
    hash ∉ c.outgoingHtlcs.map (·.paymentHash) := by
  obtain ⟨hholder, hcounterparty⟩ := Nat.max_eq_zero_iff.mp h
  have hone {tx : Option CommitmentInfo2} {htlcs : CommitmentInfo2 → List HTLCInfo2}
      (hpos : ∀ info, tx = some info → ∀ x ∈ htlcs info, 0 < x.valueSat)
      (hzero : valueFor hash (htlcsOpt htlcs tx) = 0) :
      hash ∉ (htlcsOpt htlcs tx).map (·.paymentHash) := by
    refine notMem_of_valueFor_eq_zero ?_ hzero
    cases tx with
    | none => exact fun _ hx => absurd hx not_mem_nil
    | some info => exact hpos info rfl
  rw [outgoingHtlcs, map_append, mem_append, not_or]
  constructor
  · exact hone (fun info hc x hx => (hw.holder info hc).2.positive x
      (mem_append_left _ hx)) hholder
  · exact hone (fun info hc x hx => (hw.counterparty info hc).2.positive x
      (mem_append_right _ hx)) hcounterparty

/-- Learning a preimage moves at least what comes in less what goes out to the holder. -/
theorem claimable_learn {known : PaymentHash → Bool} {hash : PaymentHash}
    (hnew : known hash = false) (initial : Nat) :
    c.claimable known setup initial + c.incoming hash ≤
      c.claimable (learn known hash) setup initial + c.outgoing hash := by
  obtain ⟨holder, counterparty⟩ := c
  unfold claimable incoming outgoing
  have hholder (info : CommitmentInfo2) (h : holder = some info) :
      info.claimable (learn known hash) setup + valueFor hash info.offeredHtlcs =
        info.claimable known setup + valueFor hash info.receivedHtlcs := by
    have : info.claimable (learn known hash) setup + _ = _ := claimable_learn hnew
    rwa [holderOffered, holderReceived,
      (hw.holder info h).1] at this
  have hcounterparty (info : CommitmentInfo2) (h : counterparty = some info) :
      info.claimable (learn known hash) setup + valueFor hash info.receivedHtlcs =
        info.claimable known setup + valueFor hash info.offeredHtlcs := by
    have : info.claimable (learn known hash) setup + _ = _ := claimable_learn hnew
    rwa [holderOffered, holderReceived,
      (hw.counterparty info h).1] at this
  cases holder with
  | none =>
    cases counterparty with
    | none => exact le_rfl
    | some cp =>
      have := hcounterparty cp rfl
      simp only [map_none, map_some, minOpt, getD_some, htlcsOpt, valueFor_nil]
      omega
  | some h =>
    have := hholder h rfl
    cases counterparty with
    | none =>
      simp only [map_none, map_some, minOpt, getD_some, htlcsOpt, valueFor_nil]
      omega
    | some cp =>
      have := hcounterparty cp rfl
      simp only [map_some, minOpt, getD_some, htlcsOpt]
      omega

end Within

end Commitments

namespace EnforcementState

variable {o : Overflow} {e : EnforcementState} {limit : Nat} {setup : ChannelSetup}
  {newHolderTx newCounterpartyTx : Option CommitmentInfo2} {summary : Summary}
  {known : PaymentHash → Bool}

theorem lookup_raiseTo (t u : Summary) (hash : PaymentHash) :
    (u.entries.foldl raiseTo t).lookup hash =
      (u.lookup hash).elim (t.lookup hash) fun b => some (max (t.amount hash) b) := by
  rw [lookup_foldl_entries (f := fun x b => some (max (x.getD 0) b))]
  · cases u.lookup hash <;> rfl
  · intro t entry a
    unfold raiseTo
    cases ht : t.lookup entry.1 with
    | none =>
      rw [lookup_insert_eq]
      split_ifs with ha
      · rw [ha, ht, getD_none, Nat.zero_max]
      · rfl
    | some v =>
      rw [lookup_insert_eq]
      split_ifs with ha
      · rw [ha, ht]
        rfl
      · rfl

theorem amount_raiseTo (t u : Summary) (hash : PaymentHash) :
    amount (u.entries.foldl raiseTo t) hash = max (t.amount hash) (u.amount hash) := by
  rw [amount, lookup_raiseTo, amount, amount]
  cases u.lookup hash with
  | none => simp
  | some b => rfl

theorem lookup_lowerTo (t u : Summary) (hash : PaymentHash) :
    (u.entries.foldl lowerTo (t.retain fun k _ => k ∈ u)).lookup hash =
      (u.lookup hash).bind fun b => (t.lookup hash).map (min · b) := by
  rw [lookup_foldl_entries (f := fun x b => x.map (min · b)), lookup_retain]
  · cases hu : u.lookup hash with
    | none => simp [lookup_eq_none.mp hu]
    | some b =>
      have hmem : hash ∈ u := lookup_isSome.mp (isSome_iff_exists.mpr ⟨b, hu⟩)
      cases t.lookup hash <;> simp [hmem, Option.filter]
  · intro t entry a
    unfold lowerTo
    cases ht : t.lookup entry.1 with
    | none =>
      simp only
      split_ifs with ha
      · rw [ha, ht]
        rfl
      · rfl
    | some v =>
      rw [lookup_insert_eq]
      split_ifs with ha
      · rw [ha, ht]
        rfl
      · rfl

theorem amount_lowerTo (t u : Summary) (hash : PaymentHash) :
    amount (u.entries.foldl lowerTo (t.retain fun k _ => k ∈ u)) hash =
      min (t.amount hash) (u.amount hash) := by
  rw [amount, lookup_lowerTo, amount, amount]
  cases u.lookup hash with
  | none => simp
  | some b => cases t.lookup hash <;> simp

/-- The summary of outgoing payments has an entry for each payment that goes out under the current
or the new commitments, and holds what goes out under the new ones. -/
theorem paymentsSummary_ok (h : e.paymentsSummary o newHolderTx newCounterpartyTx = .ok summary)
    (hash : PaymentHash) :
    (hash ∈ summary ↔ hash ∈ e.commitments.outgoingHtlcs.map (·.paymentHash) ∨
      hash ∈ (e.commitments.replace newHolderTx newCounterpartyTx).outgoingHtlcs.map
        (·.paymentHash)) ∧
    ((e.commitments.replace newHolderTx newCounterpartyTx).Fits → summary.amount hash =
      (e.commitments.replace newHolderTx newCounterpartyTx).outgoing hash) := by
  obtain ⟨holder, hholder, h⟩ := bind_ok h
  obtain ⟨counterparty, hcounterparty, h⟩ := bind_ok h
  cases h
  constructor
  · have hmerged : hash ∈ counterparty.entries.foldl raiseTo holder ↔
        hash ∈ holder ∨ hash ∈ counterparty := by
      rw [← lookup_isSome, lookup_raiseTo, ← lookup_isSome, ← lookup_isSome]
      cases counterparty.lookup hash <;> simp
    rw [mem_orZero, mem_orZero, hmerged, mem_summarizeOpt hholder, mem_summarizeOpt hcounterparty]
    simp only [Commitments.outgoingHtlcs, Commitments.replace, commitments, map_append,
      mem_append]
    tauto
  · intro hfits
    rw [amount_orZero, amount_orZero, amount_raiseTo,
      amount_summarizeOpt hholder (hfits · true true),
      amount_summarizeOpt hcounterparty (hfits · false false)]
    rfl

/-- The summary of incoming payments has an entry for each payment that comes in under a current
commitment or under both new ones, and holds what comes in under the new ones. -/
theorem incomingPaymentsSummary_ok
    (h : e.incomingPaymentsSummary o newHolderTx newCounterpartyTx = .ok summary)
    (hash : PaymentHash) :
    (hash ∈ summary ↔ hash ∈ e.commitments.incomingHtlcs.map (·.paymentHash) ∨
      (e.commitments.replace newHolderTx newCounterpartyTx).ComesInTwice hash) ∧
    ((e.commitments.replace newHolderTx newCounterpartyTx).Fits → summary.amount hash =
      (e.commitments.replace newHolderTx newCounterpartyTx).incoming hash) := by
  obtain ⟨holder, hholder, h⟩ := bind_ok h
  obtain ⟨counterparty, hcounterparty, h⟩ := bind_ok h
  cases h
  constructor
  · have hmerged : hash ∈ counterparty.entries.foldl lowerTo
        (holder.retain fun k _ => k ∈ counterparty) ↔ hash ∈ holder ∧ hash ∈ counterparty := by
      rw [← lookup_isSome, lookup_lowerTo, ← lookup_isSome, ← lookup_isSome]
      cases counterparty.lookup hash <;> simp
    rw [mem_orZero, mem_orZero, hmerged, mem_summarizeOpt hholder, mem_summarizeOpt hcounterparty,
      Commitments.incomingHtlcs, map_append, mem_append, Commitments.ComesInTwice]
    simp only [Commitments.replace, commitments]
    tauto
  · intro hfits
    rw [amount_orZero, amount_orZero, amount_lowerTo,
      amount_summarizeOpt hholder (hfits · true false),
      amount_summarizeOpt hcounterparty (hfits · false true)]
    rfl

theorem claimableOpt_ok {tx : Option CommitmentInfo2} {r : Option Nat}
    (hw : ∀ info, tx = some info → info.Within limit setup)
    (h : claimableOpt o known setup tx = .ok r) : r = tx.map (·.claimable known setup) := by
  cases tx with
  | none => exact (Except.ok.inj h).symm
  | some info =>
    obtain ⟨balance, hbalance, h⟩ := bind_ok h
    rw [← pure_eq_ok.mp h, (hw info rfl).claimableBalance_ok hbalance]
    rfl

/-- The balances before and after an update are what the holder can claim then. -/
theorem claimableBalances_ok {delta : BalanceDelta} (hw : e.commitments.Within limit setup)
    (hw' : (e.commitments.replace newHolderTx newCounterpartyTx).Within limit setup)
    (h : e.claimableBalances o known newHolderTx newCounterpartyTx setup = .ok delta) :
    delta.current = e.commitments.claimable known setup e.initialHolderValue ∧
      delta.new = (e.commitments.replace newHolderTx newCounterpartyTx).claimable known setup
        e.initialHolderValue := by
  obtain ⟨u, -, h⟩ := bind_ok h
  obtain ⟨u, -, h⟩ := bind_ok h
  obtain ⟨curHolder, hcurHolder, h⟩ := bind_ok h
  obtain ⟨curCp, hcurCp, h⟩ := bind_ok h
  obtain ⟨newHolder, hnewHolder, h⟩ := bind_ok h
  obtain ⟨newCp, hnewCp, h⟩ := bind_ok h
  obtain ⟨newBal, hnewBal, h⟩ := bind_ok h
  cases h
  rw [expect_eq_ok] at hnewBal
  rw [claimableOpt_ok (fun info hi => (hw'.holder info hi).2) hnewHolder,
    claimableOpt_ok (fun info hi => (hw'.counterparty info hi).2) hnewCp] at hnewBal
  refine ⟨?_, ?_⟩
  · rw [claimableOpt_ok (fun info hi => (hw.holder info hi).2) hcurHolder,
      claimableOpt_ok (fun info hi => (hw.counterparty info hi).2) hcurCp]
    rfl
  · rw [Commitments.claimable, hnewBal]
    rfl

end EnforcementState

end ValidatingSigner
