import Vls.Node.State
import Vls.Policy.SimpleValidator

/-!
# What a commitment update does to the ledger

An accepted update writes the amounts of one channel for every payment it touches, moves the excess
by the change of the balance, and marks the issued invoices it pays.  The checks before it bound the
totals that the ledger will hold.
-/

namespace ValidatingSigner

open Base Overflow Table Option

namespace RoutedPayment

theorem apply_apply (p : RoutedPayment) (channelId : ChannelId) (incoming outgoing : Nat) :
    (p.apply channelId incoming outgoing).apply channelId incoming outgoing =
      p.apply channelId incoming outgoing := by
  simp only [apply, AList.insert_insert]

/-- The totals the signer computes are at most the exact ones, and equal to them where they fit. -/
theorem incomingOutgoing_ok {o : Overflow} {p : RoutedPayment} {incoming outgoing : Nat}
    (h : p.incomingOutgoing o = .ok (incoming, outgoing)) :
    (incoming ≤ p.incoming.total ∧
      (o = .checked ∨ p.incoming.total < 2 ^ 64 → incoming = p.incoming.total)) ∧
    (o = .checked ∨ p.outgoing.total < 2 ^ 64 → outgoing = p.outgoing.total) := by
  obtain ⟨i, hi, h⟩ := bind_ok h
  obtain ⟨j, hj, h⟩ := bind_ok h
  obtain ⟨rfl, rfl⟩ := Prod.mk.inj (pure_eq_ok.mp h)
  exact ⟨⟨le_of_u64 hi, eq_of_u64 hi⟩, eq_of_u64 hj⟩

end RoutedPayment

namespace NodeState

/-- The payment recorded for a hash, or one with nothing in flight. -/
def payment (s : NodeState) (hash : PaymentHash) : RoutedPayment :=
  (s.payments.lookup hash).getD .new

theorem hasPreimage_eq (s : NodeState) (hash : PaymentHash) :
    s.hasPreimage hash = (s.payment hash).isFulfilled := by
  unfold hasPreimage payment
  cases s.payments.lookup hash <;> rfl

/-! ## Tables of payments -/

theorem lookup_withEntries (payments : Table PaymentHash RoutedPayment) (hashes : List PaymentHash)
    (hash : PaymentHash) :
    (withEntries payments hashes).lookup hash =
      if hash ∈ hashes then some ((payments.lookup hash).getD .new) else payments.lookup hash := by
  unfold withEntries
  refine (lookup_foldl id (f := fun _ x => some (x.getD .new)) (fun t h a => ?_)
    (fun _ _ => rfl) hashes payments hash).trans ?_
  · by_cases hmem : h ∈ t
    · simp only [if_pos hmem, id_eq]
      split_ifs with ha
      · obtain ⟨p, hp⟩ := isSome_iff_exists.mp (AList.lookup_isSome.mpr (ha ▸ hmem))
        rw [hp]
        rfl
      · rfl
    · simp only [if_neg hmem, id_eq, lookup_insert_eq]
      split_ifs with ha
      · rw [ha, AList.lookup_eq_none.mpr hmem]
        rfl
      · rfl
  · rw [List.map_id]

theorem lookup_modifyPayment (payments : Table PaymentHash RoutedPayment) (hash a : PaymentHash)
    (f : RoutedPayment → RoutedPayment) :
    (modifyPayment payments hash f).lookup a =
      if a = hash then (payments.lookup a).map f else payments.lookup a := by
  unfold modifyPayment
  cases hp : payments.lookup hash with
  | none =>
    simp only
    split_ifs with ha
    · rw [ha, hp]
      rfl
    · rfl
  | some p =>
    simp only [lookup_insert_eq]
    split_ifs with ha
    · rw [ha, hp]
      rfl
    · rfl

/-- Changing the entries of some hashes in a way that repetition does not change. -/
theorem lookup_foldl_modifyPayment {f : PaymentHash → RoutedPayment → RoutedPayment}
    (hf : ∀ h p, f h (f h p) = f h p) (hashes : List PaymentHash)
    (payments : Table PaymentHash RoutedPayment) (hash : PaymentHash) :
    (hashes.foldl (fun t h => modifyPayment t h (f h)) payments).lookup hash =
      if hash ∈ hashes then (payments.lookup hash).map (f hash) else payments.lookup hash := by
  refine (lookup_foldl id (f := fun h x => x.map (f h)) (fun t h a => ?_) (fun a x => ?_)
    hashes payments hash).trans ?_
  · rw [lookup_modifyPayment, id_eq]
    split_ifs with ha
    · rw [ha]
    · rfl
  · rw [map_map]
    congr 1
    exact funext (hf a)
  · rw [List.map_id]

/-! ## Applied updates -/

section Update

variable {o : Overflow} {v : Validator} {s s' : NodeState} {channelId : ChannelId}
  {incoming outgoing : EnforcementState.Summary} {delta : BalanceDelta} {hash : PaymentHash}

/-- The payment with the amounts that the summaries give for the channel. -/
def updated (s : NodeState) (channelId : ChannelId) (incoming outgoing : EnforcementState.Summary)
    (hash : PaymentHash) : RoutedPayment :=
  (s.payment hash).apply channelId (incoming.amount hash) (outgoing.amount hash)

/-- What an applied update leaves. -/
structure Applied (o : Overflow) (v : Validator) (s : NodeState) (channelId : ChannelId)
    (incoming outgoing : EnforcementState.Summary) (delta : BalanceDelta) (s' : NodeState) :
    Prop where
  invoices : s'.invoices = s.invoices
  issued : s'.issuedInvoices = s.issuedInvoices
  excess : if v.enforceBalance then s'.excessAmount + delta.current = s.excessAmount + delta.new
    else s'.excessAmount = s.excessAmount
  outside : ∀ hash, hash ∉ summaryHashes incoming outgoing →
    s'.payments.lookup hash = s.payments.lookup hash
  inside : ∀ hash ∈ summaryHashes incoming outgoing,
    ∃ paid, paysIssuedInvoice o s channelId incoming outgoing hash (s.payment hash) = .ok paid ∧
      s'.payments.lookup hash = some { s.updated channelId incoming outgoing hash with
        preimage := if v.enforceBalance && paid then some 0 else (s.payment hash).preimage }

theorem adjustedExcess_ok {excess : Nat} (h : adjustedExcess s delta = .ok excess) :
    excess + delta.current = s.excessAmount + delta.new := by
  obtain ⟨sum, hsum, h⟩ := bind_ok h
  rw [expect_eq_ok] at hsum h
  split_ifs at hsum h with hword hle
  cases hsum
  cases h
  omega

theorem settleIssued_ok {payments settled : Table PaymentHash RoutedPayment}
    {paid : List PaymentHash} {excess : Nat}
    (h : settleIssued v s delta payments paid = .ok (excess, settled)) :
    (if v.enforceBalance then excess + delta.current = s.excessAmount + delta.new
      else excess = s.excessAmount) ∧
    ∀ hash, settled.lookup hash =
      if v.enforceBalance ∧ hash ∈ paid then
        (payments.lookup hash).map fun p => { p with preimage := some 0 }
      else payments.lookup hash := by
  unfold settleIssued at h
  cases hbalance : v.enforceBalance with
  | true =>
    rw [hbalance, if_pos rfl] at h
    obtain ⟨excess', hexcess, h⟩ := bind_ok h
    obtain ⟨rfl, rfl⟩ := Prod.mk.inj (pure_eq_ok.mp h)
    refine ⟨adjustedExcess_ok hexcess, fun hash => ?_⟩
    simpa using lookup_foldl_modifyPayment (f := fun _ p => { p with preimage := some 0 })
      (fun _ _ => rfl) paid payments hash
  | false =>
    rw [hbalance, if_neg Bool.false_ne_true] at h
    obtain ⟨rfl, rfl⟩ := Prod.mk.inj (Except.ok.inj h)
    exact ⟨rfl, fun hash => by simp⟩

/-- Applying payments does what `Applied` says. -/
theorem applyPayments_ok (h : applyPayments o v s channelId incoming outgoing delta = .ok s') :
    Applied o v s channelId incoming outgoing delta s' := by
  obtain ⟨flags, hflags, h⟩ := bind_ok h
  obtain ⟨⟨excess, settled⟩, hsettled, h⟩ := bind_ok h
  cases h
  obtain ⟨hexcess, hlookup⟩ := settleIssued_ok hsettled
  have hpaid (hash : PaymentHash) := mem_flagged id hflags (k := hash)
  rw [List.map_id] at hpaid
  have happly (hash : PaymentHash) :=
    lookup_foldl_modifyPayment (f := fun h p =>
      p.apply channelId (incoming.amount h) (outgoing.amount h))
      (fun h p => p.apply_apply channelId _ _) (summaryHashes incoming outgoing) settled hash
  refine ⟨rfl, rfl, hexcess, fun hash hmem => ?_, fun hash hmem => ?_⟩
  · have hnot := mt (fun hp => ((hpaid hash).mp hp).elim fun a ha => ha.2.1 ▸ ha.1) hmem
    exact (happly hash).trans (by
      rw [if_neg hmem, hlookup, if_neg fun hp => hnot hp.2, lookup_withEntries, if_neg hmem])
  · obtain ⟨paid, hpays⟩ := exists_of_mapM hflags hmem
    have hentry : (withEntries s.payments (summaryHashes incoming outgoing)).lookup hash =
        some (s.payment hash) := by
      rw [lookup_withEntries, if_pos hmem]
      rfl
    rw [hentry, getD_some] at hpays
    have hiff : hash ∈ ((((summaryHashes incoming outgoing).zip flags).filter (·.2)).map (·.1)) ↔
        paid = true := by
      rw [hpaid hash]
      constructor
      · rintro ⟨a, -, ha, hflag⟩
        obtain rfl : a = hash := ha
        rw [hentry, getD_some, hpays, Except.ok.injEq] at hflag
        exact hflag
      · rintro rfl
        refine ⟨hash, hmem, rfl, ?_⟩
        rw [hentry, getD_some, hpays]
    refine ⟨paid, hpays, (happly hash).trans ?_⟩
    rw [if_pos hmem, hlookup, hentry]
    by_cases hp : v.enforceBalance = true ∧ paid = true
    · rw [if_pos ⟨hp.1, hiff.mpr hp.2⟩, if_pos (by simpa using hp)]
      rfl
    · rw [if_neg fun h => hp ⟨h.1, hiff.mp h.2⟩, if_neg (by simpa using hp)]
      rfl

namespace Applied

variable (h : Applied o v s channelId incoming outgoing delta s')

include h

theorem amounts_eq (hash : PaymentHash) :
    (s'.payment hash).incoming = (if hash ∈ summaryHashes incoming outgoing then
        (s.payment hash).incoming.insert channelId (incoming.amount hash)
      else (s.payment hash).incoming) ∧
    (s'.payment hash).outgoing = if hash ∈ summaryHashes incoming outgoing then
        (s.payment hash).outgoing.insert channelId (outgoing.amount hash)
      else (s.payment hash).outgoing := by
  by_cases hmem : hash ∈ summaryHashes incoming outgoing
  · obtain ⟨paid, -, hlookup⟩ := h.inside hash hmem
    rw [if_pos hmem, if_pos hmem, payment, hlookup]
    exact ⟨rfl, rfl⟩
  · rw [if_neg hmem, if_neg hmem, payment, h.outside hash hmem]
    exact ⟨rfl, rfl⟩

/-- The preimages known are those known before and some of payments that the update touches. -/
theorem hasPreimage_cases (hash : PaymentHash) :
    s'.hasPreimage hash = s.hasPreimage hash ∨
      (hash ∈ summaryHashes incoming outgoing ∧ s'.hasPreimage hash = true) := by
  by_cases hmem : hash ∈ summaryHashes incoming outgoing
  · obtain ⟨paid, -, hlookup⟩ := h.inside hash hmem
    rw [hasPreimage_eq, hasPreimage_eq, payment, hlookup, getD_some]
    unfold RoutedPayment.isFulfilled
    split_ifs
    · exact .inr ⟨hmem, rfl⟩
    · exact .inl rfl
  · left
    rw [hasPreimage_eq, hasPreimage_eq, payment, h.outside hash hmem]
    rfl

/-- Without balance enforcement an update marks nothing. -/
theorem hasPreimage_eq_of_not_enforced (hbalance : v.enforceBalance = false) (hash : PaymentHash) :
    s'.hasPreimage hash = s.hasPreimage hash := by
  rw [hasPreimage_eq, hasPreimage_eq]
  by_cases hmem : hash ∈ summaryHashes incoming outgoing
  · obtain ⟨paid, -, hlookup⟩ := h.inside hash hmem
    rw [hbalance, Bool.false_and, if_neg Bool.false_ne_true] at hlookup
    rw [payment, hlookup]
    rfl
  · rw [payment, h.outside hash hmem]
    rfl

theorem mem_payments (hmem : hash ∈ s.payments) : hash ∈ s'.payments := by
  by_cases hin : hash ∈ summaryHashes incoming outgoing
  · obtain ⟨paid, -, hlookup⟩ := h.inside hash hin
    exact AList.lookup_isSome.mp (by rw [hlookup]; rfl)
  · rw [← AList.lookup_isSome, h.outside hash hin]
    exact AList.lookup_isSome.mpr hmem

end Applied

/-! ## Checked updates -/

theorem mem_summaryHashes :
    hash ∈ summaryHashes incoming outgoing ↔ hash ∈ incoming ∨ hash ∈ outgoing := by
  rw [summaryHashes, List.mem_dedup, List.mem_append, ← AList.mem_keys, ← AList.mem_keys]

theorem amounts_of_notMem (h : hash ∉ summaryHashes incoming outgoing) :
    incoming.amount hash = 0 ∧ outgoing.amount hash = 0 := by
  rw [mem_summaryHashes, not_or] at h
  exact ⟨amount_of_notMem h.1, amount_of_notMem h.2⟩

/-- The totals a check sees are at most those of the updated payment, and what goes out is exact
where it fits. -/
theorem updatedTotals_ok {incomingSat outgoingSat : Nat}
    (h : updatedTotals o s channelId incoming outgoing hash = .ok (incomingSat, outgoingSat)) :
    incomingSat ≤ (s.updated channelId incoming outgoing hash).incoming.total ∧
      (o = .checked ∨ (s.updated channelId incoming outgoing hash).outgoing.total < 2 ^ 64 →
        outgoingSat = (s.updated channelId incoming outgoing hash).outgoing.total) := by
  unfold updatedTotals at h
  unfold updated payment
  cases hp : s.payments.lookup hash with
  | some p =>
    rw [hp] at h
    obtain ⟨⟨hin, -⟩, hout⟩ := RoutedPayment.incomingOutgoing_ok h
    exact ⟨hin, hout⟩
  | none =>
    rw [hp] at h
    obtain ⟨rfl, rfl⟩ := Prod.mk.inj (Except.ok.inj h)
    exact ⟨(total_insert_empty channelId _).ge,
      fun _ => (total_insert_empty channelId _).symm⟩

/-- The checks on an update agree when they agree on every payment and on the balance. -/
theorem validatePayments_congr
    (hflags : ∀ hash ∈ summaryHashes incoming outgoing,
      isUnbalanced o v s' channelId incoming outgoing hash =
        isUnbalanced o v s channelId incoming outgoing hash)
    (hbalance : v.enforceBalance = true → s'.excessAmount = s.excessAmount) :
    validatePayments o v s' channelId incoming outgoing delta =
      validatePayments o v s channelId incoming outgoing delta := by
  have hexcess : validateBalance v s' delta = validateBalance v s delta := by
    unfold validateBalance
    by_cases henforce : v.enforceBalance = true
    · rw [if_pos henforce, if_pos henforce, hbalance henforce]
    · rw [if_neg henforce, if_neg henforce]
  have hmap := mapM_congr hflags
  simp only [validatePayments, hexcess, hmap]

/-- A checked update balances every payment it touches. -/
theorem validatePayments_ok (hfilter : v.filter = .default) {u : Unit}
    (h : validatePayments o v s channelId incoming outgoing delta = .ok u)
    (hmem : hash ∈ summaryHashes incoming outgoing) :
    isUnbalanced o v s channelId incoming outgoing hash = .ok false := by
  obtain ⟨flags, hflags, h⟩ := bind_ok h
  obtain ⟨u, hbalanced, -⟩ := bind_ok h
  rw [hfilter, PolicyFilter.default_policyErr_eq_ok, not_not] at hbalanced
  obtain ⟨b, hb⟩ := exists_of_mapM hflags hmem
  cases b with
  | false => exact hb
  | true =>
    have hflag := (mem_flagged id hflags (k := hash)).mpr ⟨hash, hmem, rfl, hb⟩
    rw [List.map_id, hbalanced] at hflag
    exact absurd hflag List.not_mem_nil

/-- A balanced payment that is invoiced, or not recorded yet, sends no more than it receives, is
invoiced for and may pay in fees. -/
theorem balanced_of_not_isUnbalanced {v : SimpleValidator} (hfilter : v.policy.filter = .default)
    (h : isUnbalanced o v.toValidator s channelId incoming outgoing hash = .ok false)
    (hchecked : hash ∈ s.invoices ∨ hash ∉ s.payments)
    (hfit : o = .checked ∨
      (s.updated channelId incoming outgoing hash).outgoing.total * 1000 < 2 ^ 64) :
    (s.updated channelId incoming outgoing hash).outgoing.total * 1000 ≤
      (s.updated channelId incoming outgoing hash).incoming.total * 1000 +
        (s.invoices.lookup hash).elim 0 (·.amountMsat + v.policy.maxRoutingFeeMsat) := by
  obtain ⟨⟨incomingSat, outgoingSat⟩, htotals, h₁⟩ := bind_ok h
  obtain ⟨incomingMsat, hincoming, h₂⟩ := bind_ok h₁
  obtain ⟨outgoingMsat, houtgoing, hmatch⟩ := bind_ok h₂
  obtain ⟨hin, hout⟩ := updatedTotals_ok htotals
  have hlt : ∀ {n : Nat}, n * 1000 < 2 ^ 64 → n < 2 ^ 64 := by omega
  rw [hout (hfit.imp_right hlt)] at houtgoing
  have hin' := le_of_u64 hincoming
  rw [eq_of_u64 houtgoing hfit] at hmatch
  cases hcheck : v.toValidator.validatePaymentBalance incomingMsat
      ((s.updated channelId incoming outgoing hash).outgoing.total * 1000)
      ((s.invoices.lookup hash).map (·.amountMsat)) with
  | ok u =>
    have hle := SimpleValidator.validatePaymentBalance_ok hfilter hcheck
    cases hinv : s.invoices.lookup hash with
    | none =>
      rw [hinv, map_none, elim_none] at hle
      rw [elim_none]
      omega
    | some invoice =>
      rw [hinv, map_some, elim_some] at hle
      rw [elim_some]
      omega
  | error fault =>
    simp only [hcheck] at hmatch
    cases fault with
    | abort m => exact nomatch hmatch
    | refuse e =>
      simp only [Except.ok.injEq, Bool.not_eq_false', Bool.and_eq_true, isNone_iff_eq_none,
        map_eq_none_iff] at hmatch
      rcases hchecked with hmem | hmem
      · exact absurd hmem (AList.lookup_eq_none.mp hmatch.2)
      · exact absurd (AList.lookup_isSome.mp hmatch.1) hmem

/-- An update that pays an issued invoice brings in at least what it sends. -/
theorem paysIssuedInvoice_true {p : RoutedPayment}
    (h : paysIssuedInvoice o s channelId incoming outgoing hash p = .ok true)
    (hfit : o = .checked ∨
      (p.apply channelId (incoming.amount hash) (outgoing.amount hash)).outgoing.total +
        ((s.issuedInvoices.lookup hash).elim 0 (·.amountMsat)) / 1000 < 2 ^ 64) :
    p.isFulfilled = false ∧
      (p.apply channelId (incoming.amount hash) (outgoing.amount hash)).outgoing.total ≤
        (p.apply channelId (incoming.amount hash) (outgoing.amount hash)).incoming.total := by
  unfold paysIssuedInvoice at h
  cases hissued : s.issuedInvoices.lookup hash with
  | none =>
    rw [hissued] at h
    cases h
  | some issued =>
    rw [hissued] at h
    rw [hissued, elim_some] at hfit
    cases hp : p.isFulfilled with
    | true =>
      simp only [hp, if_true] at h
      cases h
    | false =>
      simp only [hp, Bool.false_eq_true, if_false] at h
      obtain ⟨⟨incomingSat, outgoingSat⟩, htotals, h⟩ := bind_ok h
      obtain ⟨needed, hneeded, h⟩ := bind_ok h
      obtain ⟨⟨hin, -⟩, hout⟩ := RoutedPayment.incomingOutgoing_ok htotals
      obtain rfl := hout (hfit.imp_right fun h => by omega)
      rw [eq_of_u64 hneeded hfit] at h
      have hge := of_decide_eq_true (pure_eq_ok.mp h)
      exact ⟨rfl, by omega⟩

end Update

end NodeState

end ValidatingSigner
