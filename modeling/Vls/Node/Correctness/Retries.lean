import Vls.Keys.Steps
import Vls.Node.Steps

/-!
# Retries

A call that is made again finds what an earlier call has recorded, if it gets there: the number of
entries is compared with the maximum first.
-/

namespace ValidatingSigner

open Base Effect NodeState

/-- A call, given by its successes, records something, and a call that finds it recorded succeeds
and changes nothing exactly when there is room. -/
structure Retried {σ : Type} (call : σ → σ → Prop) (recorded room : σ → Prop) : Prop where
  records : ∀ {s s'}, call s s' → recorded s'
  retry : ∀ {s}, recorded s → (call s s ↔ room s)

/-- A channel is found again as long as another one could be made. -/
theorem KeyNode.newChannel_retried {ξ : Type} (N : KeyNode ξ) (channelId : ChannelId)
    (blockheight : Nat) (slot : ChannelSlot) :
    Retried
      (fun s s' => exec (N.newChannel (some channelId) blockheight) s = (.ok (channelId, slot), s'))
      (·.memory.channels.lookup channelId = some slot)
      (·.memory.channels.keys.length < N.maxChannels) where
  records {s s'} h := by
    cases exec_newChannel h with
    | found untouched old =>
      rw [untouched.channels]
      exact old
    | made chosen room new derived state =>
      rw [state]
      exact AList.lookup_insert s.memory.channels
  retry hslot := by
    simp [newChannel, chooseChannelId, exec_lift_bind_iff, refuseIf_eq_ok, hslot, -bind_pure_comp]

namespace NodeState

/-- A payment is approved again as long as there is room for another one. -/
theorem addPayment_retried (o : Overflow) (maxInvoices : Nat) (persistOk : Bool) (now : Nat)
    (hash : PaymentHash) (state : PaymentState) (other : String) :
    Retried (fun (s s' : NodeState) =>
        s.addPayment o maxInvoices persistOk now hash state other = .ok (true, s'))
      (Tracks ·.invoices hash state.invoiceHash) (·.invoices.keys.length < maxInvoices) where
  records {s s'} h := by
    unfold addPayment at h
    split_ifs at h
    cases hknown : s.invoices.lookup hash with
    | some known =>
      simp only [hknown] at h
      split_ifs at h with hsame
      cases h
      exact ⟨known, hknown, hsame⟩
    | none =>
      simp only [hknown] at h
      obtain ⟨⟨fits, control⟩, -, h⟩ := bind_ok h
      cases fits with
      | false => cases h
      | true =>
        obtain ⟨_, -, h⟩ := bind_ok h
        cases h
        exact ⟨state, AList.lookup_insert s.invoices, rfl⟩
  retry {s} htracks := by
    obtain ⟨known, hknown, hsame⟩ := htracks
    rcases Nat.lt_or_ge s.invoices.keys.length maxInvoices with hroom | hmany
    · simp [addPayment, hroom, hknown, hsame]
    · simp [addPayment, hmany]

/-- An invoice is issued again as long as there is room for another one. -/
theorem signInvoice_retried (maxInvoices : Nat) (invoice : Invoice) :
    Retried (fun (s s' : NodeState) => s.signInvoice maxInvoices invoice = .ok s')
      (Tracks ·.issuedInvoices invoice.paymentHash invoice.invoiceHash)
      (·.issuedInvoices.keys.length < maxInvoices) where
  records h := (signInvoice_ok h).2.2.2
  retry {s} htracks := by
    obtain ⟨known, hknown, hsame⟩ := htracks
    rcases Nat.lt_or_ge s.issuedInvoices.keys.length maxInvoices with hroom | hmany
    · simp [signInvoice, hroom, hknown, hsame]
    · simp [signInvoice, hmany]

end NodeState

/-- What a successful call records, a retry finds in every state that has it, with the same answer
and no change, exactly when the number of entries is below the maximum; an invoice to be paid must
also still be valid. -/
theorem retry_answered_iff {ξ : Type} (N : KeyNode ξ) (channelId : ChannelId) (blockheight : Nat)
    (slot : ChannelSlot) (o : Overflow) (v : Validator) (maxInvoices now amountMsat : Nat)
    (persistOk : Bool) (invoice : Invoice) (payee : PublicKey) (paymentHash : PaymentHash) :
    Retried
      (fun s s' => exec (N.newChannel (some channelId) blockheight) s = (.ok (channelId, slot), s'))
      (·.memory.channels.lookup channelId = some slot)
      (·.memory.channels.keys.length < N.maxChannels) ∧
    Retried (fun (s s' : NodeState) =>
        s.addInvoice o v maxInvoices persistOk now invoice = .ok (true, s'))
      (Tracks ·.invoices invoice.paymentHash invoice.invoiceHash)
      (v.validateInvoice invoice now = .ok () ∧ ·.invoices.keys.length < maxInvoices) ∧
    Retried (fun (s s' : NodeState) =>
        s.addKeysend o maxInvoices persistOk now payee paymentHash amountMsat = .ok (true, s'))
      (Tracks ·.invoices paymentHash paymentHash) (·.invoices.keys.length < maxInvoices) ∧
    Retried (fun (s s' : NodeState) => s.signInvoice maxInvoices invoice = .ok s')
      (Tracks ·.issuedInvoices invoice.paymentHash invoice.invoiceHash)
      (·.issuedInvoices.keys.length < maxInvoices) := by
  have hpayment := addPayment_retried o maxInvoices persistOk now invoice.paymentHash
    (paymentStateFromInvoice invoice)
    "add_invoice: already have a different invoice for same payment_hash"
  refine ⟨N.newChannel_retried channelId blockheight slot, ⟨fun h => ?_, fun htracks => ?_⟩,
    addPayment_retried .., signInvoice_retried maxInvoices invoice⟩
  · obtain ⟨_, -, h⟩ := bind_ok h
    exact hpayment.records h
  · rw [addInvoice, bind_eq_ok, ← hpayment.retry htracks]
    exact ⟨fun ⟨_, h⟩ => h, fun h => ⟨(), h⟩⟩

/-- A node that may have one channel. -/
def Keys.Sample.single : KeyNode (List Nat) := { node .native with maxChannels := 1 }

open Sample in
/-- With room for one entry of a kind, the first call succeeds and its retry is refused. -/
theorem retry_refused_at_maximum :
    (∃ answer s, exec (Keys.Sample.single.newChannel (some ⟨[1]⟩) 0) ⟨⟨Keys.Sample.manager, ∅⟩, ∅⟩ =
          (.ok answer, s) ∧
        exec (Keys.Sample.single.newChannel (some ⟨[1]⟩) 0) s =
          (.error (.refuse (failedPrecondition "too many channels (1 >= 1)")), s)) ∧
      (∃ s, node.addInvoice .checked (validator .checked).toValidator 1 true 0 (invoice 5) =
          .ok (true, s) ∧
        s.addInvoice .checked (validator .checked).toValidator 1 true 0 (invoice 5) =
          .error (.refuse (failedPrecondition "too many invoices (1 >= 1)"))) ∧
      (∃ s, node.addKeysend .checked 1 true 0 ⟨5⟩ 0 5 = .ok (true, s) ∧
        s.addKeysend .checked 1 true 0 ⟨5⟩ 0 5 =
          .error (.refuse (failedPrecondition "too many invoices (1 >= 1)"))) ∧
      ∃ s, node.signInvoice 1 (invoice 5) = .ok s ∧ s.signInvoice 1 (invoice 5) =
        .error (.refuse (failedPrecondition "too many invoices 1 (max 1)")) := by
  exact ⟨⟨_, _, rfl, rfl⟩, ⟨_, rfl, rfl⟩, ⟨_, rfl, rfl⟩, _, rfl, rfl⟩

end ValidatingSigner
