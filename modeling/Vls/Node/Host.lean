import Vls.Node.Restore
import Vls.Node.Steps

/-!
# A node that restarts

A host runs a node over what the node has stored.  The process may end at any point, by an abort or
by a restart, and a restart rebuilds the node from what is stored.  The entry of a node is written
when a payment is approved and, for a composite store, at a restart; channels store their state on
their own.
-/

namespace ValidatingSigner

open Base EnforcementState

/-! ## Commitments that can be summed up -/

/-- The HTLCs of both commitments can be summed up for each payment. -/
structure Commitments.Summable (o : Overflow) (c : Commitments) : Prop where
  holderOffered : ∃ r, summarizeOpt o (·.offeredHtlcs) c.holder = .ok r
  holderReceived : ∃ r, summarizeOpt o (·.receivedHtlcs) c.holder = .ok r
  counterpartyOffered : ∃ r, summarizeOpt o (·.offeredHtlcs) c.counterparty = .ok r
  counterpartyReceived : ∃ r, summarizeOpt o (·.receivedHtlcs) c.counterparty = .ok r

theorem Commitments.summable_none (o : Overflow) : Summable o ⟨none, none⟩ :=
  ⟨⟨∅, rfl⟩, ⟨∅, rfl⟩, ⟨∅, rfl⟩, ⟨∅, rfl⟩⟩

namespace EnforcementState

variable {o : Overflow} {e : EnforcementState}
  {newHolderTx newCounterpartyTx : Option CommitmentInfo2}

/-- New commitments whose payments have been summed up can be summed up. -/
theorem summable_of_summaries {incoming outgoing : Summary}
    (hincoming : e.incomingPaymentsSummary o newHolderTx newCounterpartyTx = .ok incoming)
    (houtgoing : e.paymentsSummary o newHolderTx newCounterpartyTx = .ok outgoing) :
    (e.commitments.replace newHolderTx newCounterpartyTx).Summable o := by
  obtain ⟨holderReceived, hholderReceived, hincoming⟩ := bind_ok hincoming
  obtain ⟨counterpartyOffered, hcounterpartyOffered, -⟩ := bind_ok hincoming
  obtain ⟨holderOffered, hholderOffered, houtgoing⟩ := bind_ok houtgoing
  obtain ⟨counterpartyReceived, hcounterpartyReceived, -⟩ := bind_ok houtgoing
  exact ⟨⟨_, hholderOffered⟩, ⟨_, hholderReceived⟩, ⟨_, hcounterpartyOffered⟩,
    ⟨_, hcounterpartyReceived⟩⟩

/-- What can be summed up has summaries. -/
theorem exists_summaries (h : e.commitments.Summable o) :
    ∃ incoming outgoing, e.incomingPaymentsSummary o none none = .ok incoming ∧
      e.paymentsSummary o none none = .ok outgoing := by
  obtain ⟨holderOffered, hholderOffered⟩ := h.holderOffered
  obtain ⟨holderReceived, hholderReceived⟩ := h.holderReceived
  obtain ⟨counterpartyOffered, hcounterpartyOffered⟩ := h.counterpartyOffered
  obtain ⟨counterpartyReceived, hcounterpartyReceived⟩ := h.counterpartyReceived
  refine ⟨_, _, bind_eq_ok.mpr ⟨_, hholderReceived, bind_eq_ok.mpr ⟨_, hcounterpartyOffered, rfl⟩⟩,
    bind_eq_ok.mpr ⟨_, hholderOffered, bind_eq_ok.mpr ⟨_, hcounterpartyReceived, rfl⟩⟩⟩

end EnforcementState

/-! ## Setters under any filter -/

namespace Validator

variable {v : Validator} {e e' : EnforcementState} {num : Nat} {info : CommitmentInfo2}

theorem setNextHolderCommitNum_eq {signatures : CommitmentSignatures}
    (h : v.setNextHolderCommitNum e num info signatures = .ok e') :
    e' = e.setNextHolderCommitNum num info signatures := by
  obtain ⟨jumped, -, h⟩ := bind_ok h
  obtain ⟨u, -, h⟩ := bind_ok h
  exact (pure_eq_ok.mp h).symm

theorem commitments_setNextCounterpartyRevokeNum
    (h : v.setNextCounterpartyRevokeNum e num = .ok e') : e'.commitments = e.commitments := by
  obtain ⟨_, -, h⟩ := bind_ok (setNextCounterpartyRevokeNum_eq h)
  obtain ⟨_, -, h⟩ := bind_ok h
  cases h
  rfl

end Validator

/-! ## Channels -/

namespace Channel

variable {ch : Channel} {call : Call} {s t : Session} {request : Request} {r : Result Reply}

variable (h : ch.Served call s request r t)

include h

/-- A served request applies payments, or leaves the payment state alone. -/
theorem Served.node_eq_or_applied :
    t.node = s.node ∨ ∃ incoming outgoing delta,
      s.node.applyPayments ch.overflow ch.validator ch.id0
      incoming outgoing delta = .ok t.node := by
  cases h with
  | point point => exact .inl rfl
  | secret n released hn h => exact .inl rfl
  | counterparty _ _ h hended =>
    right
    rw [hended.node_eq]
    exact ⟨_, _, _, h.apply⟩
  | holder _ h hended =>
    right
    rw [hended.node_eq]
    exact ⟨_, _, _, h.apply⟩
  | holderSigned _ _ hended => exact .inl hended.node_eq
  | closeSigned hended => exact .inl hended.node_eq
  | revocationStored refusal _ _ _ => exact .inl rfl
  | revocation _ _ _ _ _ hended => exact .inl hended.node_eq

/-- A served request does not abort. -/
theorem Served.not_aborted (text : String) : r.map NodeReply.channel ≠ .error (.abort text) := by
  intro habort
  cases h with
  | point point => cases habort
  | secret n released hn h => cases habort
  | counterparty _ _ _ hended => cases hended <;> cases habort
  | holder _ _ hended => cases hended <;> cases habort
  | holderSigned _ _ hended => cases hended <;> cases habort
  | closeSigned hended => cases hended <;> cases habort
  | revocationStored refusal _ _ _ => cases habort
  | revocation _ _ _ _ _ hended => cases hended <;> cases habort

/-- A served request keeps the stored state or stores the new one. -/
theorem Served.stored_eq : t.stored = s.stored ∨ t.stored = t.estate := by
  cases h with
  | point point => exact .inl rfl
  | secret n released hn h => exact .inl rfl
  | counterparty _ _ _ hended => exact hended.estate_eq ▸ hended.stored_eq
  | holder _ _ hended => exact hended.estate_eq ▸ hended.stored_eq
  | holderSigned _ _ hended => exact hended.estate_eq ▸ hended.stored_eq
  | closeSigned hended => exact hended.estate_eq ▸ hended.stored_eq
  | revocationStored refusal _ _ _ => exact .inl rfl
  | revocation _ _ _ _ _ hended => exact hended.estate_eq ▸ hended.stored_eq

/-- The new state sums up what the old one does, or what has been checked. -/
theorem Served.summable (hs : s.estate.commitments.Summable ch.overflow) :
    t.estate.commitments.Summable ch.overflow := by
  cases h with
  | point point => exact hs
  | secret n released hn h => exact hs
  | counterparty _ _ h hended =>
    have hnew := summable_of_summaries h.checked.payments.incoming h.checked.payments.outgoing
    obtain ⟨num, -, hset⟩ := h.advance
    obtain ⟨hholder, -, hinfo⟩ :=
      setNextCounterpartyCommitNum_info (Validator.setNextCounterpartyCommitNum_eq hset)
    rw [hended.estate_eq, EnforcementState.commitments, hholder]
    rcases hinfo with hinfo | ⟨-, hinfo⟩
    · rw [hinfo]
      exact hnew
    · rw [hinfo]
      exact hs
  | holder _ h hended =>
    have hnew := summable_of_summaries h.checked.payments.incoming h.checked.payments.outgoing
    obtain ⟨num, -, hset⟩ := h.advance
    rw [hended.estate_eq, Validator.setNextHolderCommitNum_eq hset]
    exact hnew
  | holderSigned _ _ hended =>
    rw [hended.estate_eq]
    exact hs
  | closeSigned hended =>
    rw [hended.estate_eq]
    exact hs
  | revocationStored refusal _ _ hstore =>
    obtain ⟨secrets, rfl⟩ := storeSecret_ok hstore
    exact hs
  | revocation _ _ hstore _ hset hended =>
    obtain ⟨secrets, rfl⟩ := storeSecret_ok hstore
    rw [hended.estate_eq, Validator.commitments_setNextCounterpartyRevokeNum hset]
    exact hs

end Channel

/-! ## Nodes -/

namespace Node

variable {N : Node} {m m' : NodeMemory N.size} {event : NodeEvent N.size}

/-- Every served event moves the payment state in one of these ways. -/
theorem step_moved (h : (N.step (some m) event).1 = some m') : N.Moved m.node event m'.node := by
  cases step_stepped h with
  | kept => exact .kept event
  | @served i _ _ _ t hserved =>
    rcases hserved.node_eq_or_applied with hnode | ⟨incoming, outgoing, delta, happlied⟩
    · change N.Moved m.node _ t.node
      rw [hnode]
      exact .kept _
    · rw [Channel.overflow, N.validator_eq i] at happlied
      exact .applied happlied
  | moved _ hmoved => exact hmoved

/-- Every served event leaves a channel alone or serves a request to it. -/
theorem step_channel (h : (N.step (some m) event).1 = some m') (j : Fin N.size) :
    m'.estates j = m.estates j ∧ m'.stored j = m.stored j ∨
      ∃ call request r t, event = .request j call request ∧
        (N.channels j).Served call (N.session m j) request r t ∧ m'.estates j = t.estate ∧
        m'.stored j = t.stored := by
  cases step_stepped h with
  | kept => exact .inl ⟨rfl, rfl⟩
  | @served i _ _ _ _ hserved =>
    by_cases hj : j = i
    · subst hj
      exact .inr ⟨_, _, _, _, rfl, hserved, Function.update_self .., Function.update_self ..⟩
    · exact .inl ⟨Function.update_of_ne hj .., Function.update_of_ne hj ..⟩
  | moved => exact .inl ⟨rfl, rfl⟩

/-! ## Channels that can be restored -/

/-- Channels whose payments can be summed up can be restored. -/
theorem restoreChannels_total {stored : Fin N.size → EnforcementState}
    (hstored : ∀ i, (stored i).commitments.Summable N.overflow) (channels : List (Fin N.size))
    (s : NodeState) : ∃ s', N.restoreChannels stored channels s = .ok s' := by
  induction channels generalizing s with
  | nil => exact ⟨s, rfl⟩
  | cons i channels ih =>
    obtain ⟨incoming, outgoing, hincoming, houtgoing⟩ := exists_summaries (hstored i)
    have hfirst : ∃ s₁, s.restorePayments N.overflow (N.channels i).id0 (stored i) = .ok s₁ :=
      ⟨_, bind_eq_ok.mpr ⟨incoming, hincoming, bind_eq_ok.mpr ⟨outgoing, houtgoing, rfl⟩⟩⟩
    obtain ⟨s₁, h₁⟩ := hfirst
    obtain ⟨s', h'⟩ := ih s₁
    exact ⟨s', bind_eq_ok.mpr ⟨s₁, h₁, h'⟩⟩

theorem restoreNode_total {disk : NodeDisk N.size}
    (hstored : ∀ i, (disk.channels i).commitments.Summable N.overflow) :
    ∃ m, N.restoreNode disk = .ok m := by
  obtain ⟨s, hs⟩ := restoreChannels_total hstored (List.finRange N.size) (N.restoreState disk.entry)
  exact ⟨_, bind_eq_ok.mpr ⟨s, hs, rfl⟩⟩

end Node

/-- A node in memory, if it runs, and what is stored of it. -/
structure NodeHost (size : Nat) where
  memory : Option (NodeMemory size)
  disk : NodeDisk size

/-- What happens to a host. -/
inductive HostEvent (size : Nat) where
  /-- A request to the node. -/
  | request (event : NodeEvent size)
  /-- The check of an on-chain transaction that spends `nonBeneficialSat` without benefit. -/
  | onchainTx (now nonBeneficialSat : Nat)
  /-- The process ends and starts again; `sync` is whether the store wants to be written. -/
  | restart (sync : Bool)
  deriving DecidableEq

/-- What a host answers. -/
inductive HostReply where
  | node (reply : NodeReply)
  | onchainTx
  | restarted
  deriving DecidableEq

/-- Whether a computation has ended the process. -/
def isAborted {α : Type} : Result α → Bool
  | .error (.abort _) => true
  | _ => false

namespace Node

variable (N : Node)

/-- Whether the node writes its entry when it gives the answer `r`: it does when a payment is
approved for the first time. -/
def writesEntry (m : NodeMemory N.size) (event : NodeEvent N.size) (r : Result NodeReply) : Bool :=
  match event, r with
  | .addInvoice _ _ invoice, .ok (.added true) => invoice.paymentHash ∉ m.node.invoices
  | .addKeysend _ _ _ hash _, .ok (.added true) => hash ∉ m.node.invoices
  | _, _ => false

/-- What is stored once the node has answered. -/
def diskAfter (disk : NodeDisk N.size) (m : NodeMemory N.size) (event : NodeEvent N.size) :
    NodeDisk N.size where
  entry :=
    if N.writesEntry m event (N.serve m event).1 then .ofState (N.serve m event).2.node
    else disk.entry
  channels := (N.serve m event).2.stored

/-- Check the fee of an on-chain transaction. -/
def onchainTx (m : NodeMemory N.size) (now nonBeneficialSat : Nat) :
    Result Unit × NodeMemory N.size :=
  let (r, s) := (NodeState.checkOnchainFee N.overflow N.validator now nonBeneficialSat).exec m.node
  (r, { m with node := s })

/-- What happens to a host. -/
def hostStep (host : NodeHost N.size) : HostEvent N.size → NodeHost N.size × Result HostReply
  | .request event =>
    match host.memory with
    | none => (host, .error (.abort "the signer is not running"))
    | some m =>
      (⟨(N.step (some m) event).1, N.diskAfter host.disk m event⟩,
        (N.step (some m) event).2.map .node)
  | .onchainTx now nonBeneficialSat =>
    match host.memory with
    | none => (host, .error (.abort "the signer is not running"))
    | some m =>
      let (r, m') := N.onchainTx m now nonBeneficialSat
      ({ host with memory := if isAborted r then none else some m' }, r.map fun _ => .onchainTx)
  | .restart sync =>
    match N.restoreNode host.disk with
    | .ok m =>
      (⟨some m, if sync then { host.disk with entry := .ofState m.node } else host.disk⟩,
        .ok .restarted)
    | .error fault => ({ host with memory := none }, .error fault)

/-- A host as a machine. -/
def hostMachine : Machine (NodeHost N.size) (HostEvent N.size) (Result HostReply) := ⟨N.hostStep⟩

/-- The payment state of a new node. -/
def newState : NodeState :=
  .new (.new N.policy.globalVelocityControl) (.new N.policy.feeVelocityControl)

/-- A host whose node is new and has stored itself and its channels. -/
def newHost (initialHolderValue : Fin N.size → Nat) : NodeHost N.size where
  memory := some (N.initial N.newState initialHolderValue)
  disk := ⟨.ofState N.newState, fun i => .new (initialHolderValue i)⟩

end Node

/-- A recorded step of a host. -/
abbrev HostEntry (size : Nat) := Entry (NodeHost size) (HostEvent size) (Result HostReply)

/-! ## What a host does -/

namespace NodeState

variable {o : Overflow} {v : Validator} {s s' : NodeState} {now nonBeneficialSat : Nat}

/-- Checking a fee aborts, or moves the fee velocity control and refuses what it does not record. -/
theorem checkOnchainFee_exec {r : Result Unit}
    (h : (checkOnchainFee o v now nonBeneficialSat).exec s = (r, s')) :
    (∃ fault, r = .error fault ∧ s' = s) ∨ ∃ amount fits control message,
      o.u64 (nonBeneficialSat * 1000) = (.ok amount : Result Nat) ∧
      s.feeVelocityControl.insert o (durationAsSecs now) amount = .ok (fits, control) ∧
      s' = { s with feeVelocityControl := control } ∧
      r = v.filter.policyErr (fits = false) "policy-onchain-fee-range" "check_onchain_tx"
        message := by
  unfold checkOnchainFee at h
  rw [Effect.exec_get_bind] at h
  rcases Effect.exec_lift_bind_iff.mp h with ⟨fault, -, hr, hs⟩ | ⟨amount, hamount, h⟩
  · exact .inl ⟨fault, hr, hs⟩
  · rcases Effect.exec_lift_bind_iff.mp h with ⟨fault, -, hr, hs⟩ | ⟨⟨fits, control⟩, hinsert, h⟩
    · exact .inl ⟨fault, hr, hs⟩
    · right
      simp only [Effect.exec_set_bind, Effect.exec_lift, Prod.mk.injEq] at h
      exact ⟨amount, fits, control, _, hamount, hinsert, h.2.symm, h.1.symm⟩

/-- Checking a fee changes nothing but the fee velocity control. -/
theorem checkOnchainFee_frame {r : Result Unit}
    (h : (checkOnchainFee o v now nonBeneficialSat).exec s = (r, s')) :
    ∃ control, s' = { s with feeVelocityControl := control } := by
  rcases checkOnchainFee_exec h with ⟨_, -, rfl⟩ | ⟨_, _, control, _, -, -, hs, -⟩
  · exact ⟨s'.feeVelocityControl, rfl⟩
  · exact ⟨control, hs⟩

end NodeState

namespace Node

variable {N : Node} {m m' : NodeMemory N.size} {event : NodeEvent N.size} {disk : NodeDisk N.size}

/-- The memory after an event that does not abort is the one served. -/
theorem serve_of_step (h : (N.step (some m) event).1 = some m') : (N.serve m event).2 = m' := by
  rcases hserve : N.serve m event with ⟨r, m''⟩
  simp only [step, hserve] at h
  rcases r with (e | text) | reply
  · exact Option.some.inj h
  · cases h
  · exact Option.some.inj h

theorem serve_of_step_none (h : (N.step (some m) event).1 = none) :
    ∃ text, (N.serve m event).1 = .error (.abort text) := by
  rcases hserve : N.serve m event with ⟨r, m''⟩
  simp only [step, hserve] at h
  rcases r with (e | text) | reply
  · cases h
  · exact ⟨text, rfl⟩
  · cases h

/-- How an event that asks to approve a payment is served. -/
theorem serve_adds {now : Nat} {hash : PaymentHash} {state : PaymentState}
    (hevent : event.adds = some (now, hash, state)) :
    (∃ fault, N.serve m event = (.error fault, m)) ∨
      ∃ added s, N.serve m event = (.ok (.added added), { m with node := s }) ∧
        m.node.Added N.overflow now hash state added s := by
  have hsettle {x : Result (Bool × NodeState)} (hserve : N.serve m event = m.settle .added x)
      (hadded : ∀ added s, x = .ok (added, s) → m.node.Added N.overflow now hash state added s) :
      (∃ fault, N.serve m event = (.error fault, m)) ∨
        ∃ added s, N.serve m event = (.ok (.added added), { m with node := s }) ∧
          m.node.Added N.overflow now hash state added s := by
    rw [hserve]
    match x, hadded with
    | .ok (added, s), hadded => exact .inr ⟨added, s, rfl, hadded added s rfl⟩
    | .error fault, hadded => exact .inl ⟨fault, rfl⟩
  cases event with
  | addInvoice persistOk now invoice =>
    obtain ⟨rfl, rfl, rfl⟩ : now = _ ∧ invoice.paymentHash = hash ∧ _ = state := by
      simpa [NodeEvent.adds] using hevent
    have hserve : N.serve m (.addInvoice persistOk now invoice) = m.settle .added
        (m.node.addInvoice N.overflow N.validator N.policy.maxInvoices persistOk now invoice) := by
      rw [serve]
    refine hsettle hserve ?_
    intro added s h
    obtain ⟨u, -, h⟩ := bind_ok h
    exact NodeState.addPayment_added h
  | addKeysend persistOk now payee paymentHash amountMsat =>
    obtain ⟨rfl, rfl, rfl⟩ : now = _ ∧ paymentHash = hash ∧ _ = state := by
      simpa [NodeEvent.adds] using hevent
    have hserve : N.serve m (.addKeysend persistOk now payee paymentHash amountMsat) =
        m.settle .added (m.node.addKeysend N.overflow N.policy.maxInvoices persistOk now payee
          paymentHash amountMsat) := by
      rw [serve]
    exact hsettle hserve fun added s h => NodeState.addPayment_added h
  | request i call request => cases hevent
  | htlcsFulfilled i preimages => cases hevent
  | signInvoice invoice => cases hevent
  | heartbeat now => cases hevent

/-- The entry is written only by an event that approves a payment for the first time. -/
theorem writesEntry_iff {r : Result NodeReply} :
    N.writesEntry m event r = true ↔ ∃ now hash state, event.adds = some (now, hash, state) ∧
      r = .ok (.added true) ∧ hash ∉ m.node.invoices := by
  unfold writesEntry NodeEvent.adds
  split
  · simp
  · simp
  · rename_i hinvoice hkeysend
    constructor
    · intro h
      cases h
    · rintro ⟨now, hash, state, hevent, rfl, -⟩
      cases event with
      | addInvoice persistOk now invoice => exact absurd rfl (hinvoice persistOk now invoice · rfl)
      | addKeysend persistOk now payee paymentHash amountMsat =>
        exact absurd rfl (hkeysend persistOk now payee paymentHash amountMsat · rfl)
      | request i call request => cases hevent
      | htlcsFulfilled i preimages => cases hevent
      | signInvoice invoice => cases hevent
      | heartbeat now => cases hevent

/-- A served event stores the channels, and its entry unless the ledger of approvals stays. -/
theorem diskAfter_of_step (h : (N.step (some m) event).1 = some m') :
    (N.diskAfter disk m event).channels = m'.stored ∧
      ((N.diskAfter disk m event).entry = .ofState m'.node ∨
        (N.diskAfter disk m event).entry = disk.entry ∧
          (event.adds.isSome → m.node.SameLedger m'.node)) := by
  have hserve := serve_of_step h
  unfold diskAfter
  rw [hserve]
  refine ⟨rfl, ?_⟩
  by_cases hwrites : N.writesEntry m event (N.serve m event).1 = true
  · exact .inl (if_pos hwrites)
  · right
    refine ⟨if_neg hwrites, ?_⟩
    intro hadds
    obtain ⟨⟨now, hash, state⟩, hevent⟩ := Option.isSome_iff_exists.mp hadds
    rcases serve_adds (m := m) hevent with ⟨fault, hfailed⟩ | ⟨added, s, hserved, hadded⟩
    · rw [hfailed] at hserve
      obtain rfl : m = m' := hserve
      exact .refl m.node
    · rw [hserved] at hserve hwrites
      obtain rfl : { m with node := s } = m' := hserve
      cases hadded with
      | known _ => exact .refl m.node
      | exceeded _ _ => exact ⟨rfl, rfl, rfl, rfl⟩
      | approved hnew _ =>
        exact absurd (writesEntry_iff.mpr ⟨now, hash, state, hevent, rfl, hnew⟩) hwrites

/-- An aborted event stores nothing. -/
theorem diskAfter_of_step_none (h : (N.step (some m) event).1 = none) :
    N.diskAfter disk m event = ⟨disk.entry, m.stored⟩ := by
  obtain ⟨text, habort⟩ := serve_of_step_none h
  have hwrites : N.writesEntry m event (N.serve m event).1 = false := by
    rw [habort, Bool.eq_false_iff]
    intro hwrites
    obtain ⟨_, _, _, _, hr, _⟩ := writesEntry_iff.mp hwrites
    cases hr
  have hstored : (N.serve m event).2.stored = m.stored := by
    have hsettle {α : Type} {reply : α → NodeReply} {x : Result (α × NodeState)}
        (hserve : N.serve m event = m.settle reply x) : (N.serve m event).2.stored = m.stored := by
      rw [hserve]
      match x with
      | .ok (a, s) => rfl
      | .error fault => rfl
    cases event with
    | request i call request =>
      rcases hexec : ((N.channels i).execute call request).exec (N.session m i) with ⟨r, t⟩
      have hserve : N.serve m (.request i call request) = (r.map .channel, m.write i t) := by
        simp only [serve, hexec]
      rw [hserve] at habort ⊢
      have hsame : t.stored = m.stored i := by
        cases Channel.execute_outcome hexec with
        | failed fault => rfl
        | aborted text t hstored => exact hstored
        | ended hserved => exact absurd habort (hserved.not_aborted text)
      change Function.update m.stored i t.stored = m.stored
      rw [hsame, Function.update_eq_self]
    | htlcsFulfilled i preimages => exact hsettle (by rw [serve])
    | addInvoice persistOk now invoice => exact hsettle (by rw [serve])
    | addKeysend persistOk now payee hash amountMsat => exact hsettle (by rw [serve])
    | signInvoice invoice => exact hsettle (by rw [serve])
    | heartbeat now => exact hsettle (by rw [serve])
  rw [diskAfter, hwrites, hstored]
  rfl

/-- What one event can do to a host. -/
inductive Hosted (N : Node) (host : NodeHost N.size) : HostEvent N.size → NodeHost N.size →
    Prop where
  | ended (event : HostEvent N.size) {channels : Fin N.size → EnforcementState}
      (h : channels = host.disk.channels ∨ ∃ m, host.memory = some m ∧ channels = m.stored) :
      Hosted N host event ⟨none, ⟨host.disk.entry, channels⟩⟩
  | served {m m' : NodeMemory N.size} {event : NodeEvent N.size} (hmemory : host.memory = some m)
      (h : (N.step (some m) event).1 = some m') :
      Hosted N host (.request event) ⟨some m', N.diskAfter host.disk m event⟩
  | checked {m : NodeMemory N.size} {now nonBeneficialSat : Nat} {r : Result Unit} {s : NodeState}
      (hmemory : host.memory = some m)
      (h : (NodeState.checkOnchainFee N.overflow N.validator now nonBeneficialSat).exec m.node =
        (r, s)) :
      Hosted N host (.onchainTx now nonBeneficialSat) ⟨some { m with node := s }, host.disk⟩
  | restarted {m : NodeMemory N.size} {sync : Bool} (h : N.restoreNode host.disk = .ok m) :
      Hosted N host (.restart sync)
        ⟨some m, if sync then { host.disk with entry := .ofState m.node } else host.disk⟩

variable {host : NodeHost N.size}

/-- Every event does one of these things. -/
theorem hostStep_hosted (host : NodeHost N.size) (event : HostEvent N.size) :
    N.Hosted host event (N.hostStep host event).1 := by
  rcases host with ⟨memory, disk⟩
  cases event with
  | request event =>
    cases memory with
    | none => exact .ended _ (.inl rfl)
    | some m =>
      change N.Hosted _ _ ⟨(N.step (some m) event).1, N.diskAfter disk m event⟩
      rcases hstep : (N.step (some m) event).1 with _ | m'
      · rw [diskAfter_of_step_none hstep]
        exact .ended _ (.inr ⟨m, rfl, rfl⟩)
      · exact .served rfl hstep
  | onchainTx now nonBeneficialSat =>
    cases memory with
    | none => exact .ended _ (.inl rfl)
    | some m =>
      rcases hexec : (NodeState.checkOnchainFee N.overflow N.validator now nonBeneficialSat).exec
        m.node with ⟨r, s⟩
      simp only [hostStep, onchainTx, hexec]
      split_ifs
      · exact .ended _ (.inl rfl)
      · exact .checked rfl hexec
  | restart sync =>
    simp only [hostStep]
    rcases hrestore : N.restoreNode disk with fault | m
    · exact .ended _ (.inl rfl)
    · exact .restarted hrestore

/-! ## Restarts do not abort -/

/-- The payments of a host's channels can be summed up, in memory and as stored. -/
structure Restorable (N : Node) (host : NodeHost N.size) : Prop where
  channels : ∀ i, (host.disk.channels i).commitments.Summable N.overflow
  stored : ∀ m, host.memory = some m → m.stored = host.disk.channels
  estates : ∀ m, host.memory = some m → ∀ i, (m.estates i).commitments.Summable N.overflow

theorem Restorable.newHost (N : Node) (values : Fin N.size → Nat) :
    N.Restorable (N.newHost values) := by
  refine ⟨fun i => Commitments.summable_none _, ?_, ?_⟩
  · rintro m ⟨⟩
    rfl
  · rintro m ⟨⟩ i
    exact Commitments.summable_none _

/-- A served event keeps the commitments of every channel such that they can be summed up. -/
theorem summable_step (h : (N.step (some m) event).1 = some m')
    (hestates : ∀ i, (m.estates i).commitments.Summable N.overflow)
    (hstored : ∀ i, (m.stored i).commitments.Summable N.overflow) (i : Fin N.size) :
    (m'.estates i).commitments.Summable N.overflow ∧
      (m'.stored i).commitments.Summable N.overflow := by
  rcases step_channel h i with ⟨he, hs⟩ | ⟨call, request, r, t, -, hserved, he, hs⟩
  · rw [he, hs]
    exact ⟨hestates i, hstored i⟩
  · have hoverflow : (N.channels i).overflow = N.overflow := by
      rw [Channel.overflow, N.validator_eq i]
      rfl
    have hnew : t.estate.commitments.Summable N.overflow := by
      rw [← hoverflow]
      apply hserved.summable
      rw [hoverflow]
      exact hestates i
    rw [he, hs]
    rcases hserved.stored_eq with hstore | hstore
    · rw [hstore]
      exact ⟨hnew, hstored i⟩
    · rw [hstore]
      exact ⟨hnew, hnew⟩

theorem Restorable.step {event : HostEvent N.size} {host' : NodeHost N.size}
    (h : N.Restorable host) (hhosted : N.Hosted host event host') : N.Restorable host' := by
  cases hhosted with
  | ended _ hchannels =>
    refine ⟨?_, (fun _ hm => nomatch hm), (fun _ hm => nomatch hm)⟩
    rcases hchannels with rfl | ⟨m, hm, rfl⟩
    · exact h.channels
    · rw [h.stored m hm]
      exact h.channels
  | @served m m' event hmemory hstep =>
    have hstored := h.stored m hmemory
    have hsummable := summable_step hstep (h.estates m hmemory) (hstored ▸ h.channels)
    have hchannels : (N.diskAfter host.disk m event).channels = m'.stored :=
      (diskAfter_of_step hstep).1
    refine ⟨?_, ?_, ?_⟩
    · intro i
      rw [hchannels]
      exact (hsummable i).2
    · rintro _ ⟨⟩
      exact hchannels.symm
    · rintro _ ⟨⟩ i
      exact (hsummable i).1
  | @checked m now nonBeneficialSat r s hmemory hexec =>
    refine ⟨h.channels, ?_, ?_⟩
    · rintro _ ⟨⟩
      exact h.stored m hmemory
    · rintro _ ⟨⟩
      exact h.estates m hmemory
  | @restarted m sync hrestore =>
    obtain ⟨-, hestates, hstored⟩ := restoreNode_ok hrestore
    have hchannels : (if sync then { host.disk with entry := NodeStateEntry.ofState m.node }
        else host.disk).channels = host.disk.channels := by
      split_ifs
      · rfl
      · rfl
    refine ⟨?_, ?_, ?_⟩
    · rw [hchannels]
      exact h.channels
    · rintro _ ⟨⟩
      rw [hchannels]
      exact hstored
    · rintro _ ⟨⟩
      rw [hestates]
      exact h.channels

theorem Restorable.final (N : Node) (values : Fin N.size → Nat) (events : List (HostEvent N.size)) :
    N.Restorable (N.hostMachine.final (N.newHost values) events) :=
  N.hostMachine.final_induction (C := fun _ => True) (.newHost N values)
    (fun host event h _ => h.step (hostStep_hosted host event)) events fun _ _ => trivial

end Node

end ValidatingSigner
