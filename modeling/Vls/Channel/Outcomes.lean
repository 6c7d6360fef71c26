import Vls.Channel.Machine

/-!
# How the operations of a channel end

Every operation ends in one of few ways: it fails before anything is written, it aborts, or it has
passed its checks and written a new enforcement state, which is stored or not.  There is one lemma
for each operation, with what its checks established.
-/

namespace ValidatingSigner

open Base Effect

/-! ## Endings -/

/-- How an operation that has written `e` and `node` ends: the state is stored and the reply given,
or storing fails.  `before` is the state stored until then. -/
inductive Ended {α : Type} (call : Call) (before e : EnforcementState) (node : NodeState)
    (reply : α) : Result α → Session → Prop where
  | stored (h : call.persistOk = true) : Ended call before e node reply (.ok reply) ⟨e, node, e⟩
  | notStored (h : call.persistOk = false) :
      Ended call before e node reply (.error (.refuse (internalError "persist failed")))
        ⟨e, node, before⟩

namespace Ended

variable {α : Type} {call : Call} {before e : EnforcementState} {node : NodeState} {reply : α}
  {r : Result α} {t : Session}

variable (h : Ended call before e node reply r t)

include h

theorem estate_eq : t.estate = e := by
  cases h <;> rfl

theorem node_eq : t.node = node := by
  cases h <;> rfl

theorem stored_eq : t.stored = before ∨ t.stored = e := by
  cases h with
  | stored => exact .inr rfl
  | notStored => exact .inl rfl

theorem of_persists (hpersist : call.persistOk = true) : t.stored = t.estate := by
  cases h with
  | stored => rfl
  | notStored hfailed => exact nomatch hfailed.symm.trans hpersist

theorem of_ok {reply' : α} (hr : r = .ok reply') : reply' = reply ∧ t.stored = e := by
  cases h with
  | stored => exact ⟨(Except.ok.inj hr).symm, rfl⟩
  | notStored => cases hr

end Ended

/-- How an operation ends: it fails with nothing written, aborts with nothing stored, or ends in the
way `P` says. -/
inductive Outcome {α : Type} (s : Session) (P : Result α → Session → Prop) :
    Result α → Session → Prop where
  | failed (fault : Fault Refusal) : Outcome s P (.error fault) s
  | aborted (m : String) (t : Session) (h : t.stored = s.stored) :
      Outcome s P (.error (.abort m)) t
  | ended {r : Result α} {t : Session} (h : P r t) : Outcome s P r t

section Peel

variable {α β : Type} {s u t : Session} {P : Result β → Session → Prop} {r : Result β}

/-- A check made before anything is written fails harmlessly or hands over its value. -/
theorem Outcome.of_lift_bind {x : Result α} {f : α → Op β}
    (h : exec (lift x >>= f) s = (r, t))
    (hnext : ∀ a, x = .ok a → exec (f a) s = (r, t) → Outcome s P r t) : Outcome s P r t := by
  rcases exec_lift_bind_iff.mp h with ⟨fault, -, rfl, rfl⟩ | ⟨a, ha, h⟩
  · exact .failed fault
  · exact hnext a ha h

/-- A computation that cannot refuse aborts or hands over its value, also after a write. -/
theorem Outcome.of_noRefusal_bind {x : Result α} {f : α → Op β} (hx : NoRefusal x)
    (h : exec (lift x >>= f) u = (r, t)) (hu : u.stored = s.stored)
    (hnext : ∀ a, x = .ok a → exec (f a) u = (r, t) → Outcome s P r t) : Outcome s P r t := by
  rcases exec_lift_bind_iff.mp h with ⟨fault, he, rfl, rfl⟩ | ⟨a, ha, h⟩
  · cases fault with
    | refuse e => exact absurd he (hx e)
    | abort m => exact .aborted m _ hu
  · exact hnext a ha h

theorem Outcome.imp {Q : Result β → Session → Prop} (h : Outcome s P r t)
    (hpq : P r t → Q r t) : Outcome s Q r t := by
  cases h with
  | failed fault => exact .failed fault
  | aborted m t h => exact .aborted m t h
  | ended h => exact .ended (hpq h)

/-- Mapping the reply of an operation maps its result and changes nothing else. -/
theorem exec_bind_pure {op : Op α} {f : α → β} (h : exec (op >>= fun a => pure (f a)) s = (r, t)) :
    ∃ r₀, exec op s = (r₀, t) ∧ r = r₀.map f := by
  rw [exec_bind] at h
  rcases hop : exec op s with ⟨_ | a, u⟩
  · rw [hop] at h
    cases h
    exact ⟨_, rfl, rfl⟩
  · rw [hop] at h
    cases h
    exact ⟨_, rfl, rfl⟩

/-- Storing the state and replying ends the operation. -/
theorem ended_of_persist {call : Call} {reply : β}
    (h : exec (persist call >>= fun _ => pure reply) s = (r, t)) :
    Ended call s.stored s.estate s.node reply r t := by
  cases hp : call.persistOk with
  | true =>
    have hexec : exec (persist call >>= fun _ => pure reply) s = (.ok reply, ⟨s.estate, s.node,
        s.estate⟩) := by
      unfold persist
      rw [hp]
      rfl
    rw [hexec] at h
    cases h
    exact .stored hp
  | false =>
    have hexec : exec (persist call >>= fun _ => pure reply) s =
        (.error (.refuse (internalError "persist failed")), s) := by
      unfold persist
      rw [hp]
      rfl
    rw [hexec] at h
    cases h
    exact .notStored hp

end Peel

/-! ## What the checks establish -/

/-- A transaction is the counterparty's commitment `n` under `point` with description `info`, up to
the order of its HTLCs. -/
def Channel.IsCounterpartyTx (ch : Channel) (n : Nat) (point : PublicKey) (info : CommitmentInfo2)
    (tx : CommitmentTransaction) : Prop :=
  ∃ offered received htlcs, offered.Perm info.offeredHtlcs ∧ received.Perm info.receivedHtlcs ∧
    htlcsInfo2ToOic ch.overflow offered received = .ok htlcs ∧
    ch.makeCounterpartyCommitmentTx point n info.feeratePerKw info.toCountersignerValueSat
      info.toBroadcasterValueSat htlcs = .ok tx

/-- The balance, the payments and the totals of an update are those of the channel and pass the
node's checks. -/
structure Channel.PaymentsChecked (ch : Channel) (e : EnforcementState) (node : NodeState)
    (newHolderTx newCounterpartyTx : Option CommitmentInfo2) (update : CommitmentUpdate) :
    Prop where
  delta : e.claimableBalances ch.overflow node.hasPreimage newHolderTx newCounterpartyTx ch.setup =
    .ok update.delta
  incoming : e.incomingPaymentsSummary ch.overflow newHolderTx newCounterpartyTx =
    .ok update.incoming
  outgoing : e.paymentsSummary ch.overflow newHolderTx newCounterpartyTx = .ok update.outgoing
  valid : node.validatePayments ch.overflow ch.validator ch.id0 update.incoming update.outgoing
    update.delta = .ok ()

/-- What is known of counterparty commitment `n` once it is signed. -/
structure Channel.CounterpartyChecked (ch : Channel) (call : Call) (e : EnforcementState)
    (node : NodeState) (n : Nat) (point : PublicKey) (tx : CommitmentTransaction)
    (update : CommitmentUpdate) : Prop where
  side : update.info.isCounterpartyBroadcaster = true
  valid : ch.validator.validateCounterpartyCommitmentTx e n point ch.setup call.chain update.info =
    .ok ()
  tx : ch.IsCounterpartyTx n point update.info tx
  payments : ch.PaymentsChecked e node none (some update.info) update

/-- What is known of holder commitment `n` once it is checked. -/
structure Channel.HolderChecked (ch : Channel) (call : Call) (e : EnforcementState)
    (node : NodeState) (n : Nat) (update : CommitmentUpdate) : Prop where
  side : update.info.isCounterpartyBroadcaster = false
  valid : ∃ point, ch.validator.validateHolderCommitmentTx e n point ch.setup call.chain
    update.info = .ok ()
  payments : ch.PaymentsChecked e node (some update.info) none update

/-- The point of holder commitment `n`. -/
def Channel.holderPoint (ch : Channel) (n : Nat) : Result PublicKey := do
  let index ← ch.overflow.sub INITIAL_COMMITMENT_NUMBER n
  return ch.keys.getPerCommitmentPoint index

/-- A transaction is the holder's commitment `n` under `point` with description `info`. -/
def Channel.IsHolderTx (ch : Channel) (n : Nat) (point : PublicKey) (info : CommitmentInfo2)
    (tx : CommitmentTransaction) : Prop :=
  ∃ htlcs, htlcsInfo2ToOic ch.overflow info.offeredHtlcs info.receivedHtlcs = .ok htlcs ∧
    ch.makeHolderCommitmentTx n (ch.makeHolderTxKeys point) info.feeratePerKw
      info.toBroadcasterValueSat info.toCountersignerValueSat htlcs = .ok tx

/-- The signatures on holder commitment `n` with description `info`, rebuilt at the commitment's own
point, pass the check. -/
def Channel.SignaturesPass (ch : Channel) (n : Nat) (point : PublicKey) (info : CommitmentInfo2)
    (signatures : CommitmentSignatures) : Prop :=
  ∃ tx, ch.IsHolderTx n point info tx ∧
    ch.checkHolderTxSignatures point (ch.makeHolderTxKeys point) info.feeratePerKw signatures tx =
      .ok ()

/-- Why the channel signs holder commitment `n`: it is the current one, it is the one to recover
with, or it passes the checks of a holder commitment. -/
inductive Channel.HolderSignable (ch : Channel) (call : Call) (e : EnforcementState) (n : Nat) :
    Prop where
  | current (info : CommitmentInfo2)
      (h : ch.validator.getCurrentHolderCommitmentInfo e n = .ok info)
  | recovery (info : CommitmentInfo2) (hinfo : e.currentHolderCommitInfo = some info)
      (h : ch.overflow.sub e.nextHolderCommitNum 1 = (.ok n : Result Nat))
  | redundant (point : PublicKey) (info : CommitmentInfo2)
      (h : ch.validator.validateHolderCommitmentTx e n point ch.setup call.chain info = .ok ())

namespace Channel

theorem filter_default {ch : Channel} {v : SimpleValidator} (hv : ch.validator = v.toValidator)
    (hfilter : v.policy.filter = .default) : ch.validator.filter = .default := by
  rw [hv]
  exact hfilter

variable {ch : Channel} {call : Call} {e : EnforcementState} {node : NodeState} {n : Nat}
  {point : PublicKey} {toHolder toCounterparty feerate : Nat} {offered received : List HTLCInfo2}
  {info : CommitmentInfo2} {incoming : EnforcementState.Summary} {signed : SignedCommitment}
  {update : CommitmentUpdate} {delta : BalanceDelta} {tx : CommitmentTransaction}
  {witscripts : List Script} {signatures : CommitmentSignatures}

theorem buildCounterpartyCommitmentInfo_ok
    (h : ch.buildCounterpartyCommitmentInfo point toHolder toCounterparty offered received feerate =
      .ok info) :
    info.isCounterpartyBroadcaster = true ∧ info.toCountersignerValueSat = toHolder ∧
      info.toBroadcasterValueSat = toCounterparty ∧ info.feeratePerKw = feerate ∧
      info.offeredHtlcs = sortHtlcs offered ∧ info.receivedHtlcs = sortHtlcs received := by
  obtain ⟨delayed, -, h⟩ := bind_ok h
  obtain ⟨payment, -, h⟩ := bind_ok h
  cases h
  exact ⟨rfl, rfl, rfl, rfl, rfl, rfl⟩

/-- What the description of a holder commitment keeps of what it is built from. -/
theorem buildHolderCommitmentInfo_ok {point : PublicKey}
    (h : ch.buildHolderCommitmentInfo point toHolder toCounterparty offered received feerate =
      .ok info) :
    info.isCounterpartyBroadcaster = false ∧ info.toBroadcasterValueSat = toHolder ∧
      info.toCountersignerValueSat = toCounterparty ∧ info.feeratePerKw = feerate := by
  obtain ⟨delayed, -, h⟩ := bind_ok h
  obtain ⟨payment, -, h⟩ := bind_ok h
  cases h
  exact ⟨rfl, rfl, rfl, rfl⟩

theorem validatedCounterpartyInfo_ok
    (h : ch.validatedCounterpartyInfo call e node point n feerate toHolder toCounterparty offered
      received = .ok (info, delta, incoming)) :
    ch.buildCounterpartyCommitmentInfo point toHolder toCounterparty offered received feerate =
        .ok info ∧
      e.claimableBalances ch.overflow node.hasPreimage none (some info) ch.setup = .ok delta ∧
      e.incomingPaymentsSummary ch.overflow none (some info) = .ok incoming ∧
      ch.validator.validateCounterpartyCommitmentTx e n point ch.setup call.chain info =
        .ok () := by
  obtain ⟨info', hinfo, h⟩ := bind_ok h
  obtain ⟨delta', hdelta, h⟩ := bind_ok h
  obtain ⟨incoming', hincoming, h⟩ := bind_ok h
  obtain ⟨u, hvalid, h⟩ := bind_ok h
  obtain ⟨rfl, rfl, rfl⟩ := by simpa using h
  exact ⟨hinfo, hdelta, hincoming, hvalid⟩

theorem signedCounterpartyUpdate_ok {failure : String}
    (h : ch.signedCounterpartyUpdate e node failure tx info delta incoming = .ok (signed, update)) :
    signed.tx = tx ∧ update.info = info ∧ update.delta = delta ∧ update.incoming = incoming ∧
      e.paymentsSummary ch.overflow none (some info) = .ok update.outgoing ∧
      node.validatePayments ch.overflow ch.validator ch.id0 incoming update.outgoing delta =
        .ok () := by
  obtain ⟨⟨sig, htlcSigs⟩, -, h⟩ := bind_ok h
  obtain ⟨outgoing, houtgoing, h⟩ := bind_ok h
  obtain ⟨u, hvalid, h⟩ := bind_ok h
  obtain ⟨rfl, rfl⟩ := by simpa using h
  exact ⟨rfl, rfl, rfl, rfl, houtgoing, hvalid⟩

/-- A signed counterparty commitment of phase 2 has passed every check. -/
theorem prepareCounterpartyPhase2_ok
    (h : ch.prepareCounterpartyPhase2 call e node point n feerate toHolder toCounterparty offered
      received = .ok (signed, update)) :
    ch.CounterpartyChecked call e node n point signed.tx update ∧
      ch.buildCounterpartyCommitmentInfo point toHolder toCounterparty offered received feerate =
        .ok update.info := by
  obtain ⟨u, -, h⟩ := bind_ok h
  obtain ⟨⟨info, delta, incoming⟩, hinfo, h⟩ := bind_ok h
  obtain ⟨htlcs, hhtlcs, h⟩ := bind_ok h
  obtain ⟨tx, htx, h⟩ := bind_ok h
  obtain ⟨hbuild, hdelta, hincoming, hvalid⟩ := validatedCounterpartyInfo_ok hinfo
  obtain ⟨rfl, rfl, rfl, rfl, houtgoing, hpay⟩ := signedCounterpartyUpdate_ok h
  obtain ⟨hside, rfl, rfl, rfl, hoff, hrec⟩ := buildCounterpartyCommitmentInfo_ok hbuild
  refine ⟨⟨hside, hvalid, ⟨offered, received, htlcs, ?_, ?_, hhtlcs, htx⟩,
    ⟨hdelta, hincoming, houtgoing, hpay⟩⟩, hbuild⟩
  · rw [hoff]
    exact (sortHtlcs_perm offered).symm
  · rw [hrec]
    exact (sortHtlcs_perm received).symm

/-- A signed counterparty commitment of phase 1 has passed every check. -/
theorem prepareCounterparty_ok {tx : Transaction}
    (h : ch.prepareCounterparty call e node tx witscripts point n feerate offered received =
      .ok (signed, update)) :
    ch.CounterpartyChecked call e node n point signed.tx update ∧
      ∃ decoded, ch.validator.decodeCommitmentTx ch.keys ch.setup true tx witscripts = .ok decoded ∧
        ch.buildCounterpartyCommitmentInfo point decoded.toCountersignerValueSat
          decoded.toBroadcasterValueSat offered received feerate = .ok update.info := by
  obtain ⟨u, -, h⟩ := bind_ok h
  obtain ⟨u, -, h⟩ := bind_ok h
  obtain ⟨decoded, hdecoded, h⟩ := bind_ok h
  obtain ⟨⟨info, delta, incoming⟩, hinfo, h⟩ := bind_ok h
  obtain ⟨htlcs, hhtlcs, h⟩ := bind_ok h
  obtain ⟨recomposed, htx, h⟩ := bind_ok h
  obtain ⟨u, -, h⟩ := bind_ok h
  obtain ⟨hbuild, hdelta, hincoming, hvalid⟩ := validatedCounterpartyInfo_ok hinfo
  obtain ⟨rfl, rfl, rfl, rfl, houtgoing, hpay⟩ := signedCounterpartyUpdate_ok h
  obtain ⟨hside, hholder, hcp, rfl, -, -⟩ := buildCounterpartyCommitmentInfo_ok hbuild
  rw [← hholder, ← hcp] at htx
  exact ⟨⟨hside, hvalid, ⟨_, _, htlcs, .refl _, .refl _, hhtlcs, htx⟩,
    ⟨hdelta, hincoming, houtgoing, hpay⟩⟩, decoded, hdecoded, hbuild⟩

theorem holderUpdate_ok (h : ch.holderUpdate e node info delta incoming = .ok update) :
    update.info = info ∧ update.delta = delta ∧ update.incoming = incoming ∧
      e.paymentsSummary ch.overflow (some info) none = .ok update.outgoing ∧
      node.validatePayments ch.overflow ch.validator ch.id0 incoming update.outgoing delta =
        .ok () := by
  obtain ⟨outgoing, houtgoing, h⟩ := bind_ok h
  obtain ⟨u, hvalid, h⟩ := bind_ok h
  cases h
  exact ⟨rfl, rfl, rfl, houtgoing, hvalid⟩

/-- Under the default filter a released secret has passed the guard on words. -/
theorem getPerCommitmentSecret_ok (hfilter : ch.validator.filter = .default)
    {released : ReleasedSecret} (h : ch.getPerCommitmentSecret e n = .ok released) :
    (n + 2) % 2 ^ 64 ≤ e.nextHolderCommitNum ∧
      ch.overflow.sub INITIAL_COMMITMENT_NUMBER n = (.ok released.index : Result Nat) ∧
      released.secret = ch.keys.releaseCommitmentSecret released.index := by
  obtain ⟨needed, hneeded, h⟩ := bind_ok h
  obtain ⟨u, hguard, h⟩ := bind_ok h
  obtain ⟨index, hindex, h⟩ := bind_ok h
  obtain ⟨u, -, h⟩ := bind_ok h
  cases h
  rw [hfilter, PolicyFilter.default_policyErr_eq_ok, not_lt, Overflow.eq_mod_of_uint hneeded]
    at hguard
  exact ⟨hguard, hindex, rfl⟩

theorem getPerCommitmentPoint_ok {point : PublicKey}
    (h : ch.getPerCommitmentPoint e n = .ok point) : ch.holderPoint n = .ok point := by
  obtain ⟨limit, -, h⟩ := bind_ok h
  obtain ⟨u, -, h⟩ := bind_ok h
  exact h

/-- A checked holder commitment of phase 2 has passed every check. -/
theorem prepareHolderPhase2_ok
    (h : ch.prepareHolderPhase2 call e node n feerate toHolder toCounterparty offered received
      signatures = .ok update) :
    ch.HolderChecked call e node n update ∧ ∃ point, ch.holderPoint n = .ok point ∧
      ch.buildHolderCommitmentInfo point toHolder toCounterparty offered received feerate =
        .ok update.info ∧
      ch.SignaturesPass n point update.info signatures := by
  obtain ⟨point, hpoint, h⟩ := bind_ok h
  obtain ⟨info, hbuild, h⟩ := bind_ok h
  obtain ⟨delta, hdelta, h⟩ := bind_ok h
  obtain ⟨incoming, hincoming, h⟩ := bind_ok h
  obtain ⟨u, hvalid, h⟩ := bind_ok h
  obtain ⟨htlcs, hhtlcs, h⟩ := bind_ok h
  obtain ⟨recomposed, htx, h⟩ := bind_ok h
  obtain ⟨u, hcheck, h⟩ := bind_ok h
  obtain ⟨rfl, rfl, rfl, houtgoing, hpay⟩ := holderUpdate_ok h
  obtain ⟨hside, rfl, rfl, rfl⟩ := buildHolderCommitmentInfo_ok hbuild
  exact ⟨⟨hside, ⟨point, hvalid⟩, ⟨hdelta, hincoming, houtgoing, hpay⟩⟩, point,
    getPerCommitmentPoint_ok hpoint, hbuild, recomposed, ⟨htlcs, hhtlcs, htx⟩, hcheck⟩

/-- A checked holder commitment of phase 1 has passed every check. -/
theorem prepareHolder_ok {tx : Transaction}
    (h : ch.prepareHolder call e node tx witscripts n feerate offered received signatures =
      .ok update) :
    ch.HolderChecked call e node n update ∧ ∃ point decoded, ch.holderPoint n = .ok point ∧
      ch.validator.decodeCommitmentTx ch.keys ch.setup false tx witscripts = .ok decoded ∧
      ch.buildHolderCommitmentInfo point decoded.toBroadcasterValueSat
        decoded.toCountersignerValueSat offered received feerate = .ok update.info ∧
      ch.SignaturesPass n point update.info signatures := by
  obtain ⟨point, hpoint, h⟩ := bind_ok h
  obtain ⟨⟨recomposed, info, incoming⟩, hinfo, h⟩ := bind_ok h
  obtain ⟨delta, hdelta, h⟩ := bind_ok h
  obtain ⟨u, hcheck, h⟩ := bind_ok h
  obtain ⟨rfl, rfl, rfl, houtgoing, hpay⟩ := holderUpdate_ok h
  obtain ⟨u, -, hinfo⟩ := bind_ok hinfo
  obtain ⟨u, -, hinfo⟩ := bind_ok hinfo
  obtain ⟨decoded, hdecoded, hinfo⟩ := bind_ok hinfo
  obtain ⟨info', hbuild, hinfo⟩ := bind_ok hinfo
  obtain ⟨incoming', hincoming, hinfo⟩ := bind_ok hinfo
  obtain ⟨u, hvalid, hinfo⟩ := bind_ok hinfo
  obtain ⟨htlcs, hhtlcs, hinfo⟩ := bind_ok hinfo
  obtain ⟨recomposed', htx, hinfo⟩ := bind_ok hinfo
  obtain ⟨u, -, hinfo⟩ := bind_ok hinfo
  obtain ⟨rfl, rfl, rfl⟩ := by simpa using hinfo
  obtain ⟨hside, hholder, hcounterparty, rfl⟩ := buildHolderCommitmentInfo_ok hbuild
  rw [← hholder, ← hcounterparty] at htx
  exact ⟨⟨hside, ⟨point, hvalid⟩, ⟨hdelta, hincoming, houtgoing, hpay⟩⟩, point, decoded,
    getPerCommitmentPoint_ok hpoint, hdecoded, hbuild, _, ⟨htlcs, hhtlcs, htx⟩, hcheck⟩

/-- The holder transaction built for number `n` is the holder's and carries its index. -/
theorem makeHolderCommitmentTx_ok {keys : TxCreationKeys} {htlcs : List HTLCOutputInCommitment}
    (h : ch.makeHolderCommitmentTx n keys feerate toHolder toCounterparty htlcs = .ok tx) :
    tx.isHolder = true ∧
      ch.overflow.sub INITIAL_COMMITMENT_NUMBER n = (.ok tx.commitmentNumber : Result Nat) := by
  obtain ⟨index, hindex, h⟩ := bind_ok h
  cases h
  exact ⟨rfl, hindex⟩

theorem signHolderInfo_ok (h : ch.signHolderInfo e n info = .ok signed) :
    signed.tx.isHolder = true ∧
      ch.overflow.sub INITIAL_COMMITMENT_NUMBER n =
        (.ok signed.tx.commitmentNumber : Result Nat) := by
  obtain ⟨htlcs, -, h⟩ := bind_ok h
  obtain ⟨point, -, h⟩ := bind_ok h
  obtain ⟨tx, htx, h⟩ := bind_ok h
  obtain ⟨⟨sig, htlcSigs⟩, -, h⟩ := bind_ok h
  cases h
  exact makeHolderCommitmentTx_ok htx

theorem signHolderRedundant_ok
    (h : ch.signHolderRedundant call e n feerate toHolder toCounterparty offered received =
      .ok signed) :
    ch.HolderSignable call e n ∧ signed.tx.isHolder = true ∧
      ch.overflow.sub INITIAL_COMMITMENT_NUMBER n =
        (.ok signed.tx.commitmentNumber : Result Nat) := by
  obtain ⟨point, -, h⟩ := bind_ok h
  obtain ⟨info, -, h⟩ := bind_ok h
  obtain ⟨u, hvalid, h⟩ := bind_ok h
  obtain ⟨htlcs, -, h⟩ := bind_ok h
  obtain ⟨tx, htx, h⟩ := bind_ok h
  obtain ⟨⟨sig, htlcSigs⟩, -, h⟩ := bind_ok h
  cases h
  exact ⟨.redundant point info hvalid, makeHolderCommitmentTx_ok htx⟩

end Channel

/-! ## What is written -/

/-- The enforcement state and the node state once counterparty commitment `n` is signed. -/
structure Channel.CounterpartyAdvanced (ch : Channel) (call : Call) (s : Session) (n : Nat)
    (point : PublicKey) (tx : CommitmentTransaction) (update : CommitmentUpdate)
    (e : EnforcementState) (node : NodeState) : Prop where
  checked : ch.CounterpartyChecked call s.estate s.node n point tx update
  advance : ∃ num, ch.overflow.u64 (n + 1) = (.ok num : Result Nat) ∧
    ch.validator.setNextCounterpartyCommitNum s.estate num point update.info = .ok e
  apply : s.node.applyPayments ch.overflow ch.validator ch.id0 update.incoming update.outgoing
    update.delta = .ok node

/-- The enforcement state and the node state once holder commitment `n` is accepted. -/
structure Channel.HolderAdvanced (ch : Channel) (call : Call) (s : Session) (n : Nat)
    (signatures : CommitmentSignatures) (update : CommitmentUpdate)
    (secret : Option ReleasedSecret) (e : EnforcementState) (node : NodeState) : Prop where
  checked : ch.HolderChecked call s.estate s.node n update
  advance : ∃ num, ch.overflow.u64 (n + 1) = (.ok num : Result Nat) ∧
    ch.validator.setNextHolderCommitNum s.estate num update.info signatures = .ok e
  secret : ch.oldSecret e n = .ok secret
  apply : s.node.applyPayments ch.overflow ch.validator ch.id0 update.incoming update.outgoing
    update.delta = .ok node

/-- The state that has recorded the closing of the channel. -/
def EnforcementState.close (e : EnforcementState) : EnforcementState :=
  { e with channelClosed := true }

/-! ## Outcomes of the operations -/

namespace Channel

variable {ch : Channel} {call : Call} {s t : Session} {n : Nat}
  {feerate toHolder toCounterparty : Nat} {offered received : List HTLCInfo2}
  {signatures : CommitmentSignatures} {point : PublicKey} {r : Result SignedCommitment}
  {update : CommitmentUpdate} {tx : Transaction} {witscripts : List Script}

/-- Advancing to a counterparty commitment, storing and replying. -/
theorem advanceCounterparty_outcome {num : Nat} {reply : SignedCommitment}
    (h : exec (do ch.advanceCounterparty num point update; persist call; return reply) s = (r, t)) :
    Outcome s (fun r t => ∃ e node,
      ch.validator.setNextCounterpartyCommitNum s.estate num point update.info = .ok e ∧
      s.node.applyPayments ch.overflow ch.validator ch.id0 update.incoming update.outgoing
        update.delta = .ok node ∧
      Ended call s.stored e node reply r t) r t := by
  have hflat : exec (do
      let e ← lift (ch.validator.setNextCounterpartyCommitNum s.estate num point update.info)
      setEstate e
      let node ← lift (s.node.applyPayments ch.overflow ch.validator ch.id0 update.incoming
        update.outgoing update.delta)
      setNode node
      persist call
      return reply) s = (r, t) := by
    rw [← h, advanceCounterparty]
    simp only [bind_assoc, exec_get_bind]
  refine .of_lift_bind hflat fun e he hflat => ?_
  rw [setEstate, exec_modify_bind] at hflat
  refine .of_noRefusal_bind (NodeState.noRefusal_applyPayments _ _ _ _ _ _ _) hflat rfl
    fun node hnode hflat => ?_
  rw [setNode, exec_modify_bind] at hflat
  exact .ended ⟨e, node, he, hnode, ended_of_persist hflat⟩

/-- Signing a counterparty commitment of phase 2. -/
theorem signCounterpartyCommitmentTxPhase2_outcome
    (h : exec (ch.signCounterpartyCommitmentTxPhase2 call point n feerate toHolder toCounterparty
      offered received) s = (r, t)) :
    Outcome s (fun r t => ∃ signed update e node,
      ch.buildCounterpartyCommitmentInfo point toHolder toCounterparty offered received feerate =
        .ok update.info ∧
      ch.CounterpartyAdvanced call s n point signed.tx update e node ∧
      Ended call s.stored e node signed r t) r t := by
  rw [signCounterpartyCommitmentTxPhase2, exec_get_bind] at h
  refine .of_lift_bind h ?_
  rintro ⟨signed, update⟩ hprepare h
  refine .of_lift_bind h fun num hnum h => ?_
  obtain ⟨hchecked, hbuild⟩ := prepareCounterpartyPhase2_ok hprepare
  refine (advanceCounterparty_outcome h).imp ?_
  rintro ⟨e, node, he, hnode, h⟩
  exact ⟨signed, update, e, node, hbuild, ⟨hchecked, ⟨num, hnum, he⟩, hnode⟩, h⟩

/-- Signing a counterparty commitment of phase 1. -/
theorem signCounterpartyCommitmentTx_outcome (hn : n < 2 ^ 64)
    (h : exec (ch.signCounterpartyCommitmentTx call tx witscripts point n feerate offered received)
      s = (r, t)) :
    Outcome s (fun r t => ∃ signed update e node,
      (∃ decoded, ch.validator.decodeCommitmentTx ch.keys ch.setup true tx witscripts =
        .ok decoded ∧ ch.buildCounterpartyCommitmentInfo point decoded.toCountersignerValueSat
          decoded.toBroadcasterValueSat offered received feerate = .ok update.info) ∧
      ch.CounterpartyAdvanced call s n point signed.tx update e node ∧
      Ended call s.stored e node signed r t) r t := by
  rw [signCounterpartyCommitmentTx, exec_get_bind] at h
  refine .of_lift_bind h ?_
  rintro ⟨signed, update⟩ hprepare h₁
  refine .of_lift_bind h₁ fun commitNum hcommit h₂ => ?_
  refine .of_lift_bind h₂ fun num hnum h₃ => ?_
  obtain ⟨hchecked, hbuild⟩ := prepareCounterparty_ok hprepare
  obtain ⟨_, _, _, -, -, -, htx⟩ := hchecked.tx
  obtain ⟨index, hindex, htx⟩ := bind_ok htx
  have htx := pure_eq_ok.mp htx
  have hindex' : signed.tx.commitmentNumber = index := by rw [← htx]
  have hpoint : signed.tx.keys.perCommitmentPoint = point := by rw [← htx]; rfl
  rw [hindex'] at hcommit
  obtain rfl := Overflow.sub_sub (by decide) hn hindex hcommit
  rw [hpoint] at h₃
  refine (advanceCounterparty_outcome h₃).imp ?_
  rintro ⟨e, node, he, hnode, h⟩
  exact ⟨⟨signed.tx, signed.signature, []⟩, update, e, node, hbuild,
    ⟨hchecked, ⟨num, hnum, he⟩, hnode⟩, h⟩

/-- Accepting a checked holder commitment. -/
theorem acceptHolder_outcome {r : Result (PublicKey × Option ReleasedSecret)}
    (hchecked : ch.HolderChecked call s.estate s.node n update)
    (h : exec (ch.acceptHolder call n signatures update) s = (r, t)) :
    Outcome s (fun r t => ∃ nextPoint secret e node,
      ch.HolderAdvanced call s n signatures update secret e node ∧
      Ended call s.stored e node (nextPoint, secret) r t) r t := by
  rw [acceptHolder, exec_get_bind, advanceHolderCommitmentState] at h
  simp only [bind_assoc, exec_get_bind, pure_bind] at h
  refine .of_lift_bind h fun num hnum h => ?_
  refine .of_lift_bind h fun e he h => ?_
  rw [setEstate, exec_modify_bind] at h
  refine .of_noRefusal_bind (.unwrap _ _) h rfl fun nextPoint hpoint h => ?_
  refine .of_noRefusal_bind ?_ h rfl fun secret hsecret h => ?_
  · unfold oldSecret
    split
    · exact .bind (.unwrap _ _) fun _ => .ok _
    · exact .ok _
  refine .of_noRefusal_bind (NodeState.noRefusal_applyPayments _ _ _ _ _ _ _) h rfl
    fun node hnode h => ?_
  rw [setNode, exec_modify_bind] at h
  exact .ended ⟨nextPoint, secret, e, node, ⟨hchecked, ⟨num, hnum, he⟩, hsecret, hnode⟩,
    ended_of_persist h⟩

/-- Storing a secret changes nothing but the secrets. -/
theorem storeSecret_ok {e e' : EnforcementState} {secret : Bytes32}
    (h : ch.storeSecret e n secret = .ok e') :
    ∃ secrets, e' = { e with counterpartySecrets := secrets } := by
  unfold storeSecret at h
  cases hsecrets : e.counterpartySecrets with
  | none =>
    simp only [hsecrets, Except.ok.injEq] at h
    exact ⟨e.counterpartySecrets, h.symm⟩
  | some secrets =>
    simp only [hsecrets] at h
    obtain ⟨index, -, h⟩ := bind_ok h
    cases hprovide : secrets.provideSecret ch.library.sha256 index secret with
    | ok secrets' =>
      simp only [hprovide, Except.ok.injEq] at h
      exact ⟨some secrets', h.symm⟩
    | error u =>
      simp only [hprovide] at h
      obtain ⟨u, -, h⟩ := bind_ok h
      exact ⟨e.counterpartySecrets, (pure_eq_ok.mp h).symm⟩

/-- Recording a close, storing and replying. -/
theorem closeWith_ended {α : Type} {reply : α} {r : Result α}
    (h : exec (closeWith call reply) s = (r, t)) :
    Ended call s.stored s.estate.close s.node reply r t := by
  rw [closeWith, exec_modify_bind] at h
  exact ended_of_persist h

/-- Accepting a revocation.  The secret is stored before the counter is checked. -/
theorem validateCounterpartyRevocation_outcome {secret : Bytes32} {r : Result Unit}
    (h : exec (ch.validateCounterpartyRevocation call n secret) s = (r, t)) :
    Outcome s (fun r t => ∃ e,
      ch.validator.validateCounterpartyRevocation s.estate n secret = .ok () ∧
      ch.storeSecret s.estate n secret = .ok e ∧
      ((∃ num refusal, ch.overflow.u64 (n + 1) = (.ok num : Result Nat) ∧
          ch.validator.setNextCounterpartyRevokeNum e num = .error (.refuse refusal) ∧
          r = .error (.refuse refusal) ∧ t = { s with estate := e }) ∨
        ∃ num e', ch.overflow.u64 (n + 1) = (.ok num : Result Nat) ∧
          ch.validator.setNextCounterpartyRevokeNum e num = .ok e' ∧
          Ended call s.stored e' s.node () r t)) r t := by
  rw [validateCounterpartyRevocation, exec_get_bind] at h
  refine .of_lift_bind h fun _ hvalid h => ?_
  refine .of_lift_bind h fun e he h => ?_
  rw [setEstate, exec_modify_bind] at h
  refine .of_noRefusal_bind (.u64 _ _) h rfl fun num hnum h => ?_
  rcases exec_lift_bind_iff.mp h with ⟨fault, hfault, rfl, rfl⟩ | ⟨e', he', h⟩
  · cases fault with
    | refuse refusal => exact .ended ⟨e, hvalid, he, .inl ⟨num, refusal, hnum, hfault, rfl, rfl⟩⟩
    | abort m => exact .aborted m _ rfl
  · rw [setEstate, exec_modify_bind, ← bind_pure (persist call)] at h
    have hended : Ended call _ _ _ () r t := ended_of_persist h
    exact .ended ⟨e, hvalid, he, .inr ⟨num, e', hnum, he', hended⟩⟩

/-- Accepting a holder commitment of phase 2. -/
theorem validateHolderCommitmentTxPhase2_outcome {r : Result (PublicKey × Option ReleasedSecret)}
    (h : exec (ch.validateHolderCommitmentTxPhase2 call n feerate toHolder toCounterparty offered
      received signatures) s = (r, t)) :
    Outcome s (fun r t => ∃ update, (∃ point, ch.holderPoint n = .ok point ∧
        ch.buildHolderCommitmentInfo point toHolder toCounterparty offered received feerate =
          .ok update.info ∧
        ch.SignaturesPass n point update.info signatures) ∧
      ∃ nextPoint secret e node, ch.HolderAdvanced call s n signatures update secret e node ∧
        Ended call s.stored e node (nextPoint, secret) r t) r t := by
  rw [validateHolderCommitmentTxPhase2, exec_get_bind] at h
  refine .of_lift_bind h fun update hprepare h => ?_
  obtain ⟨hchecked, hsignatures⟩ := prepareHolderPhase2_ok hprepare
  exact (acceptHolder_outcome hchecked h).imp fun h => ⟨update, hsignatures, h⟩

/-- Accepting a holder commitment of phase 1. -/
theorem validateHolderCommitmentTx_outcome {r : Result (PublicKey × Option ReleasedSecret)}
    (h : exec (ch.validateHolderCommitmentTx call tx witscripts n feerate offered received
      signatures) s = (r, t)) :
    Outcome s (fun r t => ∃ update, (∃ point decoded, ch.holderPoint n = .ok point ∧
        ch.validator.decodeCommitmentTx ch.keys ch.setup false tx witscripts = .ok decoded ∧
        ch.buildHolderCommitmentInfo point decoded.toBroadcasterValueSat
          decoded.toCountersignerValueSat offered received feerate = .ok update.info ∧
        ch.SignaturesPass n point update.info signatures) ∧
      ∃ nextPoint secret e node, ch.HolderAdvanced call s n signatures update secret e node ∧
        Ended call s.stored e node (nextPoint, secret) r t) r t := by
  rw [validateHolderCommitmentTx, exec_get_bind] at h
  refine .of_lift_bind h fun update hprepare h => ?_
  obtain ⟨hchecked, hsignatures⟩ := prepareHolder_ok hprepare
  exact (acceptHolder_outcome hchecked h).imp fun h => ⟨update, hsignatures, h⟩

/-- What is known of a signed holder commitment. -/
structure HolderSigned (ch : Channel) (call : Call) (e : EnforcementState) (n : Nat)
    (signed : SignedCommitment) : Prop where
  signable : ch.HolderSignable call e n
  isHolder : signed.tx.isHolder = true
  index : ch.overflow.sub INITIAL_COMMITMENT_NUMBER n =
    (.ok signed.tx.commitmentNumber : Result Nat)

/-- Signing the current holder commitment. -/
theorem signHolderCommitmentTxPhase2_outcome
    (h : exec (ch.signHolderCommitmentTxPhase2 call n) s = (r, t)) :
    Outcome s (fun r t => ∃ signed, ch.HolderSigned call s.estate n signed ∧
      Ended call s.stored s.estate.close s.node signed r t) r t := by
  rw [signHolderCommitmentTxPhase2, exec_get_bind] at h
  refine .of_lift_bind h fun info hinfo h => ?_
  refine .of_lift_bind h fun signed hsigned h => ?_
  obtain ⟨hholder, hindex⟩ := signHolderInfo_ok hsigned
  exact .ended ⟨signed, ⟨.current info hinfo, hholder, hindex⟩, closeWith_ended h⟩

/-- Signing the current holder commitment when recovering. -/
theorem signHolderCommitmentTxForRecovery_outcome
    (h : exec (ch.signHolderCommitmentTxForRecovery call) s = (r, t)) :
    Outcome s (fun r t => ∃ n signed, (∃ info, s.estate.currentHolderCommitInfo = some info) ∧
      ch.overflow.sub s.estate.nextHolderCommitNum 1 = (.ok n : Result Nat) ∧
      ch.HolderSigned call s.estate n signed ∧
      Ended call s.stored s.estate.close s.node signed r t) r t := by
  rw [signHolderCommitmentTxForRecovery, exec_get_bind] at h
  refine .of_lift_bind h fun info hinfo h => ?_
  refine .of_lift_bind h fun sigs hsigs h => ?_
  refine .of_lift_bind h fun n hn h => ?_
  refine .of_lift_bind h fun signed hsigned h => ?_
  obtain ⟨hholder, hindex⟩ := signHolderInfo_ok hsigned
  rw [expect_eq_ok] at hinfo
  exact .ended ⟨n, signed, ⟨info, hinfo⟩, hn, ⟨.recovery info hinfo hn, hholder, hindex⟩,
    closeWith_ended h⟩

/-- Signing a holder commitment given by its values. -/
theorem signHolderCommitmentTxPhase2Redundant_outcome
    (h : exec (ch.signHolderCommitmentTxPhase2Redundant call n feerate toHolder toCounterparty
      offered received) s = (r, t)) :
    Outcome s (fun r t => ∃ signed, ch.HolderSigned call s.estate n signed ∧
      Ended call s.stored s.estate.close s.node signed r t) r t := by
  rw [signHolderCommitmentTxPhase2Redundant, exec_get_bind] at h
  refine .of_lift_bind h fun signed hsigned h => ?_
  obtain ⟨hsignable, hholder, hindex⟩ := signHolderRedundant_ok hsigned
  exact .ended ⟨signed, ⟨hsignable, hholder, hindex⟩, closeWith_ended h⟩

/-- Signing a closing transaction of phase 2. -/
theorem signMutualCloseTxPhase2_outcome {holderScript counterpartyScript : Option Script}
    {path : List Nat} {r : Result SignedClose}
    (h : exec (ch.signMutualCloseTxPhase2 call toHolder toCounterparty holderScript
      counterpartyScript path) s = (r, t)) :
    Outcome s (fun r t => ∃ signed, Ended call s.stored s.estate.close s.node signed r t) r t := by
  rw [signMutualCloseTxPhase2, exec_get_bind] at h
  refine .of_lift_bind h fun _ _ h => ?_
  refine .of_lift_bind h fun sig _ h => ?_
  exact .ended ⟨_, closeWith_ended h⟩

theorem signMutualCloseTx_outcome {opaths : List (List Nat)} {r : Result SignedClose}
    (h : exec (ch.signMutualCloseTx call tx opaths) s = (r, t)) :
    Outcome s (fun r t => ∃ signed, Ended call s.stored s.estate.close s.node signed r t) r t := by
  rw [signMutualCloseTx, exec_get_bind] at h
  refine .of_lift_bind h fun _ _ h => ?_
  refine .of_lift_bind h fun _ _ h => ?_
  refine .of_lift_bind h fun sig _ h => ?_
  exact .ended ⟨_, closeWith_ended h⟩

end Channel

end ValidatingSigner
