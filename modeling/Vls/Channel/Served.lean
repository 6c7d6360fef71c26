import Vls.Channel.Outcomes

/-!
# What a request can do to a channel

`Served` lists the ways a request can get past its checks, with what the checks established and what
is written.  `execute_outcome` shows that every other request changes nothing or aborts, and
`step_stepped` carries this to the machine.
-/

namespace ValidatingSigner

open Base Effect

/-! ## Requests -/

/-- The commitment number a request names. -/
def Request.number : Request → Option Nat
  | .getPerCommitmentPoint n => some n.toNat
  | .getPerCommitmentSecret n => some n.toNat
  | .signCounterpartyCommitmentTx _ _ _ n _ _ _ => some n.toNat
  | .signCounterpartyCommitmentTxPhase2 _ n _ _ _ _ _ => some n.toNat
  | .validateHolderCommitmentTx _ _ n _ _ _ _ => some n.toNat
  | .validateHolderCommitmentTxPhase2 n _ _ _ _ _ _ => some n.toNat
  | .validateCounterpartyRevocation n _ => some n.toNat
  | .signHolderCommitmentTxPhase2 n => some n.toNat
  | .signHolderCommitmentTxForRecovery => none
  | .signHolderCommitmentTxPhase2Redundant n _ _ _ _ _ => some n.toNat
  | .signMutualCloseTx _ _ => none
  | .signMutualCloseTxPhase2 _ _ _ _ _ => none

theorem Request.number_lt {request : Request} {n : Nat} (h : request.number = some n) :
    n < 2 ^ 64 := by
  cases request <;> simp only [Request.number, Option.some.injEq, reduceCtorEq] at h <;>
    exact h ▸ UInt64.toNat_lt _

/-- The holder commitment a request presents: its number, its point, its description and the
counterparty's signatures. -/
def Channel.presented (ch : Channel) :
    Request → Option (Nat × PublicKey × CommitmentInfo2 × CommitmentSignatures)
  | .validateHolderCommitmentTx tx witscripts n feerate offered received signatures =>
    let commitment := do
      let point ← ch.holderPoint n.toNat
      let decoded ← ch.validator.decodeCommitmentTx ch.keys ch.setup false tx witscripts
      let info ← ch.buildHolderCommitmentInfo point decoded.toBroadcasterValueSat
        decoded.toCountersignerValueSat offered received feerate
      return (point, info)
    commitment.toOption.map fun (point, info) => (n.toNat, point, info, signatures)
  | .validateHolderCommitmentTxPhase2 n feerate toHolder toCounterparty offered received
      signatures =>
    let commitment := do
      let point ← ch.holderPoint n.toNat
      let info ← ch.buildHolderCommitmentInfo point toHolder toCounterparty offered received feerate
      return (point, info)
    commitment.toOption.map fun (point, info) => (n.toNat, point, info, signatures)
  | _ => none

/-- The counterparty commitment a request asks to sign: its number, its point and its
description. -/
def Channel.proposed (ch : Channel) : Request → Option (Nat × PublicKey × CommitmentInfo2)
  | .signCounterpartyCommitmentTx tx witscripts point n feerate offered received =>
    let info := do
      let decoded ← ch.validator.decodeCommitmentTx ch.keys ch.setup true tx witscripts
      ch.buildCounterpartyCommitmentInfo point decoded.toCountersignerValueSat
        decoded.toBroadcasterValueSat offered received feerate
    info.toOption.map fun info => (n.toNat, point, info)
  | .signCounterpartyCommitmentTxPhase2 point n feerate toHolder toCounterparty offered received =>
    let info := ch.buildCounterpartyCommitmentInfo point toHolder toCounterparty offered received
      feerate
    info.toOption.map fun info => (n.toNat, point, info)
  | _ => none

/-! ## Served requests -/

/-- The ways a request can get past its checks. -/
inductive Channel.Served (ch : Channel) (call : Call) (s : Session) (request : Request) :
    Result Reply → Session → Prop where
  | point (point : PublicKey) : Served ch call s request (.ok (.point point)) s
  | secret (n : UInt64) (released : ReleasedSecret)
      (hrequest : request = .getPerCommitmentSecret n)
      (h : ch.getPerCommitmentSecret s.estate n.toNat = .ok released) :
      Served ch call s request (.ok (.secret released)) s
  | counterparty {n : Nat} {point : PublicKey} {signed : SignedCommitment}
      {update : CommitmentUpdate} {e : EnforcementState} {node : NodeState} {r : Result Reply}
      {t : Session} (hn : request.number = some n)
      (hproposed : ch.proposed request = some (n, point, update.info))
      (h : ch.CounterpartyAdvanced call s n point signed.tx update e node)
      (hended : Ended call s.stored e node (.counterpartySigned signed) r t) :
      Served ch call s request r t
  | holder {n : Nat} {signatures : CommitmentSignatures} {update : CommitmentUpdate}
      {nextPoint : PublicKey} {secret : Option ReleasedSecret} {e : EnforcementState}
      {node : NodeState} {r : Result Reply} {t : Session} (hn : request.number = some n)
      (h : ch.HolderAdvanced call s n signatures update secret e node)
      (hended : Ended call s.stored e node (.holderAccepted nextPoint secret) r t) :
      Served ch call s request r t
  | holderSigned {n : Nat} {signed : SignedCommitment} {r : Result Reply} {t : Session}
      (hn : request.number = some n ∨
        ((∃ info, s.estate.currentHolderCommitInfo = some info) ∧
          ch.overflow.sub s.estate.nextHolderCommitNum 1 = (.ok n : Result Nat)))
      (h : ch.HolderSigned call s.estate n signed)
      (hended : Ended call s.stored s.estate.close s.node (.holderSigned signed) r t) :
      Served ch call s request r t
  | closeSigned {signed : SignedClose} {r : Result Reply} {t : Session}
      (hended : Ended call s.stored s.estate.close s.node (.closeSigned signed) r t) :
      Served ch call s request r t
  | revocationStored {n : Nat} {secret : Bytes32} {e : EnforcementState} (refusal : Refusal)
      (hn : request.number = some n)
      (hvalid : ch.validator.validateCounterpartyRevocation s.estate n secret = .ok ())
      (hstore : ch.storeSecret s.estate n secret = .ok e) :
      Served ch call s request (.error (.refuse refusal)) { s with estate := e }
  | revocation {n num : Nat} {secret : Bytes32} {e e' : EnforcementState} {r : Result Reply}
      {t : Session} (hn : request.number = some n)
      (hvalid : ch.validator.validateCounterpartyRevocation s.estate n secret = .ok ())
      (hstore : ch.storeSecret s.estate n secret = .ok e)
      (hnum : ch.overflow.u64 (n + 1) = (.ok num : Result Nat))
      (hset : ch.validator.setNextCounterpartyRevokeNum e num = .ok e')
      (hended : Ended call s.stored e' s.node .revocationAccepted r t) :
      Served ch call s request r t

theorem Ended.map {α β : Type} {call : Call} {before e : EnforcementState} {node : NodeState}
    {reply : α} {r : Result α} {t : Session} (f : α → β)
    (h : Ended call before e node reply r t) :
    Ended call before e node (f reply) (r.map f) t := by
  cases h with
  | stored h => exact .stored h
  | notStored h => exact .notStored h

theorem Ended.next_eq {α : Type} {call : Call} {before e e₀ : EnforcementState} {node : NodeState}
    {reply : α} {r : Result α} {t : Session} (h : Ended call before e node reply r t)
    (he : e.nextHolderCommitNum = e₀.nextHolderCommitNum) :
    t.estate.nextHolderCommitNum = e₀.nextHolderCommitNum := by
  rw [h.estate_eq, he]

theorem Outcome.map {α β : Type} {s t : Session} {P : Result α → Session → Prop}
    {Q : Result β → Session → Prop} {r : Result α} (f : α → β) (h : Outcome s P r t)
    (hpq : P r t → Q (r.map f) t) : Outcome s Q (r.map f) t := by
  cases h with
  | failed fault => exact .failed fault
  | aborted m t h => exact .aborted m t h
  | ended h => exact .ended (hpq h)

namespace Channel

variable {ch : Channel} {call : Call} {s t : Session} {request : Request} {r : Result Reply}

theorem CounterpartyAdvanced.next_eq {α : Type} {n : Nat} {point : PublicKey}
    {tx : CommitmentTransaction} {update : CommitmentUpdate} {e : EnforcementState}
    {node : NodeState} {reply : α} {r : Result α}
    (h : ch.CounterpartyAdvanced call s n point tx update e node)
    (hended : Ended call s.stored e node reply r t) :
    t.estate.nextHolderCommitNum = s.estate.nextHolderCommitNum := by
  obtain ⟨num, -, hset⟩ := h.advance
  exact hended.next_eq (Validator.next_setNextCounterpartyCommitNum hset)

theorem next_storeSecret {e e' : EnforcementState} {n : Nat} {secret : Bytes32}
    (h : ch.storeSecret e n secret = .ok e') : e'.nextHolderCommitNum = e.nextHolderCommitNum := by
  obtain ⟨secrets, rfl⟩ := storeSecret_ok h
  rfl

/-- A request changes nothing, aborts, or is served; one that moves the holder counter advances past
the commitment it presents, whose signatures pass. -/
theorem execute_presented (h : exec (ch.execute call request) s = (r, t)) :
    Outcome s (fun r t => ch.Served call s request r t ∧
      (t.estate.nextHolderCommitNum = s.estate.nextHolderCommitNum ∨
        ∃ n point signatures update secret, request.number = some n ∧
          ch.presented request = some (n, point, update.info, signatures) ∧
          ch.SignaturesPass n point update.info signatures ∧
          ch.HolderAdvanced call s n signatures update secret t.estate t.node)) r t := by
  -- Only the two requests that accept a holder commitment take the second disjunct.
  cases request with
  | getPerCommitmentPoint n =>
    rw [execute, exec_get_bind] at h
    refine Outcome.of_lift_bind h fun point _ h => ?_
    cases h
    exact .ended ⟨.point point, .inl rfl⟩
  | getPerCommitmentSecret n =>
    rw [execute, exec_get_bind] at h
    refine Outcome.of_lift_bind h fun secret hsecret h => ?_
    cases h
    exact .ended ⟨.secret n secret rfl hsecret, .inl rfl⟩
  | signCounterpartyCommitmentTx tx witscripts point n feerate offered received =>
    obtain ⟨r₀, hop, rfl⟩ := exec_bind_pure h
    refine (signCounterpartyCommitmentTx_outcome (UInt64.toNat_lt n) hop).map _ ?_
    rintro ⟨signed, update, e, node, ⟨decoded, hdecoded, hbuild⟩, h, hended⟩
    refine ⟨.counterparty rfl ?_ h (hended.map _), .inl (h.next_eq hended)⟩
    simp only [proposed, hdecoded, ok_bind, hbuild]
    rfl
  | signCounterpartyCommitmentTxPhase2 point n feerate toHolder toCounterparty offered received =>
    obtain ⟨r₀, hop, rfl⟩ := exec_bind_pure h
    refine (signCounterpartyCommitmentTxPhase2_outcome hop).map _ ?_
    rintro ⟨signed, update, e, node, hbuild, h, hended⟩
    refine ⟨.counterparty rfl ?_ h (hended.map _), .inl (h.next_eq hended)⟩
    simp only [proposed, hbuild]
    rfl
  | validateHolderCommitmentTx tx witscripts n feerate offered received signatures =>
    obtain ⟨r₀, hop, rfl⟩ := exec_bind_pure h
    refine (validateHolderCommitmentTx_outcome hop).map _ ?_
    rintro ⟨update, ⟨point, decoded, hpoint, hdecoded, hbuild, hsignatures⟩, nextPoint, secret, e,
      node, h, hended⟩
    refine ⟨.holder rfl h (hended.map fun a => Reply.holderAccepted a.1 a.2),
      .inr ⟨_, point, signatures, update, secret, rfl, ?_, hsignatures, ?_⟩⟩
    · simp only [presented, hpoint, hdecoded, ok_bind, hbuild]
      rfl
    · exact hended.estate_eq ▸ hended.node_eq ▸ h
  | validateHolderCommitmentTxPhase2 n feerate toHolder toCounterparty offered received
      signatures =>
    obtain ⟨r₀, hop, rfl⟩ := exec_bind_pure h
    refine (validateHolderCommitmentTxPhase2_outcome hop).map _ ?_
    rintro ⟨update, ⟨point, hpoint, hbuild, hsignatures⟩, nextPoint, secret, e, node, h, hended⟩
    refine ⟨.holder rfl h (hended.map fun a => Reply.holderAccepted a.1 a.2),
      .inr ⟨_, point, signatures, update, secret, rfl, ?_, hsignatures, ?_⟩⟩
    · simp only [presented, hpoint, ok_bind, hbuild]
      rfl
    · exact hended.estate_eq ▸ hended.node_eq ▸ h
  | validateCounterpartyRevocation n secret =>
    obtain ⟨r₀, hop, rfl⟩ := exec_bind_pure h
    refine (validateCounterpartyRevocation_outcome hop).map _ ?_
    rintro ⟨e, hvalid, hstore, ⟨_, refusal, -, -, rfl, rfl⟩ | ⟨num, e', hnum, hset, hended⟩⟩
    · exact ⟨.revocationStored refusal rfl hvalid hstore, .inl (next_storeSecret hstore)⟩
    · refine ⟨.revocation rfl hvalid hstore hnum hset (hended.map fun _ =>
        Reply.revocationAccepted), .inl ?_⟩
      exact hended.next_eq ((Validator.next_setNextCounterpartyRevokeNum hset).trans
        (next_storeSecret hstore))
  | signHolderCommitmentTxPhase2 n =>
    obtain ⟨r₀, hop, rfl⟩ := exec_bind_pure h
    refine (signHolderCommitmentTxPhase2_outcome hop).map _ ?_
    rintro ⟨signed, h, hended⟩
    exact ⟨.holderSigned (.inl rfl) h (hended.map _), .inl (hended.next_eq rfl)⟩
  | signHolderCommitmentTxForRecovery =>
    obtain ⟨r₀, hop, rfl⟩ := exec_bind_pure h
    refine (signHolderCommitmentTxForRecovery_outcome hop).map _ ?_
    rintro ⟨n, signed, hinfo, hn, h, hended⟩
    exact ⟨.holderSigned (.inr ⟨hinfo, hn⟩) h (hended.map _), .inl (hended.next_eq rfl)⟩
  | signHolderCommitmentTxPhase2Redundant n feerate toHolder toCounterparty offered received =>
    obtain ⟨r₀, hop, rfl⟩ := exec_bind_pure h
    refine (signHolderCommitmentTxPhase2Redundant_outcome hop).map _ ?_
    rintro ⟨signed, h, hended⟩
    exact ⟨.holderSigned (.inl rfl) h (hended.map _), .inl (hended.next_eq rfl)⟩
  | signMutualCloseTx tx opaths =>
    obtain ⟨r₀, hop, rfl⟩ := exec_bind_pure h
    refine (signMutualCloseTx_outcome hop).map _ ?_
    rintro ⟨signed, hended⟩
    exact ⟨.closeSigned (hended.map _), .inl (hended.next_eq rfl)⟩
  | signMutualCloseTxPhase2 toHolder toCounterparty holderScript counterpartyScript path =>
    obtain ⟨r₀, hop, rfl⟩ := exec_bind_pure h
    refine (signMutualCloseTxPhase2_outcome hop).map _ ?_
    rintro ⟨signed, hended⟩
    exact ⟨.closeSigned (hended.map _), .inl (hended.next_eq rfl)⟩

theorem execute_outcome (h : exec (ch.execute call request) s = (r, t)) :
    Outcome s (ch.Served call s request) r t :=
  (execute_presented h).imp And.left

/-- A served request does not abort. -/
theorem Served.settle_eq (h : ch.Served call s request r t) :
    settle (r, t) = (⟨some t.estate, t.stored⟩, some r) := by
  cases h with
  | point point => rfl
  | secret n released hn h => rfl
  | revocationStored refusal hn hvalid hstore => rfl
  | counterparty _ _ _ hended => cases hended <;> rfl
  | holder _ _ hended => cases hended <;> rfl
  | holderSigned _ _ hended => cases hended <;> rfl
  | closeSigned hended => cases hended <;> rfl
  | revocation _ _ _ _ _ hended => cases hended <;> rfl

/-- What one event can do to a channel. -/
inductive Stepped (ch : Channel) (slot : Slot) :
    ChannelEvent → Option (Result Reply) → Slot → Prop where
  | restart : Stepped ch slot .restart none ⟨some slot.stored, slot.stored⟩
  | failed (node : NodeState) (call : Call) (request : Request) (fault : Fault Refusal)
      (live : Option EnforcementState) (h : live = none ∨ live = slot.live) :
      Stepped ch slot (.request node call request) (some (.error fault)) ⟨live, slot.stored⟩
  | served {node : NodeState} {call : Call} {request : Request} {e : EnforcementState}
      {r : Result Reply} {t : Session} (hlive : slot.live = some e)
      (h : ch.Served call ⟨e, node, slot.stored⟩ request r t) :
      Stepped ch slot (.request node call request) (some r) ⟨some t.estate, t.stored⟩

/-- Every event does one of these things. -/
theorem step_stepped (ch : Channel) (slot : Slot) (event : ChannelEvent) :
    ch.Stepped slot event (ch.step slot event).2 (ch.step slot event).1 := by
  cases event with
  | restart => exact .restart
  | request node call request =>
    cases hlive : slot.live with
    | none =>
      have hstep : ch.step slot (.request node call request) =
          (⟨none, slot.stored⟩, some (.error (.abort "the signer is not running"))) := by
        obtain ⟨live, stored⟩ := slot
        subst hlive
        rfl
      rw [hstep]
      exact .failed node call request _ none (.inl rfl)
    | some e =>
      rcases hexec : exec (ch.execute call request) ⟨e, node, slot.stored⟩ with ⟨r, t⟩
      have hstep : ch.step slot (.request node call request) = settle (r, t) := by
        simp only [step, hlive, hexec]
      rw [hstep]
      cases execute_outcome hexec with
      | failed fault =>
        cases fault with
        | refuse e => exact .failed node call request _ _ (.inr hlive.symm)
        | abort m => exact .failed node call request _ none (.inl rfl)
      | aborted m t h =>
        have hstored : t.stored = slot.stored := h
        simp only [settle, hstored]
        exact .failed node call request _ none (.inl rfl)
      | ended h =>
        rw [h.settle_eq]
        exact .served hlive h

end Channel

end ValidatingSigner
