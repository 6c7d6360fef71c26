import Vls.Channel.Outcomes
import Vls.Channel.Scripts

/-!
# The two forms of a commitment request

A commitment can be given as a transaction with the witness scripts of its outputs, or by its
values.  On a transaction that was built from the values both forms make the same checks and lead to
the same states, up to what the decoder cannot read and, for holder commitments, the check of the
channel value, which only the first form makes.
-/

namespace ValidatingSigner

open Base Effect CommitmentTransaction Sample List

/-- The values a commitment is given by. -/
structure CommitmentArgs where
  commitmentNumber : Nat
  feeratePerKw : Nat
  toHolderValueSat : Nat
  toCounterpartyValueSat : Nat
  offeredHtlcs : List HTLCInfo2
  receivedHtlcs : List HTLCInfo2

/-- Two operations agree: both succeed or neither does, and they leave the same channel and node. -/
def Agree {α β : Type} (r : Result α × Session) (r' : Result β × Session) : Prop :=
  r.1.isOk = r'.1.isOk ∧ r.2.estate = r'.2.estate ∧ r.2.node = r'.2.node

/-- An operation fails and leaves the channel and the node as it found them. -/
def Refuses {α : Type} (r : Result α × Session) (s : Session) : Prop :=
  r.1.isOk = false ∧ r.2.estate = s.estate ∧ r.2.node = s.node

variable {s : Session}

/-- Operations with the same first part agree when their second parts do. -/
theorem Agree.bind {α β γ : Type} {x : Op α} {f : α → Op β} {g : α → Op γ}
    (h : ∀ a t, Agree (exec (f a) t) (exec (g a) t)) :
    Agree (exec (x >>= f) s) (exec (x >>= g) s) := by
  rw [exec_bind, exec_bind]
  rcases exec x s with ⟨_ | a, t⟩
  · exact ⟨rfl, rfl, rfl⟩
  · exact h a t

/-- Operations whose checks pass together agree when what follows does. -/
theorem Agree.of_lift {α β γ δ : Type} {x : Result α} {y : Result β} {f : α → Op γ} {g : β → Op δ}
    (hx : ∀ a, x = .ok a → ∃ b, y = .ok b)
    (hy : ∀ b, y = .ok b → ∃ a, x = .ok a ∧ Agree (exec (f a) s) (exec (g b) s)) :
    Agree (exec (lift x >>= f) s) (exec (lift y >>= g) s) := by
  cases y with
  | ok b =>
    obtain ⟨a, rfl, hagree⟩ := hy b rfl
    exact hagree
  | error fault =>
    cases x with
    | error fault' => exact ⟨rfl, rfl, rfl⟩
    | ok a =>
      obtain ⟨b, hb⟩ := hx a rfl
      cases hb

theorem Refuses.of_lift {α β : Type} {x : Result α} {f : α → Op β} (hx : ∀ a, x ≠ .ok a) :
    Refuses (exec (lift x >>= f) s) s := by
  cases x with
  | error fault => exact ⟨rfl, rfl, rfl⟩
  | ok a => exact absurd rfl (hx a)

namespace Channel

/-- What is assumed of the commitment builder and of signing: the order in which HTLCs are listed
decides neither which transaction is built nor whether it is signed. -/
structure OrderFree (ch : Channel) : Prop where
  built : ∀ (tx : CommitmentTransaction) (htlcs : List HTLCOutputInCommitment),
    htlcs.Perm tx.htlcs →
      ch.library.builtTransaction { tx with htlcs := htlcs } = ch.library.builtTransaction tx
  signed : ∀ (tx : CommitmentTransaction) (htlcs : List HTLCOutputInCommitment),
    htlcs.Perm tx.htlcs → (ch.keys.signCounterpartyCommitment { tx with htlcs := htlcs }).isSome =
      (ch.keys.signCounterpartyCommitment tx).isSome

/-- What is assumed of the libraries, of signing and of the validator's decoder. -/
structure ReadsScripts (ch : Channel) (W : ScriptWriter) (S : ScriptLibrary) : Prop where
  scripts : W.Lawful S ch.library
  orderFree : ch.OrderFree
  decoder : ∃ filter o, ch.validator.decodeCommitmentTx = decodeCommitmentTx filter o S

/-- The witness scripts are those of the outputs of the transaction built for `tx`, whose keys are
points. -/
structure Presented (ch : Channel) (W : ScriptWriter) (S : ScriptLibrary)
    (tx : CommitmentTransaction) (witscripts : List Script) : Prop where
  points : tx.PaysPoints W
  written : tx.WrittenAs ch.library W S (ch.library.builtTransaction tx) witscripts

theorem Presented.length_eq {ch : Channel} {W : ScriptWriter} {S : ScriptLibrary}
    {tx : CommitmentTransaction} {witscripts : List Script} (h : ch.Presented W S tx witscripts) :
    (ch.library.builtTransaction tx).output.length = witscripts.length := by
  obtain ⟨-, order, -, houtput, rfl⟩ := h.written
  rw [houtput, length_map, length_map]

variable (ch : Channel)

/-- The counterparty's commitment transaction with the given values. -/
def builtCounterparty (point : PublicKey) (args : CommitmentArgs) :
    Result CommitmentTransaction := do
  let htlcs ← htlcsInfo2ToOic ch.overflow args.offeredHtlcs args.receivedHtlcs
  ch.makeCounterpartyCommitmentTx point args.commitmentNumber args.feeratePerKw
    args.toHolderValueSat args.toCounterpartyValueSat htlcs

/-- The holder's commitment transaction with the given values. -/
def builtHolder (point : PublicKey) (args : CommitmentArgs) : Result CommitmentTransaction := do
  let htlcs ← htlcsInfo2ToOic ch.overflow args.offeredHtlcs args.receivedHtlcs
  ch.makeHolderCommitmentTx args.commitmentNumber (ch.makeHolderTxKeys point) args.feeratePerKw
    args.toHolderValueSat args.toCounterpartyValueSat htlcs

/-- The decoder can read a commitment: the broadcaster's output, if there is one, has a delay of at
most `MAX_DELAY`, and no received HTLC expires at `2 ^ 31` or later. -/
def Readable (toBroadcasterValueSat contestDelay : Nat) (receivedHtlcs : List HTLCInfo2) : Prop :=
  (0 < toBroadcasterValueSat → contestDelay ≤ 2016) ∧ ∀ h ∈ receivedHtlcs, h.cltvExpiry < 2 ^ 31

end Channel

/-! ## HTLCs -/

variable {offered received : List HTLCInfo2}

/-- HTLCs are converted when every amount can be. -/
theorem htlcsInfo2ToOic_eq_ok {o : Overflow}
    (h : ∀ htlc ∈ offered ++ received, ∃ r, (o.u64 (htlc.valueSat * 1000) : Result Nat) = .ok r) :
    ∃ htlcs, htlcsInfo2ToOic o offered received = .ok htlcs := by
  have hlist (isOffered : Bool) {l : List HTLCInfo2} (hl : ∀ htlc ∈ l, htlc ∈ offered ++ received) :
      ∃ out, l.mapM (fun htlc => (do
        let amountMsat ← o.u64 (htlc.valueSat * 1000)
        return ⟨isOffered, amountMsat, htlc.cltvExpiry, htlc.paymentHash, none⟩ :
          Result HTLCOutputInCommitment)) = .ok out := by
    refine mapM_ok_iff.mpr fun htlc hhtlc => ?_
    obtain ⟨r, hr⟩ := h htlc (hl htlc hhtlc)
    exact ⟨_, bind_eq_ok.mpr ⟨r, hr, rfl⟩⟩
  obtain ⟨a, ha⟩ := hlist true fun _ => mem_append_left received
  obtain ⟨b, hb⟩ := hlist false fun _ => mem_append_right offered
  exact ⟨a ++ b, bind_eq_ok.mpr ⟨a, ha, bind_eq_ok.mpr ⟨b, hb, rfl⟩⟩⟩

/-- The amounts of converted HTLCs can be converted. -/
theorem amounts_of_htlcsInfo2ToOic {o : Overflow} {htlcs : List HTLCOutputInCommitment}
    (h : htlcsInfo2ToOic o offered received = .ok htlcs) :
    ∀ htlc ∈ offered ++ received, ∃ r, (o.u64 (htlc.valueSat * 1000) : Result Nat) = .ok r := by
  obtain ⟨a, ha, h⟩ := bind_ok h
  obtain ⟨b, hb, -⟩ := bind_ok h
  intro htlc hmem
  rcases mem_append.mp hmem with hmem | hmem
  · obtain ⟨_, hout⟩ := exists_of_mapM ha hmem
    obtain ⟨r, hr, -⟩ := bind_ok hout
    exact ⟨r, hr⟩
  · obtain ⟨_, hout⟩ := exists_of_mapM hb hmem
    obtain ⟨r, hr, -⟩ := bind_ok hout
    exact ⟨r, hr⟩

/-- The decoder can read the outputs of a commitment exactly when it can read its delay and its
received HTLCs. -/
theorem CommitmentTransaction.decodable_iff {tx : CommitmentTransaction}
    (htlcs : tx.htlcs = offered.map (HTLCInfo2.toOic true) ++
      received.map (HTLCInfo2.toOic false)) :
    (∀ out ∈ tx.outputs, out.Decodable) ↔
      Channel.Readable tx.toBroadcasterValueSat tx.contestDelay received := by
  have hmem (out : CommitmentOutput) : out ∈ tx.outputs → out.Decodable ∨
      (∃ h ∈ received, out = .htlc (h.toOic false)) ∨ 0 < tx.toBroadcasterValueSat ∧
        out = .toBroadcaster tx.toBroadcasterValueSat tx.keys.revocationKey tx.contestDelay
          tx.keys.broadcasterDelayedPaymentKey := by
    intro hout
    simp only [outputs, mem_append, mem_ite_nil_right, mem_singleton,
      mem_map, htlcs] at hout
    rcases hout with (((⟨-, rfl⟩ | ⟨hvalue, rfl⟩) | ⟨-, rfl⟩) | ⟨-, rfl⟩) |
      ⟨_, ⟨h, -, rfl⟩ | ⟨h, hreceived, rfl⟩, rfl⟩
    · exact .inl trivial
    · exact .inr (.inr ⟨hvalue, rfl⟩)
    · exact .inl trivial
    · exact .inl trivial
    · exact .inl (.inl rfl)
    · exact .inr (.inl ⟨h, hreceived, rfl⟩)
  constructor
  · intro hall
    refine ⟨fun hvalue => ?_, fun h hreceived => ?_⟩
    · refine hall (.toBroadcaster tx.toBroadcasterValueSat tx.keys.revocationKey tx.contestDelay
        tx.keys.broadcasterDelayedPaymentKey) ?_
      simp [outputs, hvalue]
    · have hdecodable := hall (.htlc (h.toOic false)) (by
        simp only [outputs, mem_append, htlcs, mem_map]
        exact .inr ⟨_, .inr ⟨h, hreceived, rfl⟩, rfl⟩)
      exact hdecodable.resolve_left Bool.false_ne_true
  · rintro ⟨hdelay, hreceived⟩ out hout
    rcases hmem out hout with hdecodable | ⟨h, hh, rfl⟩ | ⟨hvalue, rfl⟩
    · exact hdecodable
    · exact .inr (hreceived h hh)
    · exact hdelay hvalue

namespace Channel

/-- Commitments are made with the HTLCs that are given, and otherwise alike. -/
def Places (make : List HTLCOutputInCommitment → Result CommitmentTransaction) : Prop :=
  ∀ htlcs tx, make htlcs = .ok tx →
    tx.htlcs = htlcs ∧ ∀ htlcs', make htlcs' = .ok { tx with htlcs := htlcs' }

variable {ch : Channel} {W : ScriptWriter} {S : ScriptLibrary} {call : Call}
  {e : EnforcementState} {node : NodeState} {point : PublicKey} {args : CommitmentArgs}
  {tx : CommitmentTransaction} {witscripts : List Script} {update : CommitmentUpdate}
  {htlcs : List HTLCOutputInCommitment} {info : CommitmentInfo2}
  {n feerate toHolder toCounterparty : Nat}

theorem places_counterparty :
    Places (ch.makeCounterpartyCommitmentTx point n feerate toHolder toCounterparty) := by
  intro htlcs tx h
  obtain ⟨index, hindex, h⟩ := bind_ok h
  cases h
  exact ⟨rfl, fun htlcs' => bind_eq_ok.mpr ⟨index, hindex, rfl⟩⟩

theorem places_holder {keys : TxCreationKeys} :
    Places (ch.makeHolderCommitmentTx n keys feerate toHolder toCounterparty) := by
  intro htlcs tx h
  obtain ⟨index, hindex, h⟩ := bind_ok h
  cases h
  exact ⟨rfl, fun htlcs' => bind_eq_ok.mpr ⟨index, hindex, rfl⟩⟩

/-- A commitment made with converted HTLCs lists them. -/
theorem Places.built_ok {make : List HTLCOutputInCommitment → Result CommitmentTransaction}
    (hmake : Places make) {o : Overflow}
    (h : htlcsInfo2ToOic o offered received >>= make = .ok tx) :
    ∃ htlcs, htlcsInfo2ToOic o offered received = .ok htlcs ∧ make htlcs = .ok tx ∧
      tx.htlcs = offered.map (HTLCInfo2.toOic true) ++ received.map (HTLCInfo2.toOic false) := by
  obtain ⟨htlcs, hhtlcs, h⟩ := bind_ok h
  exact ⟨htlcs, hhtlcs, h, (hmake htlcs tx h).1.trans (htlcsInfo2ToOic_ok hhtlcs)⟩

/-! ## Signing a counterparty commitment -/

section Counterparty

variable {signed : SignedCommitment} {incoming : EnforcementState.Summary}

/-- A commitment with its HTLCs listed otherwise is signed like it, with the same payments. -/
theorem signedCounterpartyUpdate_perm (hfree : ch.OrderFree) (hperm : htlcs.Perm tx.htlcs)
    {failure : String} {delta : BalanceDelta}
    (h : ch.signedCounterpartyUpdate e node failure tx info delta incoming = .ok (signed, update))
    (failure' : String) :
    ∃ signed', ch.signedCounterpartyUpdate e node failure' { tx with htlcs := htlcs } info delta
      incoming = .ok (signed', update) ∧ signed'.tx = { tx with htlcs := htlcs } := by
  obtain ⟨sigs, hsigs, h⟩ := bind_ok h
  have hsome : (ch.keys.signCounterpartyCommitment { tx with htlcs := htlcs }).isSome = true := by
    rw [hfree.signed tx htlcs hperm]
    cases hsign : ch.keys.signCounterpartyCommitment tx with
    | none =>
      rw [hsign] at hsigs
      exact (nomatch hsigs)
    | some _ => rfl
  obtain ⟨sigs', hsigs'⟩ := Option.isSome_iff_exists.mp hsome
  obtain ⟨outgoing, houtgoing, h⟩ := bind_ok h
  obtain ⟨_, hpayments, h⟩ := bind_ok h
  obtain ⟨-, rfl⟩ := Prod.mk.inj (pure_eq_ok.mp h)
  refine ⟨⟨{ tx with htlcs := htlcs }, sigs'.1, sigs'.2⟩, ?_, rfl⟩
  rw [signedCounterpartyUpdate, hsigs']
  exact bind_eq_ok.mpr ⟨sigs', rfl, bind_eq_ok.mpr ⟨outgoing, houtgoing,
    bind_eq_ok.mpr ⟨_, hpayments, rfl⟩⟩⟩

theorem validatedCounterpartyInfo_htlcs {n feerate toHolder toCounterparty : Nat}
    {offered received : List HTLCInfo2} {delta : BalanceDelta}
    (h : ch.validatedCounterpartyInfo call e node point n feerate toHolder toCounterparty offered
      received = .ok (info, delta, incoming)) :
    info.offeredHtlcs.Perm offered ∧ info.receivedHtlcs.Perm received := by
  obtain ⟨-, -, -, -, hoffered, hreceived⟩ :=
    buildCounterpartyCommitmentInfo_ok (validatedCounterpartyInfo_ok h).1
  rw [hoffered, hreceived]
  exact ⟨sortHtlcs_perm offered, sortHtlcs_perm received⟩

variable (hch : ch.ReadsScripts W S) (hbuilt : ch.builtCounterparty point args = .ok tx)
  (htx : ch.Presented W S tx witscripts)

include hch hbuilt htx

/-- The values read off a counterparty commitment are those it was built from. -/
theorem decode_counterparty_iff {info : CommitmentInfo} :
    ch.validator.decodeCommitmentTx ch.keys ch.setup true (ch.library.builtTransaction tx)
        witscripts = .ok info ↔
      Readable args.toCounterpartyValueSat ch.setup.holderSelectedContestDelay args.receivedHtlcs ∧
        info = ⟨args.toHolderValueSat, args.toCounterpartyValueSat⟩ := by
  obtain ⟨htlcs, -, hmake, hhtlcs⟩ := places_counterparty.built_ok hbuilt
  obtain ⟨index, -, hmake⟩ := bind_ok hmake
  cases hmake
  obtain ⟨filter, o, hdecode⟩ := hch.decoder
  rw [hdecode, decode_built_iff hch.scripts ⟨rfl, rfl⟩ htx.points
    htx.written, decodable_iff hhtlcs]
  rfl

/-- A counterparty commitment whose values pass every check passes them as a transaction too. -/
theorem prepareCounterparty_of_phase2
    (hreadable : Readable args.toCounterpartyValueSat ch.setup.holderSelectedContestDelay
      args.receivedHtlcs)
    (h : ch.prepareCounterpartyPhase2 call e node point args.commitmentNumber args.feeratePerKw
      args.toHolderValueSat args.toCounterpartyValueSat args.offeredHtlcs args.receivedHtlcs =
      .ok (signed, update)) :
    ∃ signed', ch.prepareCounterparty call e node (ch.library.builtTransaction tx) witscripts point
        args.commitmentNumber args.feeratePerKw args.offeredHtlcs args.receivedHtlcs =
          .ok (signed', update) ∧
      signed'.tx.commitmentNumber = tx.commitmentNumber ∧ signed'.tx.keys = tx.keys := by
  obtain ⟨_, hvalue, h⟩ := bind_ok h
  obtain ⟨⟨info, delta, incoming⟩, hinfo, h⟩ := bind_ok h
  obtain ⟨htlcs, hhtlcs, h⟩ := bind_ok h
  obtain ⟨built, hmake, h⟩ := bind_ok h
  obtain rfl : built = tx := by
    rw [builtCounterparty, hhtlcs, ok_bind, hmake] at hbuilt
    exact Except.ok.inj hbuilt
  obtain ⟨hlist, hremake⟩ := places_counterparty htlcs built hmake
  obtain ⟨hoffered, hreceived⟩ := validatedCounterpartyInfo_htlcs hinfo
  have hamounts := amounts_of_htlcsInfo2ToOic hhtlcs
  obtain ⟨sorted, hsorted⟩ := htlcsInfo2ToOic_eq_ok fun htlc hmem =>
    hamounts htlc ((hoffered.append hreceived).mem_iff.mp hmem)
  have hperm : sorted.Perm built.htlcs := by
    rw [hlist, htlcsInfo2ToOic_ok hhtlcs, htlcsInfo2ToOic_ok hsorted]
    exact (hoffered.map _).append (hreceived.map _)
  obtain ⟨signed', hsigned, hsame⟩ := signedCounterpartyUpdate_perm hch.orderFree hperm h
    "sign_counterparty_commitment failed"
  have hdecoded := (decode_counterparty_iff hch hbuilt htx).mpr ⟨hreadable, rfl⟩
  refine ⟨signed', ?_, by rw [hsame], by rw [hsame]⟩
  refine bind_eq_ok.mpr ⟨(), refuseIf_of_not (not_not.mpr htx.length_eq),
    bind_eq_ok.mpr ⟨_, hvalue, ?_⟩⟩
  refine bind_eq_ok.mpr ⟨_, hdecoded, bind_eq_ok.mpr ⟨_, hinfo, ?_⟩⟩
  refine bind_eq_ok.mpr ⟨sorted, hsorted, bind_eq_ok.mpr ⟨_, hremake sorted, ?_⟩⟩
  refine bind_eq_ok.mpr ⟨(), PolicyFilter.policyErr_of_not (not_not.mpr ?_), hsigned⟩
  exact hch.orderFree.built built sorted hperm

/-- A counterparty commitment that passes every check as a transaction is readable, and its values
pass them too. -/
theorem prepareCounterpartyPhase2_of_phase1
    (h : ch.prepareCounterparty call e node (ch.library.builtTransaction tx) witscripts point
      args.commitmentNumber args.feeratePerKw args.offeredHtlcs args.receivedHtlcs =
      .ok (signed, update)) :
    Readable args.toCounterpartyValueSat ch.setup.holderSelectedContestDelay args.receivedHtlcs ∧
      ∃ signed', ch.prepareCounterpartyPhase2 call e node point args.commitmentNumber
        args.feeratePerKw args.toHolderValueSat args.toCounterpartyValueSat args.offeredHtlcs
        args.receivedHtlcs = .ok (signed', update) := by
  obtain ⟨_, -, h⟩ := bind_ok h
  obtain ⟨_, hvalue, h⟩ := bind_ok h
  obtain ⟨decoded, hdecoded, h⟩ := bind_ok h
  obtain ⟨hreadable, rfl⟩ := (decode_counterparty_iff hch hbuilt htx).mp hdecoded
  obtain ⟨⟨info, delta, incoming⟩, hinfo, h⟩ := bind_ok h
  obtain ⟨sorted, hsorted, h⟩ := bind_ok h
  obtain ⟨recomposed, hrecomposed, h⟩ := bind_ok h
  obtain ⟨_, -, h⟩ := bind_ok h
  obtain ⟨htlcs, hhtlcs, hmake, hlist⟩ := places_counterparty.built_ok hbuilt
  obtain rfl := Except.ok.inj
    (((places_counterparty htlcs tx hmake).2 sorted).symm.trans hrecomposed)
  obtain ⟨hoffered, hreceived⟩ := validatedCounterpartyInfo_htlcs hinfo
  have hperm : tx.htlcs.Perm sorted := by
    rw [hlist, htlcsInfo2ToOic_ok hsorted]
    exact (hoffered.symm.map _).append (hreceived.symm.map _)
  obtain ⟨signed', hsigned, -⟩ :=
    signedCounterpartyUpdate_perm hch.orderFree hperm h "failed to sign"
  refine ⟨hreadable, signed', ?_⟩
  exact bind_eq_ok.mpr ⟨_, hvalue, bind_eq_ok.mpr ⟨_, hinfo, bind_eq_ok.mpr ⟨htlcs, hhtlcs,
    bind_eq_ok.mpr ⟨tx, hmake, hsigned⟩⟩⟩⟩

/-- Where the decoder can read the commitment both forms agree. -/
theorem counterparty_agree (hn : args.commitmentNumber < 2 ^ 64)
    (hreadable : Readable args.toCounterpartyValueSat ch.setup.holderSelectedContestDelay
      args.receivedHtlcs) (s : Session) :
    Agree (exec (ch.signCounterpartyCommitmentTx call (ch.library.builtTransaction tx) witscripts
        point args.commitmentNumber args.feeratePerKw args.offeredHtlcs args.receivedHtlcs) s)
      (exec (ch.signCounterpartyCommitmentTxPhase2 call point args.commitmentNumber
        args.feeratePerKw args.toHolderValueSat args.toCounterpartyValueSat args.offeredHtlcs
        args.receivedHtlcs) s) := by
  rw [signCounterpartyCommitmentTx, signCounterpartyCommitmentTxPhase2, exec_get_bind,
    exec_get_bind]
  refine Agree.of_lift (fun signed hfirst => ?_) fun signed hprepared => ?_
  · obtain ⟨-, signed', hsigned⟩ := prepareCounterpartyPhase2_of_phase1 hch hbuilt htx hfirst
    exact ⟨_, hsigned⟩
  · obtain ⟨signed', hfirst, hnumber, hkeys⟩ :=
      prepareCounterparty_of_phase2 hch hbuilt htx hreadable hprepared
    obtain ⟨htlcs, -, hmake, -⟩ := places_counterparty.built_ok hbuilt
    obtain ⟨index, hindex, hmake⟩ := bind_ok hmake
    cases hmake
    have hback : (ch.overflow.sub INITIAL_COMMITMENT_NUMBER signed'.tx.commitmentNumber :
        Result Nat) = .ok args.commitmentNumber := by
      rw [hnumber]
      exact Overflow.sub_cancel (by decide) hn hindex
    have hpoint : signed'.tx.keys.perCommitmentPoint = point := by
      rw [hkeys]
      rfl
    refine ⟨_, hfirst, ?_⟩
    dsimp only
    rw [hback, hpoint]
    refine Agree.bind fun num t => Agree.bind fun _ t => Agree.bind fun _ t => ?_
    exact Agree.bind fun _ t => ⟨rfl, rfl, rfl⟩

end Counterparty

/-! ## Accepting a holder commitment -/

section Holder

variable {signatures : CommitmentSignatures}

/-- The values read off a holder commitment are those it was built from. -/
theorem decode_holder_iff (hch : ch.ReadsScripts W S) (hbuilt : ch.builtHolder point args = .ok tx)
    (htx : ch.Presented W S tx witscripts) {info : CommitmentInfo} :
    ch.validator.decodeCommitmentTx ch.keys ch.setup false (ch.library.builtTransaction tx)
        witscripts = .ok info ↔
      Readable args.toHolderValueSat ch.setup.counterpartySelectedContestDelay args.receivedHtlcs ∧
        info = ⟨args.toCounterpartyValueSat, args.toHolderValueSat⟩ := by
  obtain ⟨htlcs, -, hmake, hhtlcs⟩ := places_holder.built_ok hbuilt
  obtain ⟨index, -, hmake⟩ := bind_ok hmake
  cases hmake
  obtain ⟨filter, o, hdecode⟩ := hch.decoder
  rw [hdecode, decode_built_iff hch.scripts ⟨rfl, rfl⟩ htx.points
    htx.written, decodable_iff hhtlcs]
  rfl

/-- The transaction a holder commitment is compared with is the one it was built as. -/
theorem recomposed_holder (hfree : ch.OrderFree) (hbuilt : ch.builtHolder point args = .ok tx)
    (hinfo : ch.buildHolderCommitmentInfo point args.toHolderValueSat
      args.toCounterpartyValueSat args.offeredHtlcs args.receivedHtlcs args.feeratePerKw = .ok info)
    (hhtlcs : htlcsInfo2ToOic ch.overflow info.offeredHtlcs info.receivedHtlcs = .ok htlcs)
    {recomposed : CommitmentTransaction}
    (hmake : ch.makeHolderCommitmentTx args.commitmentNumber (ch.makeHolderTxKeys point)
      args.feeratePerKw args.toHolderValueSat args.toCounterpartyValueSat htlcs = .ok recomposed) :
    ch.library.builtTransaction recomposed = ch.library.builtTransaction tx := by
  obtain ⟨_, -, hinfo⟩ := bind_ok hinfo
  obtain ⟨_, -, hinfo⟩ := bind_ok hinfo
  cases hinfo
  obtain ⟨listed, -, hbuilt, hlist⟩ := places_holder.built_ok hbuilt
  obtain rfl := Except.ok.inj (((places_holder listed tx hbuilt).2 htlcs).symm.trans hmake)
  refine hfree.built tx htlcs ?_
  rw [htlcsInfo2ToOic_ok hhtlcs, hlist]
  exact ((sortHtlcs_perm args.offeredHtlcs).map _).append
    ((sortHtlcs_perm args.receivedHtlcs).map _)

/-- A holder commitment passes every check as a transaction exactly when the channel value is
allowed, the decoder can read it, and its values pass every check. -/
theorem prepareHolder_iff (hch : ch.ReadsScripts W S)
    (hpoint : ch.getPerCommitmentPoint e args.commitmentNumber = .ok point)
    (hbuilt : ch.builtHolder point args = .ok tx) (htx : ch.Presented W S tx witscripts) :
    ch.prepareHolder call e node (ch.library.builtTransaction tx) witscripts args.commitmentNumber
        args.feeratePerKw args.offeredHtlcs args.receivedHtlcs signatures = .ok update ↔
      (ch.validator.validateChannelValue ch.setup = .ok () ∧
        Readable args.toHolderValueSat ch.setup.counterpartySelectedContestDelay
          args.receivedHtlcs) ∧
      ch.prepareHolderPhase2 call e node args.commitmentNumber args.feeratePerKw
        args.toHolderValueSat args.toCounterpartyValueSat args.offeredHtlcs args.receivedHtlcs
        signatures = .ok update := by
  constructor
  · intro h
    obtain ⟨_, hpoint', h⟩ := bind_ok h
    obtain rfl := Except.ok.inj (hpoint.symm.trans hpoint')
    obtain ⟨⟨recomposed, info, incoming⟩, hmade, h⟩ := bind_ok h
    obtain ⟨delta, hdelta, h⟩ := bind_ok h
    obtain ⟨_, hsignatures, hupdate⟩ := bind_ok h
    obtain ⟨_, -, hmade⟩ := bind_ok hmade
    obtain ⟨_, hvalue, hmade⟩ := bind_ok hmade
    obtain ⟨decoded, hdecoded, hmade⟩ := bind_ok hmade
    obtain ⟨hreadable, rfl⟩ := (decode_holder_iff hch hbuilt htx).mp hdecoded
    obtain ⟨_, hinfo, hmade⟩ := bind_ok hmade
    obtain ⟨_, hincoming, hmade⟩ := bind_ok hmade
    obtain ⟨_, hvalid, hmade⟩ := bind_ok hmade
    obtain ⟨htlcs, hhtlcs, hmade⟩ := bind_ok hmade
    obtain ⟨_, hrecomposed, hmade⟩ := bind_ok hmade
    obtain ⟨_, -, hmade⟩ := bind_ok hmade
    obtain ⟨rfl, hrest⟩ := Prod.mk.inj (pure_eq_ok.mp hmade)
    cases hrest
    refine ⟨⟨hvalue, hreadable⟩, ?_⟩
    refine bind_eq_ok.mpr ⟨point, hpoint, bind_eq_ok.mpr ⟨_, hinfo, bind_eq_ok.mpr ⟨delta, hdelta,
      bind_eq_ok.mpr ⟨_, hincoming, bind_eq_ok.mpr ⟨_, hvalid, ?_⟩⟩⟩⟩⟩
    exact bind_eq_ok.mpr ⟨htlcs, hhtlcs, bind_eq_ok.mpr ⟨_, hrecomposed, bind_eq_ok.mpr ⟨_,
      hsignatures, hupdate⟩⟩⟩
  · rintro ⟨⟨hvalue, hreadable⟩, h⟩
    obtain ⟨_, hpoint', h⟩ := bind_ok h
    obtain rfl := Except.ok.inj (hpoint.symm.trans hpoint')
    obtain ⟨info, hinfo, h⟩ := bind_ok h
    obtain ⟨delta, hdelta, h⟩ := bind_ok h
    obtain ⟨incoming, hincoming, h⟩ := bind_ok h
    obtain ⟨_, hvalid, h⟩ := bind_ok h
    obtain ⟨htlcs, hhtlcs, h⟩ := bind_ok h
    obtain ⟨recomposed, hrecomposed, h⟩ := bind_ok h
    obtain ⟨_, hsignatures, h⟩ := bind_ok h
    have hdecoded := (decode_holder_iff hch hbuilt htx).mpr ⟨hreadable, rfl⟩
    have hsame := recomposed_holder hch.orderFree hbuilt hinfo hhtlcs hrecomposed
    have hmade : ch.makeValidatedRecomposedHolderCommitmentTx call e
        (ch.library.builtTransaction tx) witscripts args.commitmentNumber point
        (ch.makeHolderTxKeys point) args.feeratePerKw args.offeredHtlcs args.receivedHtlcs =
          .ok (recomposed, info, incoming) := by
      refine bind_eq_ok.mpr ⟨(), refuseIf_of_not (not_not.mpr htx.length_eq),
        bind_eq_ok.mpr ⟨_, hvalue, ?_⟩⟩
      refine bind_eq_ok.mpr ⟨_, hdecoded, bind_eq_ok.mpr ⟨info, hinfo, ?_⟩⟩
      refine bind_eq_ok.mpr ⟨incoming, hincoming, bind_eq_ok.mpr ⟨_, hvalid, ?_⟩⟩
      refine bind_eq_ok.mpr ⟨htlcs, hhtlcs, bind_eq_ok.mpr ⟨recomposed, hrecomposed, ?_⟩⟩
      exact bind_eq_ok.mpr ⟨(), PolicyFilter.policyErr_of_not (not_not.mpr hsame), rfl⟩
    exact bind_eq_ok.mpr ⟨point, hpoint, bind_eq_ok.mpr ⟨_, hmade, bind_eq_ok.mpr ⟨delta, hdelta,
      bind_eq_ok.mpr ⟨_, hsignatures, h⟩⟩⟩⟩

/-- A transaction that the decoder cannot read, or of a channel whose value is not allowed, is
refused. -/
theorem holder_refused (hch : ch.ReadsScripts W S) {s : Session}
    (hbuilt : ∀ point, ch.getPerCommitmentPoint s.estate args.commitmentNumber = .ok point →
      ch.builtHolder point args = .ok tx) (htx : ch.Presented W S tx witscripts)
    (h : ¬ (ch.validator.validateChannelValue ch.setup = .ok () ∧
      Readable args.toHolderValueSat ch.setup.counterpartySelectedContestDelay
        args.receivedHtlcs)) :
    Refuses (exec (ch.validateHolderCommitmentTx call (ch.library.builtTransaction tx) witscripts
      args.commitmentNumber args.feeratePerKw args.offeredHtlcs args.receivedHtlcs signatures) s)
      s := by
  rw [validateHolderCommitmentTx, exec_get_bind]
  refine Refuses.of_lift fun update hfirst => ?_
  obtain ⟨point, hpoint, -⟩ := bind_ok hfirst
  exact h ((prepareHolder_iff hch hpoint (hbuilt point hpoint) htx).mp hfirst).1

end Holder

/-! ## Agreement -/

/-- Of two operations, one of which refuses and the other of which agrees with it unless it is to
refuse, agreement is that both refuse. -/
theorem agree_iff_of {α β : Type} {r : Result α × Session} {r' : Result β × Session} {s : Session}
    {P : Prop} (hagree : P → Agree r r') (hrefused : ¬ P → Refuses r s) :
    Agree r r' ↔ (P ∨ Refuses r' s) := by
  constructor
  · intro h
    by_cases hP : P
    · exact .inl hP
    · obtain ⟨hfails, hestate, hnode⟩ := hrefused hP
      exact .inr ⟨h.1.symm.trans hfails, h.2.1.symm.trans hestate, h.2.2.symm.trans hnode⟩
  · intro h
    by_cases hP : P
    · exact hagree hP
    · obtain ⟨hfails, hestate, hnode⟩ := hrefused hP
      obtain ⟨hfails', hestate', hnode'⟩ := h.resolve_left hP
      exact ⟨hfails.trans hfails'.symm, hestate.trans hestate'.symm, hnode.trans hnode'.symm⟩

/-- The two forms of a commitment request agree exactly when the decoder can read the commitment
and, for a holder commitment, the channel value is allowed, or when the second form refuses too. -/
theorem phases_agree_iff {ch : Channel} {W : ScriptWriter} {S : ScriptLibrary}
    (hch : ch.ReadsScripts W S) (call : Call) (s : Session) (args : CommitmentArgs)
    (hn : args.commitmentNumber < 2 ^ 64) (tx : CommitmentTransaction) (witscripts : List Script)
    (htx : ch.Presented W S tx witscripts) :
    (∀ point, ch.builtCounterparty point args = .ok tx →
      (Agree
        (exec (ch.signCounterpartyCommitmentTx call (ch.library.builtTransaction tx) witscripts
          point args.commitmentNumber args.feeratePerKw args.offeredHtlcs args.receivedHtlcs) s)
        (exec (ch.signCounterpartyCommitmentTxPhase2 call point args.commitmentNumber
          args.feeratePerKw args.toHolderValueSat args.toCounterpartyValueSat args.offeredHtlcs
          args.receivedHtlcs) s) ↔
      (Readable args.toCounterpartyValueSat ch.setup.holderSelectedContestDelay
          args.receivedHtlcs ∨
        Refuses (exec (ch.signCounterpartyCommitmentTxPhase2 call point args.commitmentNumber
          args.feeratePerKw args.toHolderValueSat args.toCounterpartyValueSat args.offeredHtlcs
          args.receivedHtlcs) s) s))) ∧
    ∀ signatures, (∀ point, ch.getPerCommitmentPoint s.estate args.commitmentNumber = .ok point →
        ch.builtHolder point args = .ok tx) →
      (Agree
        (exec (ch.validateHolderCommitmentTx call (ch.library.builtTransaction tx) witscripts
          args.commitmentNumber args.feeratePerKw args.offeredHtlcs args.receivedHtlcs
          signatures) s)
        (exec (ch.validateHolderCommitmentTxPhase2 call args.commitmentNumber args.feeratePerKw
          args.toHolderValueSat args.toCounterpartyValueSat args.offeredHtlcs args.receivedHtlcs
          signatures) s) ↔
      ((ch.validator.validateChannelValue ch.setup = .ok () ∧
          Readable args.toHolderValueSat ch.setup.counterpartySelectedContestDelay
            args.receivedHtlcs) ∨
        Refuses (exec (ch.validateHolderCommitmentTxPhase2 call args.commitmentNumber
          args.feeratePerKw args.toHolderValueSat args.toCounterpartyValueSat args.offeredHtlcs
          args.receivedHtlcs signatures) s) s)) := by
  constructor
  · intro point hbuilt
    refine agree_iff_of (fun hreadable => counterparty_agree hch hbuilt htx hn hreadable s)
      fun hreadable => ?_
    rw [signCounterpartyCommitmentTx, exec_get_bind]
    exact Refuses.of_lift fun signed hfirst =>
      hreadable (prepareCounterpartyPhase2_of_phase1 hch hbuilt htx hfirst).1
  · intro signatures hbuilt
    refine agree_iff_of (fun h => ?_) fun h => holder_refused hch hbuilt htx h
    rw [validateHolderCommitmentTx, validateHolderCommitmentTxPhase2, exec_get_bind, exec_get_bind]
    refine Agree.of_lift (fun update hfirst => ?_) fun update hsecond => ?_
    · obtain ⟨point, hpoint, -⟩ := bind_ok hfirst
      exact ⟨_, ((prepareHolder_iff hch hpoint (hbuilt point hpoint) htx).mp hfirst).2⟩
    · obtain ⟨point, hpoint, -⟩ := bind_ok hsecond
      exact ⟨_, (prepareHolder_iff hch hpoint (hbuilt point hpoint) htx).mpr ⟨h, hsecond⟩,
        rfl, rfl, rfl⟩

end Channel

/-! ## Runs -/

namespace Sample

/-- The sample channel meets what is assumed of a channel. -/
theorem scriptChannel_readsScripts (o : Overflow) (setup : ChannelSetup) :
    (scriptChannel o setup).ReadsScripts writer scripts where
  scripts := writer_lawful
  decoder := ⟨.default, o, rfl⟩
  orderFree := {
    built := by
      intro tx htlcs hperm
      have houtputs : ({ tx with htlcs := htlcs } : CommitmentTransaction).outputs.Perm
          tx.outputs := by
        have hnil : htlcs = [] ↔ tx.htlcs = [] := ⟨fun h => perm_nil.mp (h ▸ hperm).symm,
          fun h => perm_nil.mp (h ▸ hperm)⟩
        simp only [outputs, ne_eq, hnil]
        exact (Perm.refl _).append (hperm.map _)
      exact congrArg (Transaction.mk 2 0 []) (insertionSort_eq_of_perm (houtputs.map _))
    signed := fun _ _ _ => rfl }

/-- A commitment with an HTLC in each direction. -/
def commitmentArgs : CommitmentArgs :=
  ⟨0, 1000, 500000, 490000, [⟨4000, 7, 700100⟩], [⟨5000, 8, 700200⟩]⟩

/-- The first commitment of a channel of two billion satoshi. -/
def oversizedArgs : CommitmentArgs := ⟨0, 1000, 1999999000, 0, [], []⟩

/-- The state of a new channel. -/
def newSession (channelValueSat : Nat) : Session :=
  ⟨.new channelValueSat, node, .new channelValueSat⟩

/-- A commitment of the sample channel can be presented when its keys are. -/
theorem exists_presented {o : Overflow} {setup : ChannelSetup} {tx : CommitmentTransaction}
    (hpoints : tx.PaysPoints writer) :
    ∃ witscripts, (scriptChannel o setup).Presented writer scripts tx witscripts := by
  obtain ⟨witscripts, hwritten⟩ := exists_written tx
  exact ⟨witscripts, hpoints, hwritten⟩

end Sample

/-- Both forms agree on a commitment with HTLCs, of the counterparty and of the holder. -/
theorem Channel.phases_agree_iff_sample :
    let ch := scriptChannel .checked Sample.setup
    let args := commitmentArgs
    let s := newSession 1000000
    let call : Call := ⟨chain, true⟩
    (∃ tx witscripts, ch.Presented writer scripts tx witscripts ∧
      ch.builtCounterparty ⟨7⟩ args = .ok tx ∧
      Agree
        (exec (ch.signCounterpartyCommitmentTx call (ch.library.builtTransaction tx) witscripts
          ⟨7⟩ args.commitmentNumber args.feeratePerKw args.offeredHtlcs args.receivedHtlcs) s)
        (exec (ch.signCounterpartyCommitmentTxPhase2 call ⟨7⟩ args.commitmentNumber
          args.feeratePerKw args.toHolderValueSat args.toCounterpartyValueSat args.offeredHtlcs
          args.receivedHtlcs) s)) ∧
    ∃ tx witscripts, ch.Presented writer scripts tx witscripts ∧
      (∀ point, ch.getPerCommitmentPoint s.estate args.commitmentNumber = .ok point →
        ch.builtHolder point args = .ok tx) ∧
      Agree
        (exec (ch.validateHolderCommitmentTx call (ch.library.builtTransaction tx) witscripts
          args.commitmentNumber args.feeratePerKw args.offeredHtlcs args.receivedHtlcs
          ⟨⟨1⟩, [⟨1⟩, ⟨1⟩]⟩) s)
        (exec (ch.validateHolderCommitmentTxPhase2 call args.commitmentNumber args.feeratePerKw
          args.toHolderValueSat args.toCounterpartyValueSat args.offeredHtlcs args.receivedHtlcs
          ⟨⟨1⟩, [⟨1⟩, ⟨1⟩]⟩) s) := by
  intro ch args s call
  have hch := scriptChannel_readsScripts .checked Sample.setup
  constructor
  · obtain ⟨tx, hbuilt⟩ : ∃ tx, ch.builtCounterparty ⟨7⟩ args = .ok tx := ⟨_, rfl⟩
    have hpoints : tx.PaysPoints writer := by
      cases hbuilt
      constructor <;> change (_ : Nat) < _ <;> decide
    obtain ⟨witscripts, htx⟩ := exists_presented hpoints
    refine ⟨tx, witscripts, htx, hbuilt, ?_⟩
    refine ((phases_agree_iff hch call s args (by decide) tx witscripts htx).1 ⟨7⟩ hbuilt).mpr ?_
    exact .inl ⟨fun _ => by decide, by decide⟩
  · obtain ⟨tx, hbuilt⟩ : ∃ tx, ch.builtHolder
        (ch.keys.getPerCommitmentPoint INITIAL_COMMITMENT_NUMBER) args = .ok tx := ⟨_, rfl⟩
    have hpoints : tx.PaysPoints writer := by
      cases hbuilt
      constructor <;> change (_ : Nat) < _ <;> decide
    obtain ⟨witscripts, htx⟩ := exists_presented hpoints
    have hbuilt' (point : PublicKey)
        (hpoint : ch.getPerCommitmentPoint s.estate args.commitmentNumber = .ok point) :
        ch.builtHolder point args = .ok tx := by
      cases hpoint
      exact hbuilt
    refine ⟨tx, witscripts, htx, hbuilt', ?_⟩
    refine ((phases_agree_iff hch call s args (by decide) tx witscripts htx).2 _ hbuilt').mpr ?_
    exact .inl ⟨rfl, fun _ => by decide, by decide⟩

/-- The holder commitment of a channel above the allowed value is accepted by its values and refused
as a transaction. -/
theorem Channel.oversized_channel_phases_differ :
    let ch := scriptChannel .checked { Sample.setup with channelValueSat := 2000000000 }
    let args := oversizedArgs
    let s := newSession 2000000000
    let call : Call := ⟨chain, true⟩
    ∃ tx witscripts, ch.Presented writer scripts tx witscripts ∧
      (∀ point, ch.getPerCommitmentPoint s.estate args.commitmentNumber = .ok point →
        ch.builtHolder point args = .ok tx) ∧
      ¬ Agree
        (exec (ch.validateHolderCommitmentTx call (ch.library.builtTransaction tx) witscripts
          args.commitmentNumber args.feeratePerKw args.offeredHtlcs args.receivedHtlcs
          ⟨⟨1⟩, []⟩) s)
        (exec (ch.validateHolderCommitmentTxPhase2 call args.commitmentNumber args.feeratePerKw
          args.toHolderValueSat args.toCounterpartyValueSat args.offeredHtlcs args.receivedHtlcs
          ⟨⟨1⟩, []⟩) s) := by
  intro ch args s call
  obtain ⟨tx, hbuilt⟩ : ∃ tx, ch.builtHolder
      (ch.keys.getPerCommitmentPoint INITIAL_COMMITMENT_NUMBER) args = .ok tx := ⟨_, rfl⟩
  have hpoints : tx.PaysPoints writer := by
    cases hbuilt
    constructor <;> change (_ : Nat) < _ <;> decide
  obtain ⟨witscripts, htx⟩ := exists_presented hpoints
  have hbuilt' (point : PublicKey)
      (hpoint : ch.getPerCommitmentPoint s.estate args.commitmentNumber = .ok point) :
      ch.builtHolder point args = .ok tx := by
    cases hpoint
    exact hbuilt
  have hvalue : ch.validator.validateChannelValue ch.setup ≠ .ok () := by decide +kernel
  have haccepted : (exec (ch.validateHolderCommitmentTxPhase2 call args.commitmentNumber
      args.feeratePerKw args.toHolderValueSat args.toCounterpartyValueSat args.offeredHtlcs
      args.receivedHtlcs ⟨⟨1⟩, []⟩) s).1.isOk = true := by decide +kernel
  refine ⟨tx, witscripts, htx, hbuilt', fun hagree => ?_⟩
  have hrefused : Refuses (exec (ch.validateHolderCommitmentTx call
      (ch.library.builtTransaction tx) witscripts args.commitmentNumber args.feeratePerKw
      args.offeredHtlcs args.receivedHtlcs ⟨⟨1⟩, []⟩) s) s :=
    holder_refused (scriptChannel_readsScripts .checked _) hbuilt' htx fun h => hvalue h.1
  exact Bool.false_ne_true (hrefused.1.symm.trans (hagree.1.trans haccepted))

end ValidatingSigner
