import Vls.Channel.Correctness.HolderRevocation

/-!
# The counterparty's signatures are complete

A holder commitment is accepted with one valid signature on it and one on each of its HTLC
transactions.  The check reads the signatures by position and never counts them, so a list that is
too short aborts it and one that is too long passes.  Every commitment below the holder counter has
been rebuilt from what a request says of it, at its own point, and each of its signatures verified.
-/

namespace ValidatingSigner

open Base Effect List

namespace Channel

/-! ## Signatures on a holder commitment -/

/-- The hash the counterparty signs on the transaction of one HTLC of a holder commitment. -/
def htlcSighash (ch : Channel) (txid : Bytes32) (txkeys : TxCreationKeys) (feeratePerKw : Nat)
    (htlc : HTLCOutputInCommitment) : Bytes32 :=
  ch.library.segwitSignatureHash (ch.library.buildHtlcTransaction txid
      (if ch.setup.isZeroFeeHtlc then 0 else feeratePerKw)
      ch.setup.counterpartySelectedContestDelay htlc ch.setup.isAnchors (!ch.setup.isZeroFeeHtlc)
      txkeys.broadcasterDelayedPaymentKey txkeys.revocationKey) 0
    (ch.library.getHtlcRedeemscript htlc ch.setup.isAnchors txkeys) (htlc.amountMsat / 1000)
    (if ch.setup.isAnchors then .singlePlusAnyoneCanPay else .all)

/-- The counterparty's signature on the transaction of an HTLC verifies. -/
def Verifies (ch : Channel) (txid : Bytes32) (txkeys : TxCreationKeys) (feeratePerKw : Nat)
    (htlcPubkey : PublicKey) (signed : HTLCOutputInCommitment × Signature) : Prop :=
  ch.library.verifyEcdsa (ch.htlcSighash txid txkeys feeratePerKw signed.1) signed.2 htlcPubkey =
    .ok ()

/-- The signature on a holder commitment verifies, and so does the `k`-th HTLC signature for the
`k`-th HTLC transaction, as long as there are both. -/
structure PrefixSigned (ch : Channel) (point : PublicKey) (txkeys : TxCreationKeys)
    (feeratePerKw : Nat) (signatures : CommitmentSignatures) (tx : CommitmentTransaction) :
    Prop where
  commitment : ch.library.verifyEcdsa
    (ch.library.segwitSignatureHash (ch.library.builtTransaction tx) 0
      (ch.library.makeFundingRedeemscript ch.keys.pubkeys.fundingPubkey
        ch.setup.counterpartyPoints.fundingPubkey) ch.setup.channelValueSat .all)
    signatures.commitment ch.setup.counterpartyPoints.fundingPubkey = .ok ()
  htlcs : ∃ htlcPubkey,
    ch.library.derivePublicKey point ch.keys.counterpartyPubkeys.htlcBasepoint = .ok htlcPubkey ∧
    ∀ signed ∈ (ch.library.builtHtlcs tx).zip signatures.htlcs, ch.Verifies
      (ch.library.txid (ch.library.builtTransaction tx)) txkeys feeratePerKw htlcPubkey signed

/-- The signatures on a holder commitment are valid and exactly as many as it has HTLCs. -/
structure FullySigned (ch : Channel) (point : PublicKey) (txkeys : TxCreationKeys)
    (feeratePerKw : Nat) (signatures : CommitmentSignatures) (tx : CommitmentTransaction) : Prop
    extends ch.PrefixSigned point txkeys feeratePerKw signatures tx where
  count : signatures.htlcs.length = (ch.library.builtHtlcs tx).length

/-- A request has state `e` accept holder commitment `n`: rebuilt at its point from the description
`e` records, the commitment has a valid signature of the counterparty on it and one on each of its
HTLC transactions. -/
def Accepts (ch : Channel) (request : Request) (n : Nat) (e : EnforcementState) : Prop :=
  ∃ point info signatures tx, ch.presented request = some (n, point, info, signatures) ∧
    ch.IsHolderTx n point info tx ∧
    ch.PrefixSigned point (ch.makeHolderTxKeys point) info.feeratePerKw signatures tx ∧
    (ch.library.builtHtlcs tx).length ≤ signatures.htlcs.length ∧
    e.nextHolderCommitNum = n + 1 ∧ e.currentHolderCommitInfo = some info ∧
    e.currentCounterpartySignatures = some signatures

/-- A step of a run has a state that is then held accept holder commitment `n`. -/
def Accepted (ch : Channel) (log : List ChannelEntry) (n : Nat) : Prop :=
  ∃ x ∈ log, ∃ node call request e, x.event = .request node call request ∧ x.after.Holds e ∧
    ch.Accepts request n e

variable {log : List ChannelEntry}

theorem Accepted.append {ch : Channel} {n : Nat} (h : ch.Accepted log n)
    (log' : List ChannelEntry) : ch.Accepted (log ++ log') n := by
  obtain ⟨x, hx, h⟩ := h
  exact ⟨x, mem_append_left _ hx, h⟩

/-! ## The check -/

/-- The check of the HTLC signatures from number `ndx` on refuses if one does not verify; if all do
it passes, unless they run out. -/
theorem checkHtlcSignatures_cases (ch : Channel) (txid : Bytes32) (txkeys : TxCreationKeys)
    (feerate : Nat) (htlcPubkey : PublicKey) (sigs : List Signature) (ndx : Nat)
    (htlcs : List HTLCOutputInCommitment) :
    ((∀ signed ∈ htlcs.zip (sigs.drop ndx), ch.Verifies txid txkeys feerate htlcPubkey signed) ∧
      ch.checkHtlcSignatures txid txkeys feerate htlcPubkey sigs ndx htlcs =
        if htlcs.length ≤ (sigs.drop ndx).length then .ok ()
        else .error (.abort "index out of bounds")) ∨
    (¬ ∀ signed ∈ htlcs.zip (sigs.drop ndx), ch.Verifies txid txkeys feerate htlcPubkey signed) ∧
      ∃ refusal, ch.checkHtlcSignatures txid txkeys feerate htlcPubkey sigs ndx htlcs =
        .error (.refuse refusal) := by
  induction htlcs generalizing ndx with
  | nil => exact .inl ⟨forall_mem_nil _, rfl⟩
  | cons htlc htlcs ih =>
    rw [checkHtlcSignatures]
    rcases Nat.lt_or_ge ndx sigs.length with hlt | hge
    · rw [getElem?_eq_getElem hlt, drop_eq_getElem_cons hlt, zip_cons_cons, forall_mem_cons,
        length_cons, length_cons]
      simp only [expect, ok_bind, Nat.add_le_add_iff_right]
      split
      · rename_i hverified
        exact (ih (ndx + 1)).imp (fun h => ⟨⟨hverified, h.1⟩, h.2⟩)
          fun h => ⟨fun hall => h.1 hall.2, h.2⟩
      · rename_i hfailed
        refine .inr ⟨fun hall => ?_, _, rfl⟩
        cases hfailed.symm.trans hall.1
    · rw [getElem?_eq_none hge, drop_eq_nil_of_le hge, zip_nil_right]
      exact .inl ⟨forall_mem_nil _, rfl⟩

/-- The check refuses signatures that do not verify; if all that it reads do it passes, unless they
run out. -/
theorem checkHolderTxSignatures_cases (ch : Channel) (point : PublicKey) (txkeys : TxCreationKeys)
    (feerate : Nat) (signatures : CommitmentSignatures) (tx : CommitmentTransaction) :
    (ch.PrefixSigned point txkeys feerate signatures tx ∧
      ch.checkHolderTxSignatures point txkeys feerate signatures tx =
        if (ch.library.builtHtlcs tx).length ≤ signatures.htlcs.length then .ok ()
        else .error (.abort "index out of bounds")) ∨
    ¬ ch.PrefixSigned point txkeys feerate signatures tx ∧
      ∃ refusal, ch.checkHolderTxSignatures point txkeys feerate signatures tx =
        .error (.refuse refusal) := by
  simp only [checkHolderTxSignatures, checkCommitSignature]
  split
  · rename_i hcommitment
    rcases hkey : ch.library.derivePublicKey point ch.keys.counterpartyPubkeys.htlcBasepoint with
      m | htlcPubkey
    · refine .inr ⟨fun h => ?_, _, rfl⟩
      obtain ⟨htlcPubkey, hkey', -⟩ := h.htlcs
      exact nomatch hkey.symm.trans hkey'
    · rcases ch.checkHtlcSignatures_cases (ch.library.txid (ch.library.builtTransaction tx)) txkeys
        feerate htlcPubkey signatures.htlcs 0 (ch.library.builtHtlcs tx) with ⟨hall, h⟩ | ⟨hnot, h⟩
      · exact .inl ⟨⟨hcommitment, htlcPubkey, hkey, hall⟩, h⟩
      · refine .inr ⟨fun hsigned => hnot ?_, h⟩
        obtain ⟨htlcPubkey', hkey', hall⟩ := hsigned.htlcs
        cases hkey.symm.trans hkey'
        exact hall
  · rename_i hfailed
    exact .inr ⟨fun h => (nomatch hfailed.symm.trans h.commitment), _, rfl⟩

variable {ch : Channel} {point : PublicKey} {txkeys : TxCreationKeys} {feerate : Nat}
  {signatures : CommitmentSignatures} {tx : CommitmentTransaction}

/-- The check answers, and passes only complete sets, just if signatures of which all that are read
verify are as many as the HTLCs. -/
theorem checkHolderTxSignatures_complete_iff :
    (NoAbort (ch.checkHolderTxSignatures point txkeys feerate signatures tx) ∧
      (ch.checkHolderTxSignatures point txkeys feerate signatures tx = .ok () →
        ch.FullySigned point txkeys feerate signatures tx)) ↔
      (ch.PrefixSigned point txkeys feerate signatures tx →
        signatures.htlcs.length = (ch.library.builtHtlcs tx).length) := by
  rcases ch.checkHolderTxSignatures_cases point txkeys feerate signatures tx with
    ⟨hsigned, h⟩ | ⟨hnot, refusal, h⟩
  · rw [h]
    split
    · exact ⟨fun h _ => (h.2 rfl).count, fun h => ⟨.ok (), fun _ => ⟨hsigned, h hsigned⟩⟩⟩
    · refine ⟨fun h => absurd rfl (h.1 _), fun h => absurd (h hsigned) (by omega)⟩
  · rw [h]
    exact ⟨fun _ hsigned => absurd hsigned hnot, fun _ => ⟨.refuse _, nofun⟩⟩

/-- Signatures that pass the check verify, and there is one for each HTLC. -/
theorem checkHolderTxSignatures_ok
    (h : ch.checkHolderTxSignatures point txkeys feerate signatures tx = .ok ()) :
    ch.PrefixSigned point txkeys feerate signatures tx ∧
      (ch.library.builtHtlcs tx).length ≤ signatures.htlcs.length := by
  rcases ch.checkHolderTxSignatures_cases point txkeys feerate signatures tx with
    ⟨hsigned, h'⟩ | ⟨-, refusal, h'⟩
  · rw [h'] at h
    split at h
    · exact ⟨hsigned, ‹_›⟩
    · exact nomatch h
  · exact nomatch h'.symm.trans h

/-! ## Accepted commitments -/

variable {v : SimpleValidator} {call : Call} {s t : Session} {e : EnforcementState}
  {request : Request} {r : Result Reply} {n : Nat}

/-- A served request stores what it writes or nothing, and moves the holder counter only past a
commitment it has accepted. -/
theorem execute_signed (hv : ch.validator = v.toValidator) (hfilter : v.policy.filter = .default)
    (hwf : s.estate.HolderWf) (h : exec (ch.execute call request) s = (r, t)) :
    Outcome s (fun _ t => (t.stored = s.stored ∨ t.stored = t.estate) ∧
      ∀ n < t.estate.nextHolderCommitNum,
        n < s.estate.nextHolderCommitNum ∨ ch.Accepts request n t.estate) r t := by
  refine (execute_presented h).imp ?_
  rintro ⟨hserved, hnext⟩
  refine ⟨(hserved.holderEffect hv hfilter hwf).stored, fun m hm => ?_⟩
  rcases hnext with hnext | ⟨n, point, signatures, update, secret, hn, hrequest, ⟨tx, htx, hcheck⟩,
    hadvanced⟩
  · exact .inl (hnext ▸ hm)
  · have hnext := (hadvanced.later hv hfilter hwf (Request.number_lt hn)).2
    obtain ⟨num, -, hset⟩ := hadvanced.advance
    obtain ⟨hstep, heq⟩ := Validator.setNextHolderCommitNum_ok (hv ▸ hfilter) hset
    have hbound := hwf.bound
    have hnum : num = n + 1 := by rw [← hnext, heq]; rfl
    by_cases hmn : m = n
    · obtain ⟨hsigned, hcount⟩ := checkHolderTxSignatures_ok hcheck
      exact .inr ⟨point, update.info, signatures, tx, hmn ▸ hrequest, hmn ▸ htx, hsigned, hcount,
        hmn ▸ hnext, by rw [heq]; rfl, by rw [heq]; rfl⟩
    · exact .inl (by omega)

/-! ## Runs -/

/-- Every commitment below the counter of a state the slot holds was accepted. -/
structure AllSigned (ch : Channel) (log : List ChannelEntry) (slot : Slot) : Prop
    extends slot.HolderOrdered where
  seen : ∀ e, slot.Holds e → ∀ n < e.nextHolderCommitNum, ch.Accepted log n

/-- What the slot holds after an operation is what the operation left in memory, unless it aborted,
or what it left in the store. -/
theorem holds_settle {r : Result Reply} (h : (settle (r, t)).1.Holds e) :
    (t.estate = e ∧ ∀ m, r ≠ .error (.abort m)) ∨ t.stored = e := by
  rcases r with (_ | m) | _
  · exact h.imp (fun h => ⟨Option.some.inj h, fun _ => nofun⟩) id
  · exact h.imp (fun h => nomatch h) id
  · exact h.imp (fun h => ⟨Option.some.inj h, fun _ => nofun⟩) id

/-- A commitment below the counter of a state held after an event was below the counter of one held
before, or the event has the state accept it. -/
theorem step_signed (hv : ch.validator = v.toValidator) (hfilter : v.policy.filter = .default)
    {slot : Slot} (hslot : slot.HolderOrdered) {event : ChannelEvent}
    (he : (ch.step slot event).1.Holds e) (hn : n < e.nextHolderCommitNum) :
    (∃ e₀, slot.Holds e₀ ∧ n < e₀.nextHolderCommitNum) ∨
      ∃ node call request, event = .request node call request ∧ ch.Accepts request n e := by
  cases event with
  | restart =>
    rcases he with he | he
    · exact .inl ⟨e, .inr (Option.some.inj he), hn⟩
    · exact .inl ⟨e, .inr he, hn⟩
  | request node call request =>
    cases hlive : slot.live with
    | none =>
      simp only [step, hlive] at he
      exact .inl ⟨e, he, hn⟩
    | some e₀ =>
      simp only [step, hlive] at he
      rcases hexec : exec (ch.execute call request) ⟨e₀, node, slot.stored⟩ with ⟨r, t⟩
      rw [hexec] at he
      have hwf := (hslot.live e₀ hlive).wf hslot.stored
      have hheld := holds_settle he
      cases execute_signed hv hfilter hwf hexec with
      | failed fault =>
        rcases hheld with ⟨rfl, -⟩ | rfl
        · exact .inl ⟨e₀, .inl hlive, hn⟩
        · exact .inl ⟨slot.stored, .inr rfl, hn⟩
      | aborted m t hstored =>
        rcases hheld with ⟨-, hr⟩ | rfl
        · exact absurd rfl (hr m)
        · exact .inl ⟨t.stored, .inr hstored.symm, hn⟩
      | ended h =>
        have hnext (he : t.estate = e) : (∃ e₀, slot.Holds e₀ ∧ n < e₀.nextHolderCommitNum) ∨
            ∃ node' call' request', ChannelEvent.request node call request =
              .request node' call' request' ∧ ch.Accepts request' n e := by
          subst he
          exact (h.2 n hn).imp (fun hn => ⟨e₀, .inl hlive, hn⟩)
            fun h => ⟨node, call, request, rfl, h⟩
        -- What is held is in memory, or in the store, which has the old state or the new one.
        rcases hheld with ⟨he, -⟩ | he
        · exact hnext he
        · rcases h.1 with hstored | hstored
          · exact .inl ⟨e, .inr (hstored.symm.trans he), hn⟩
          · exact hnext (hstored.symm.trans he)

theorem AllSigned.step (hv : ch.validator = v.toValidator) (hfilter : v.policy.filter = .default)
    {slot : Slot} (h : ch.AllSigned log slot) (event : ChannelEvent) :
    ch.AllSigned (log ++ [ch.machine.entry slot event]) (ch.machine.step slot event).1 := by
  have hslot := h.toHolderOrdered
  refine ⟨(hslot.step hv hfilter (ch.step_stepped slot event)).1, fun e he n hn => ?_⟩
  rcases step_signed hv hfilter hslot he hn with ⟨e₀, he₀, hn⟩ | ⟨node, call, request, h, haccepts⟩
  · exact (h.seen e₀ he₀ n hn).append _
  · exact ⟨_, mem_concat_self, node, call, request, e, h, he, haccepts⟩

theorem allSigned_initial (ch : Channel) (value : Nat) : ch.AllSigned [] (initial value) := by
  refine ⟨(holderSafe_initial value).toHolderOrdered, ?_⟩
  rintro e (⟨⟨⟩⟩ | ⟨⟨⟩⟩) n hn
  all_goals exact absurd hn (Nat.not_lt_zero n)

end Channel

/-- The check of the signatures answers without aborting and passes only complete sets just if
signatures of which all that are read verify are as many as the HTLCs.  In every run each holder
commitment below the counter was accepted with a valid signature on it and on each of its HTLC
transactions. -/
theorem counterparty_signatures_complete {ch : Channel} {v : SimpleValidator}
    (hv : ch.validator = v.toValidator) (hfilter : v.policy.filter = .default) :
    (∀ point txkeys feerate signatures tx,
      (NoAbort (ch.checkHolderTxSignatures point txkeys feerate signatures tx) ∧
        (ch.checkHolderTxSignatures point txkeys feerate signatures tx = .ok () →
          ch.FullySigned point txkeys feerate signatures tx)) ↔
        (ch.PrefixSigned point txkeys feerate signatures tx →
          signatures.htlcs.length = (ch.library.builtHtlcs tx).length)) ∧
    ∀ value events e, (ch.machine.final (Channel.initial value) events).Holds e →
      ∀ n < e.nextHolderCommitNum,
        ch.Accepted (ch.machine.trace (Channel.initial value) events) n := by
  refine ⟨fun _ _ _ _ _ => Channel.checkHolderTxSignatures_complete_iff, fun value events => ?_⟩
  exact (ch.machine.run_induction (P := ch.AllSigned) (C := fun _ => True)
    (ch.allSigned_initial value) (fun log slot event h _ => h.step hv hfilter event) events
    fun _ _ => trivial).seen

open Sample

/-- The sample channel accepts its first commitment. -/
theorem counterparty_signatures_complete_first :
    (channel .checked).Accepted ((channel .checked).machine.trace (Channel.initial 1000000)
      [ask true (validateHolder 0)]) 0 :=
  (counterparty_signatures_complete (v := validator .checked) rfl rfl).2 1000000 _ _ (.inr rfl) 0
    (by decide +kernel)

/-- A second commitment with one HTLC aborts the check when it comes without a signature on that,
and with two it is accepted, which releases the secret of the first. -/
theorem signature_count_unchecked :
    let log (htlcs : List Signature) := (channel .checked).machine.trace
      (Channel.initial 1000000) [ask true (validateHolder 0), ask true
        (.validateHolderCommitmentTxPhase2 1 1000 989000 0 [] [⟨10000, 0, 700100⟩] ⟨⟨1⟩, htlcs⟩)]
    some (.error (.abort "index out of bounds")) ∈ (log []).map (·.answer) ∧
      ReleasedHolder (log [⟨1⟩, ⟨1⟩]) 0 := by
  decide +kernel

/-- A secret that goes out belongs to a commitment two below the counter of a state then held. -/
theorem Slot.HolderOrdered.exists_holds_of_releases {ch : Channel} {v : SimpleValidator}
    (hv : ch.validator = v.toValidator) (hfilter : v.policy.filter = .default) {slot slot' : Slot}
    (hslot : slot.HolderOrdered) {event : ChannelEvent} {answer : Option (Result Reply)} {n : Nat}
    (h : ch.Stepped slot event answer slot') (hn : Answers (·.Releases n) answer) :
    ∃ e, slot'.Holds e ∧ n + 2 ≤ e.nextHolderCommitNum := by
  cases h with
  | restart => exact hn.elim
  | failed => exact hn.elim
  | @served node call request e r t hlive h =>
    have heffect := h.holderEffect hv hfilter ((hslot.live e hlive).wf hslot.stored)
    obtain ⟨reply, hr, hreleases⟩ := hn.exists
    rcases heffect.releases reply n (Option.some.inj hr) hreleases with hstored | ⟨rfl, hnext, -⟩
    · exact ⟨t.stored, .inr rfl, hstored⟩
    · exact ⟨e, .inl rfl, hnext⟩

/-- In every run, also where storing fails, the secret of a holder commitment goes out only once the
next commitment has been accepted with a valid signature on it and on each of its HTLC
transactions. -/
theorem released_after_next_signed {ch : Channel} {v : SimpleValidator}
    (hv : ch.validator = v.toValidator) (hfilter : v.policy.filter = .default) (value : Nat)
    (events : List ChannelEvent) (n : Nat)
    (hreleased : ReleasedHolder (ch.machine.trace (Channel.initial value) events) n) :
    ch.Accepted (ch.machine.trace (Channel.initial value) events) (n + 1) := by
  refine (ch.machine.run_induction (C := fun _ => True)
    (P := fun log slot => ch.AllSigned log slot ∧
      ∀ n, ReleasedHolder log n → ch.Accepted log (n + 1))
    ⟨ch.allSigned_initial value, ?_⟩ ?_ events fun _ _ => trivial).2 n hreleased
  · rintro n ⟨x, hx, -⟩
    cases hx
  · rintro log slot event ⟨hsigned, hseen⟩ -
    have hsigned' := hsigned.step hv hfilter event
    refine ⟨hsigned', fun n ⟨x, hx, hn⟩ => ?_⟩
    rcases mem_append.mp hx with hx | hx
    · exact (hseen n ⟨x, hx, hn⟩).append _
    · obtain rfl := mem_singleton.mp hx
      obtain ⟨e, he, hnext⟩ := hsigned.toHolderOrdered.exists_holds_of_releases hv hfilter
        (ch.step_stepped slot event) hn
      exact hsigned'.seen e he (n + 1) hnext

/-- The sample channel releases its first secret when it has accepted the second commitment, which
comes with an HTLC. -/
theorem released_after_next_signed_first :
    (channel .checked).Accepted ((channel .checked).machine.trace (Channel.initial 1000000)
      [ask true (validateHolder 0), ask true (.validateHolderCommitmentTxPhase2 1 1000 989000 0 []
        [⟨10000, 0, 700100⟩] ⟨⟨1⟩, [⟨1⟩]⟩)]) 1 :=
  released_after_next_signed (v := validator .checked) rfl rfl 1000000 _ 0 (by decide +kernel)

end ValidatingSigner
