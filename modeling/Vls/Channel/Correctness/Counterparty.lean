import Vls.Channel.Ledger

/-!
# The counterparty's commitments over whole runs

In every run the stored state represents a history, the state in memory one that continues it, and
every signature and every accepted revocation is recorded in the stored one.  So the signer signs
one commitment for each number, keeps at most two of them open, and can punish every revoked one.
-/

namespace ValidatingSigner

open Base Effect Ledger Channel Sample List Option

/-! ## What a step does -/

variable {n : Nat} {point : PublicKey} {info : CommitmentInfo2} {request : Request}

/-- The commitment number an event names. -/
def ChannelEvent.number : ChannelEvent → Option Nat
  | .request _ _ asked => asked.number
  | .restart => none

/-- The counterparty commitment an event asks to sign. -/
def ChannelEvent.proposed (ch : Channel) :
    ChannelEvent → Option (Nat × PublicKey × CommitmentInfo2)
  | .request _ _ asked => ch.proposed asked
  | .restart => none

/-- The step answers a request for counterparty commitment `n` with a signature. -/
def SignsCounterparty (x : ChannelEntry) (n : Nat) (signed : SignedCommitment) : Prop :=
  x.event.number = some n ∧ x.answer = some (.ok (.counterpartySigned signed))

/-- The step accepts the revocation of counterparty commitment `n`. -/
def RevokesCounterparty (x : ChannelEntry) (n : Nat) : Prop :=
  x.event.number = some n ∧ x.answer = some (.ok .revocationAccepted)

/-- The step accepts counterparty commitment `n`: it answers with a signature, or it moves the
counter and then fails to store it. -/
def AcceptsCounterparty (ch : Channel) (x : ChannelEntry) (n : Nat) (point : PublicKey)
    (info : CommitmentInfo2) : Prop :=
  x.event.proposed ch = some (n, point, info) ∧
    ((∃ signed, x.answer = some (.ok (.counterpartySigned signed))) ∨
      ∃ e e', x.before.live = some e ∧ x.after.live = some e' ∧
        e'.nextCounterpartyCommitNum ≠ e.nextCounterpartyCommitNum)

/-- Counterparty commitment `n` was accepted during a run. -/
def AcceptedCounterparty (ch : Channel) (log : List ChannelEntry) (n : Nat) (point : PublicKey)
    (info : CommitmentInfo2) : Prop :=
  ∃ x ∈ log, AcceptsCounterparty ch x n point info

theorem AcceptedCounterparty.append {ch : Channel} {log log' : List ChannelEntry}
    (h : AcceptedCounterparty ch log n point info) :
    AcceptedCounterparty ch (log ++ log') n point info := by
  obtain ⟨x, hx, hn⟩ := h
  exact ⟨x, mem_append_left _ hx, hn⟩

/-- A proposed commitment has the number its request names. -/
theorem Channel.number_of_proposed {ch : Channel}
    (h : ch.proposed request = some (n, point, info)) : request.number = some n := by
  unfold proposed at h
  split at h
  · obtain ⟨info', -, heq⟩ := map_eq_some_iff.mp h
    exact congrArg some (Prod.mk.inj heq).1
  · obtain ⟨info', -, heq⟩ := map_eq_some_iff.mp h
    exact congrArg some (Prod.mk.inj heq).1
  · cases h

/-! ## The invariant -/

/-- The invariant of a run: `Ls` is the history of the stored state. -/
structure Recorded (ch : Channel) (v : SimpleValidator) (log : List ChannelEntry) (slot : Slot)
    (Ls : Ledger) : Prop where
  stored : Ls.Represents ch v slot.stored
  live : ∀ e, slot.live = some e → ∃ L, Ls ≤ L ∧ L.Represents ch v e ∧
    ∀ n point info, L.signed[n]? = some (point, info) → AcceptedCounterparty ch log n point info
  accepted : ∀ n point info, Ls.signed[n]? = some (point, info) →
    AcceptedCounterparty ch log n point info
  signed : ∀ x ∈ log, ∀ n signed, SignsCounterparty x n signed →
    ∃ point info, x.event.proposed ch = some (n, point, info) ∧
      Ls.signed[n]? = some (point, info) ∧ ch.IsCounterpartyTx n point info signed.tx
  revoked : ∀ x ∈ log, ∀ n, RevokesCounterparty x n → n < Ls.revoked

theorem recorded_initial (ch : Channel) (v : SimpleValidator) (value : Nat) :
    Recorded ch v [] (initial value) .empty where
  stored := .new ch v value
  live := by
    rintro e ⟨⟩
    exact ⟨.empty, Ledger.le_refl _, .new ch v value, fun n point info h => nomatch h⟩
  accepted n point info h := nomatch h
  signed x hx := nomatch hx
  revoked x hx := nomatch hx

section Step

variable {ch : Channel} {v : SimpleValidator} {log : List ChannelEntry} {x : ChannelEntry}
  {Ls : Ledger}

/-- A commitment that a move adds to a history was accepted by the step that made it. -/
theorem accepts_of_moves {node : NodeState} {call : Call} {e e' : EnforcementState}
    {L L' : Ledger} (hevent : x.event = .request node call request)
    (hbefore : x.before.live = some e) (hafter : x.after.live = some e')
    (hrep : L.Represents ch v e) (hrep' : L'.Represents ch v e') (hmoves : L.Moves ch request L')
    (hn : L'.signed[n]? = some (point, info)) :
    L.signed[n]? = some (point, info) ∨ AcceptsCounterparty ch x n point info := by
  cases hmoves with
  | stay => exact .inl hn
  | revoke hopen => exact .inl hn
  | @sign m point' info' hopen hproposed hm =>
    rcases Nat.lt_or_ge n L.signed.length with hlt | hge
    · rw [Ledger.sign, List.getElem?_append_left hlt] at hn
      exact .inl hn
    · right
      have hlast : n = L.signed.length ∧ (point', info') = (point, info) := by
        rw [Ledger.sign, List.getElem?_append_right hge] at hn
        have hlt := (List.getElem?_eq_some_iff.mp hn).1
        rw [List.length_singleton] at hlt
        have hzero : n - L.signed.length = 0 := by omega
        rw [hzero] at hn
        exact ⟨by omega, some.inj hn⟩
      obtain ⟨rfl, heq⟩ := hlast
      cases heq
      subst hm
      refine ⟨?_, .inr ⟨e, e', hbefore, hafter, ?_⟩⟩
      · rw [hevent]
        exact hproposed
      · rw [hrep.commit, hrep'.commit, Ledger.sign, length_append, List.length_singleton]
        omega

/-- One more step in the record. -/
theorem Recorded.snoc {slot slot' : Slot} {Ls' : Ledger} (hrec : Recorded ch v log slot Ls)
    (hle : Ls ≤ Ls') (hstored : Ls'.Represents ch v slot'.stored)
    (hlive : ∀ e, slot'.live = some e → ∃ L, Ls' ≤ L ∧ L.Represents ch v e ∧
      ∀ n point info, L.signed[n]? = some (point, info) →
        AcceptedCounterparty ch (log ++ [x]) n point info)
    (hsigned : ∀ n signed, SignsCounterparty x n signed →
      ∃ point info, x.event.proposed ch = some (n, point, info) ∧
        Ls'.signed[n]? = some (point, info) ∧ ch.IsCounterpartyTx n point info signed.tx)
    (hrevoked : ∀ n, RevokesCounterparty x n → n < Ls'.revoked)
    (haccepted : ∀ n point info, Ls'.signed[n]? = some (point, info) →
      AcceptedCounterparty ch (log ++ [x]) n point info) :
    Recorded ch v (log ++ [x]) slot' Ls' where
  stored := hstored
  live := hlive
  accepted := haccepted
  signed y hy n signed h := by
    rcases mem_append.mp hy with hy | hy
    · obtain ⟨point, info, hproposed, hn, htx⟩ := hrec.signed y hy n signed h
      exact ⟨point, info, hproposed, getElem?_of_le hle hn, htx⟩
    · obtain rfl := mem_singleton.mp hy
      exact hsigned n signed h
  revoked y hy n h := by
    rcases mem_append.mp hy with hy | hy
    · exact (hrec.revoked y hy n h).trans_le hle.2
    · obtain rfl := mem_singleton.mp hy
      exact hrevoked n h

/-- Every step keeps the invariant, with a history that continues the one before. -/
theorem Recorded.step (hv : ch.validator = v.toValidator) (hfilter : v.policy.filter = .default)
    (hrec : Recorded ch v log x.before Ls)
    (h : ch.Stepped x.before x.event x.answer x.after) :
    ∃ Ls', Ls ≤ Ls' ∧ Recorded ch v (log ++ [x]) x.after Ls' := by
  obtain ⟨slot, event, answer, slot'⟩ := x
  replace hrec : Recorded ch v log slot Ls := hrec
  replace h : ch.Stepped slot event answer slot' := h
  have haccepted : ∀ n point info, Ls.signed[n]? = some (point, info) →
      AcceptedCounterparty ch (log ++ [⟨slot, event, answer, slot'⟩]) n point info :=
    fun n point info hn => (hrec.accepted n point info hn).append
  cases h with
  | restart =>
    refine ⟨Ls, Ledger.le_refl Ls, hrec.snoc (Ledger.le_refl Ls) hrec.stored ?_ ?_ ?_ haccepted⟩
    · rintro e ⟨⟩
      exact ⟨Ls, Ledger.le_refl Ls, hrec.stored, haccepted⟩
    · exact fun n signed hx => nomatch hx.2
    · exact fun n hx => nomatch hx.2
  | failed node call request fault live hlive =>
    refine ⟨Ls, Ledger.le_refl Ls, hrec.snoc (Ledger.le_refl Ls) hrec.stored ?_ ?_ ?_ haccepted⟩
    · intro e he
      rcases hlive with rfl | rfl
      · cases he
      · obtain ⟨L, hle, hrep, hL⟩ := hrec.live e he
        exact ⟨L, hle, hrep, fun n point info hn => (hL n point info hn).append⟩
    · exact fun n signed hx => nomatch hx.2
    · exact fun n hx => nomatch hx.2
  | @served node call request e r t hlive hserved =>
    obtain ⟨L, hle, hrep, hL⟩ := hrec.live e hlive
    obtain ⟨L', heffect⟩ := Effect.of_served hv hfilter hrep hserved
    have hle' := heffect.moves.le
    have hL' : ∀ n point info, L'.signed[n]? = some (point, info) →
        AcceptedCounterparty ch (log ++ [⟨slot, .request node call request, some r,
          ⟨some t.estate, t.stored⟩⟩]) n point info := by
      intro n point info hn
      rcases accepts_of_moves (x := ⟨slot, .request node call request, some r,
        ⟨some t.estate, t.stored⟩⟩) rfl hlive rfl hrep heffect.represents heffect.moves hn with
        hold | hnew
      · exact (hL n point info hold).append
      · exact ⟨_, mem_concat_self, hnew⟩
    by_cases hstored : t.stored = t.estate
    · have hLs := Ledger.le_trans hle hle'
      refine ⟨L', hLs, hrec.snoc hLs ?_ ?_ ?_ ?_ hL'⟩
      · change L'.Represents ch v t.stored
        rw [hstored]
        exact heffect.represents
      · rintro e' ⟨⟩
        exact ⟨L', Ledger.le_refl L', heffect.represents, hL'⟩
      · rintro n signed ⟨hn, hr⟩
        obtain ⟨-, m, point, info, hproposed, hm, -, htx⟩ :=
          heffect.signs signed (some.inj hr)
        obtain rfl := some.inj ((number_of_proposed hproposed).symm.trans hn)
        exact ⟨point, info, hproposed, hm, htx⟩
      · rintro n ⟨hn, hr⟩
        obtain ⟨-, m, hm, hrevoked⟩ := heffect.revokes (some.inj hr)
        obtain rfl := some.inj (hm.symm.trans hn)
        exact hrevoked
    · refine ⟨Ls, Ledger.le_refl Ls, hrec.snoc (Ledger.le_refl Ls) ?_ ?_ ?_ ?_ haccepted⟩
      · change Ls.Represents ch v t.stored
        rw [heffect.stored.resolve_right hstored]
        exact hrec.stored
      · rintro e' ⟨⟩
        exact ⟨L', Ledger.le_trans hle hle', heffect.represents, hL'⟩
      · rintro n signed ⟨-, hr⟩
        exact absurd (heffect.signs signed (some.inj hr)).1 hstored
      · rintro n ⟨-, hr⟩
        exact absurd (heffect.revokes (some.inj hr)).1 hstored

/-- A revoked commitment is not signed again. -/
theorem not_signs_of_revoked (hv : ch.validator = v.toValidator)
    (hfilter : v.policy.filter = .default) {slot slot' : Slot} {event : ChannelEvent}
    {answer : Option (Result Reply)} (hrec : Recorded ch v log slot Ls)
    (hrevoked : n < Ls.revoked) (h : ch.Stepped slot event answer slot')
    (hn : event.number = some n) {signed : SignedCommitment}
    (hanswer : answer = some (.ok (.counterpartySigned signed))) : False := by
  cases h with
  | restart => cases hanswer
  | failed => cases hanswer
  | @served node call request e r t hlive hserved =>
    obtain ⟨L, hle, hrep, -⟩ := hrec.live e hlive
    obtain ⟨L', heffect⟩ := Effect.of_served hv hfilter hrep hserved
    obtain ⟨-, m, point, info, hproposed, -, hm, -⟩ :=
      heffect.signs signed (some.inj hanswer)
    obtain rfl := some.inj ((number_of_proposed hproposed).symm.trans hn)
    have hle' := hle.2
    omega

end Step

section Runs

variable {ch : Channel} {v : SimpleValidator}

/-- Every run is recorded. -/
theorem recorded_of_run (hv : ch.validator = v.toValidator) (hfilter : v.policy.filter = .default)
    (value : Nat) (events : List ChannelEvent) :
    ∃ Ls, Recorded ch v (ch.machine.trace (initial value) events)
      (ch.machine.final (initial value) events) Ls := by
  refine ch.machine.run_induction (C := fun _ => True)
    (P := fun log slot => ∃ Ls, Recorded ch v log slot Ls)
    ⟨.empty, recorded_initial ch v value⟩ ?_ events fun _ _ => trivial
  rintro log slot event ⟨Ls, hrec⟩ -
  obtain ⟨Ls', -, hrec'⟩ := Recorded.step (x := ch.machine.entry slot event) hv hfilter hrec
    (ch.step_stepped slot event)
  exact ⟨Ls', hrec'⟩

/-! ## One commitment for each number -/

/-- A transaction of the commitment under `point` carries that point. -/
theorem Channel.IsCounterpartyTx.point_eq {tx : CommitmentTransaction}
    (h : ch.IsCounterpartyTx n point info tx) : tx.keys.perCommitmentPoint = point := by
  obtain ⟨_, _, _, -, -, -, htx⟩ := h
  obtain ⟨index, -, htx⟩ := bind_ok htx
  rw [← pure_eq_ok.mp htx]
  rfl

/-- Two transactions of one commitment differ at most in the order of their HTLCs. -/
theorem Channel.IsCounterpartyTx.same {tx tx' : CommitmentTransaction}
    (h : ch.IsCounterpartyTx n point info tx) (h' : ch.IsCounterpartyTx n point info tx') :
    { tx with htlcs := [] } = { tx' with htlcs := [] } ∧ tx.htlcs.Perm tx'.htlcs := by
  obtain ⟨offered, received, htlcs, hoffered, hreceived, hhtlcs, htx⟩ := h
  obtain ⟨offered', received', htlcs', hoffered', hreceived', hhtlcs', htx'⟩ := h'
  obtain ⟨index, hindex, htx⟩ := bind_ok htx
  obtain ⟨index', hindex', htx'⟩ := bind_ok htx'
  obtain rfl := Except.ok.inj (hindex.symm.trans hindex')
  cases htx
  cases htx'
  refine ⟨rfl, ?_⟩
  change htlcs.Perm htlcs'
  rw [htlcsInfo2ToOic_ok hhtlcs, htlcsInfo2ToOic_ok hhtlcs']
  exact ((hoffered.trans hoffered'.symm).map _).append ((hreceived.trans hreceived'.symm).map _)

/-- The signer signs one commitment for each number of the counterparty: all its signatures for a
number are for one point and one description, up to the order of HTLCs, and none goes out once the
number is revoked. -/
theorem counterparty_commitment_unique (hv : ch.validator = v.toValidator)
    (hfilter : v.policy.filter = .default) (value : Nat) (events : List ChannelEvent) :
    (∀ x ∈ ch.machine.trace (initial value) events,
      ∀ y ∈ ch.machine.trace (initial value) events, ∀ n signed signed',
        SignsCounterparty x n signed → SignsCounterparty y n signed' →
        (∃ point info, x.event.proposed ch = some (n, point, info) ∧
          y.event.proposed ch = some (n, point, info) ∧
          signed.tx.keys.perCommitmentPoint = point) ∧
        { signed.tx with htlcs := [] } = { signed'.tx with htlcs := [] } ∧
        signed.tx.htlcs.Perm signed'.tx.htlcs) ∧
    ∀ first x second, ch.machine.trace (initial value) events = first ++ x :: second →
      ∀ n, (∃ y ∈ first, RevokesCounterparty y n) → ∀ signed, ¬ SignsCounterparty x n signed := by
  obtain ⟨Ls, hrec⟩ := recorded_of_run hv hfilter value events
  refine ⟨fun x hx y hy n signed signed' hsigned hsigned' => ?_, ?_⟩
  · obtain ⟨point, info, hproposed, hn, htx⟩ := hrec.signed x hx n signed hsigned
    obtain ⟨point', info', hproposed', hn', htx'⟩ := hrec.signed y hy n signed' hsigned'
    obtain ⟨rfl, rfl⟩ := Prod.mk.inj (some.inj (hn.symm.trans hn'))
    exact ⟨⟨point, info, hproposed, hproposed', htx.point_eq⟩, htx.same htx'⟩
  · rintro first x second htrace n ⟨y, hy, hrevokes⟩ signed ⟨hn, hanswer⟩
    obtain ⟨before, event, after, rfl, rfl, rfl⟩ := ch.machine.trace_eq_append_cons htrace
    obtain ⟨Ls, hrec⟩ := recorded_of_run hv hfilter value before
    have hrevoked := hrec.revoked y hy n hrevokes
    have hstepped := ch.step_stepped (ch.machine.final (initial value) before) event
    exact not_signs_of_revoked hv hfilter hrec hrevoked hstepped hn hanswer

/-- The sample channel signs its first counterparty commitment twice, the second time after a
restart, for the same point. -/
theorem counterparty_commitment_unique_sample :
    let log := (channel .checked).machine.trace (initial 1000000)
      [ask true (signCounterparty 0 ⟨7⟩), .restart,
        ask true (signCounterparty 0 ⟨7⟩)]
    (∀ x ∈ log, x.event ≠ .restart → Answers (fun _ => True) x.answer) ∧
    ∀ x ∈ log, ∀ y ∈ log, ∀ signed signed', SignsCounterparty x 0 signed →
      SignsCounterparty y 0 signed' → ∃ point info,
        x.event.proposed (channel .checked) = some (0, point, info) ∧
        y.event.proposed (channel .checked) = some (0, point, info) ∧
        signed.tx.keys.perCommitmentPoint = point := by
  refine ⟨?_, fun x hx y hy signed signed' h h' => ?_⟩
  · intro x hx
    rcases hx with _ | ⟨_, _ | ⟨_, _ | ⟨_, hx⟩⟩⟩
    · intro _
      decide +kernel
    · exact fun h => absurd rfl h
    · intro _
      decide +kernel
    · cases hx
  · exact ((counterparty_commitment_unique (v := validator .checked) rfl rfl 1000000 _).1
      x hx y hy 0 signed signed' h h').1

/-! ## Every revoked commitment can be punished -/

/-- The secret of every revoked commitment is kept, and its public key is the point the commitment
was accepted under and every signature for its number is for. -/
theorem revoked_commitment_punishable (hv : ch.validator = v.toValidator)
    (hfilter : v.policy.filter = .default) (value : Nat) (events : List ChannelEvent)
    {e : EnforcementState} (he : (ch.machine.final (initial value) events).Holds e)
    {n index : Nat} (hn : n < e.nextCounterpartyRevokeNum)
    (hindex : index + n = INITIAL_COMMITMENT_NUMBER) :
    ∃ secrets secret point info, e.counterpartySecrets = some secrets ∧
      secrets.getSecret ch.library.sha256 index = .ok (some secret) ∧
      v.library.publicKey secret = point ∧
      AcceptedCounterparty ch (ch.machine.trace (initial value) events) n point info ∧
      ∀ x ∈ ch.machine.trace (initial value) events, ∀ signed,
        SignsCounterparty x n signed → signed.tx.keys.perCommitmentPoint = point := by
  obtain ⟨Ls, hrec⟩ := recorded_of_run hv hfilter value events
  obtain ⟨L, hle, hrep, haccepted⟩ : ∃ L, Ls ≤ L ∧ L.Represents ch v e ∧
      ∀ n point info, L.signed[n]? = some (point, info) → AcceptedCounterparty ch
        (ch.machine.trace (initial value) events) n point info := by
    rcases he with he | rfl
    · exact hrec.live e he
    · exact ⟨Ls, Ledger.le_refl Ls, hrec.stored, hrec.accepted⟩
  rw [hrep.revoke] at hn
  unfold INITIAL_COMMITMENT_NUMBER at hindex
  obtain ⟨secrets, count, known, hsecrets, hholds, hcount, hlow, hhigh, hknown⟩ := hrep.kept
  obtain ⟨⟨point, info⟩, hentry, hpoint⟩ := hknown n (by omega)
  rw [show 2 ^ 48 - 1 - n = index by omega] at hpoint
  refine ⟨secrets, known index, point, info, hsecrets, ?_, hpoint, haccepted n point info hentry,
    fun x hx signed hsigned => ?_⟩
  · exact hholds.getSecret_eq (by omega) (by omega)
  · obtain ⟨point', info', -, hn', htx⟩ := hrec.signed x hx n signed hsigned
    have hsame := some.inj ((getElem?_of_le hle hn').symm.trans hentry)
    rw [htx.point_eq, (Prod.mk.inj hsame).1]

/-- After two signatures and a revocation the sample channel has the first secret. -/
theorem revoked_commitment_punishable_sample :
    let slot := (channel .checked).machine.final (initial 1000000)
      [ask true (signCounterparty 0 ⟨7⟩),
        ask true (signCounterparty 1 ⟨8⟩),
        ask true (.validateCounterpartyRevocation 0 7)]
    ∃ secrets secret, slot.stored.counterpartySecrets = some secrets ∧
      secrets.getSecret library.sha256 INITIAL_COMMITMENT_NUMBER = .ok (some secret) := by
  obtain ⟨secrets, secret, -, -, hsecrets, hsecret, -⟩ :=
    @revoked_commitment_punishable (channel .checked) (validator .checked)
      rfl rfl 1000000
      [ask true (signCounterparty 0 ⟨7⟩),
        ask true (signCounterparty 1 ⟨8⟩),
        ask true (.validateCounterpartyRevocation 0 7)]
      _ (.inr rfl) 0 INITIAL_COMMITMENT_NUMBER (by decide +kernel) rfl
  exact ⟨secrets, secret, hsecrets, hsecret⟩

end Runs

/-! ## Counters and what they stand for -/

/-- The counters of a state, and the points and descriptions it keeps, in terms of the commitments
accepted until then.  The previous point is missing only for want of a previous commitment, and the
previous description also once that commitment is revoked; in a build that wraps, signing the last
number again drops both. -/
structure CountersKept (ch : Channel) (log : List ChannelEntry) (e : EnforcementState) : Prop where
  order : (e.nextCounterpartyCommitNum = 0 ∧ e.nextCounterpartyRevokeNum = 0) ∨
    (e.nextCounterpartyRevokeNum + 1 ≤ e.nextCounterpartyCommitNum ∧
      e.nextCounterpartyCommitNum ≤ e.nextCounterpartyRevokeNum + 2)
  unique : ∀ n point info point' info', AcceptedCounterparty ch log n point info →
    AcceptedCounterparty ch log n point' info' → point = point' ∧ info = info'
  first : e.nextCounterpartyCommitNum = 0 →
    e.currentCounterpartyPoint = none ∧ e.currentCounterpartyCommitInfo = none
  current : ∀ n, n + 1 = e.nextCounterpartyCommitNum →
    ∃ point info, AcceptedCounterparty ch log n point info ∧
      e.currentCounterpartyPoint = some point ∧ e.currentCounterpartyCommitInfo = some info
  early : e.nextCounterpartyCommitNum < 2 →
    e.previousCounterpartyPoint = none ∧ e.previousCounterpartyCommitInfo = none
  previous : ∀ n, n + 2 = e.nextCounterpartyCommitNum →
    ∃ point info, AcceptedCounterparty ch log n point info ∧
      (e.previousCounterpartyPoint = some point ∧
          (e.previousCounterpartyCommitInfo = some info ∨
            e.previousCounterpartyCommitInfo = none ∧ n < e.nextCounterpartyRevokeNum) ∨
        ch.overflow = .wrapping ∧ e.nextCounterpartyCommitNum = 2 ^ 64 - 1 ∧
          e.previousCounterpartyPoint = none ∧ e.previousCounterpartyCommitInfo = none)

/-- A step moves each counter by at most one, and never back. -/
def StepsByOne (x : ChannelEntry) : Prop :=
  ∀ e e', x.before.live = some e → x.after.live = some e' →
    (e'.nextCounterpartyCommitNum = e.nextCounterpartyCommitNum ∨
      e'.nextCounterpartyCommitNum = e.nextCounterpartyCommitNum + 1) ∧
    (e'.nextCounterpartyRevokeNum = e.nextCounterpartyRevokeNum ∨
      e'.nextCounterpartyRevokeNum = e.nextCounterpartyRevokeNum + 1)

/-- The history of the state in memory is made of the accepted commitments. -/
def Slot.Follows (ch : Channel) (v : SimpleValidator) (log : List ChannelEntry) (slot : Slot) :
    Prop :=
  ∀ e, slot.live = some e → ∃ L : Ledger, L.Represents ch v e ∧
    ∀ n point info, AcceptedCounterparty ch log n point info ↔ L.signed[n]? = some (point, info)

section Counters

variable {ch : Channel} {v : SimpleValidator} {log : List ChannelEntry}

/-- A state whose history is made of the accepted commitments keeps what it should. -/
theorem Ledger.Represents.countersKept {L : Ledger} {e : EnforcementState}
    (hrep : L.Represents ch v e)
    (haccepted : ∀ n point info,
      AcceptedCounterparty ch log n point info ↔ L.signed[n]? = some (point, info)) :
    CountersKept ch log e where
  order := by
    rw [hrep.commit, hrep.revoke]
    rcases L.order with ⟨hsigned, hrevoked⟩ | h
    · exact .inl ⟨by rw [hsigned]; rfl, hrevoked⟩
    · exact .inr h
  unique n point info point' info' h h' := by
    have hsame := ((haccepted n point info).mp h).symm.trans ((haccepted n point' info').mp h')
    exact Prod.mk.inj (some.inj hsame)
  first h := by
    rw [hrep.commit, length_eq_zero_iff] at h
    rw [hrep.currentPoint, hrep.currentInfo, h]
    exact ⟨rfl, rfl⟩
  current n hn := by
    rw [hrep.commit] at hn
    obtain ⟨⟨point, info⟩, hlast⟩ : ∃ entry, L.signed.getLast? = some entry := by
      rw [getLast?_eq_getElem?, ← hn]
      exact ⟨_, List.getElem?_eq_getElem (by omega)⟩
    refine ⟨point, info, (haccepted n point info).mpr (getElem?_last hn hlast), ?_, ?_⟩
    · rw [hrep.currentPoint, hlast]
      rfl
    · rw [hrep.currentInfo, hlast]
      rfl
  early h := by
    rw [hrep.commit] at h
    rcases hrep.previous with ⟨hpoint, hinfo⟩ | ⟨-, -, hpoint, hinfo⟩
    · rw [hpoint, hinfo, previous?_eq_none h]
      exact ⟨rfl, ite_self _⟩
    · exact ⟨hpoint, hinfo⟩
  previous n hn := by
    rw [hrep.commit] at hn
    obtain ⟨⟨point, info⟩, hlast⟩ : ∃ entry, L.previous? = some entry := by
      rw [previous?, getLast?_eq_getElem?, length_dropLast, ← hn]
      exact ⟨_, List.getElem?_eq_getElem (by rw [length_dropLast]; omega)⟩
    refine ⟨point, info, (haccepted n point info).mpr (getElem?_previous hn hlast), ?_⟩
    rcases hrep.previous with ⟨hpoint, hinfo⟩ | ⟨hwrap, hlength, hpoint, hinfo⟩
    · rw [hlast] at hpoint hinfo
      refine .inl ⟨hpoint, ?_⟩
      by_cases hopen : L.signed.length = L.revoked + 2
      · rw [if_pos hopen] at hinfo
        exact .inl hinfo
      · rw [if_neg hopen] at hinfo
        have hle := L.length_le
        refine .inr ⟨hinfo, ?_⟩
        rw [hrep.revoke]
        omega
    · exact .inr ⟨hwrap, hrep.commit.trans hlength, hpoint, hinfo⟩

theorem Ledger.Moves.by_one {L L' : Ledger} (h : L.Moves ch request L') :
    (L'.signed.length = L.signed.length ∨ L'.signed.length = L.signed.length + 1) ∧
      (L'.revoked = L.revoked ∨ L'.revoked = L.revoked + 1) := by
  cases h with
  | stay => exact ⟨.inl rfl, .inl rfl⟩
  | sign hopen => exact ⟨.inr (by simp [Ledger.sign]), .inl rfl⟩
  | revoke hopen => exact ⟨.inl rfl, .inr rfl⟩

/-- What a step accepts is recorded in the history it leaves. -/
theorem getElem?_of_accepts {slot : Slot} {node : NodeState} {call : Call} {r : Result Reply}
    {e : EnforcementState} {s t : Session} {L L' : Ledger} (hlive : slot.live = some e)
    (hrep : L.Represents ch v e) (heffect : Effect ch v s t request r L L')
    (h : AcceptsCounterparty ch ⟨slot, .request node call request, some r,
      ⟨some t.estate, t.stored⟩⟩ n point info) : L'.signed[n]? = some (point, info) := by
  obtain ⟨hproposed, ⟨signed, hr⟩ | ⟨e₁, e₂, he₁, he₂, hmoved⟩⟩ := h
  · obtain ⟨-, m, point', info', hproposed', hm, -⟩ := heffect.signs signed (some.inj hr)
    obtain ⟨rfl, heq⟩ := Prod.mk.inj (some.inj (hproposed'.symm.trans hproposed))
    cases heq
    exact hm
  · obtain rfl := some.inj (hlive.symm.trans he₁)
    obtain rfl := some.inj he₂
    rw [hrep.commit, heffect.represents.commit] at hmoved
    cases heffect.moves with
    | stay => exact absurd rfl hmoved
    | revoke hopen => exact absurd rfl hmoved
    | sign hopen hproposed' hm =>
      obtain ⟨rfl, heq⟩ := Prod.mk.inj (some.inj (hproposed'.symm.trans hproposed))
      cases heq
      rw [hm]
      simp [Ledger.sign]

/-- A step other than a restart keeps the history of the state in memory that of the accepted
commitments, and moves the counters by at most one. -/
theorem Slot.Follows.step (hv : ch.validator = v.toValidator)
    (hfilter : v.policy.filter = .default) {x : ChannelEntry} (hslot : x.before.Follows ch v log)
    (hrun : x.event ≠ .restart) (h : ch.Stepped x.before x.event x.answer x.after) :
    x.after.Follows ch v (log ++ [x]) ∧ StepsByOne x := by
  obtain ⟨slot, event, answer, slot'⟩ := x
  replace hslot : slot.Follows ch v log := hslot
  replace h : ch.Stepped slot event answer slot' := h
  cases h with
  | restart => exact absurd rfl hrun
  | failed node call request fault live hlive =>
    rcases hlive with rfl | rfl
    · exact ⟨(fun e he => nomatch he), (fun e e' _ he' => nomatch he')⟩
    · refine ⟨fun e he => ?_, fun e e' he he' => ?_⟩
      · obtain ⟨L, hrep, hL⟩ := hslot e he
        refine ⟨L, hrep, fun n point info => ⟨?_, fun hn => ((hL n point info).mpr hn).append⟩⟩
        rintro ⟨y, hy, hy'⟩
        rcases mem_append.mp hy with hy | hy
        · exact (hL n point info).mp ⟨y, hy, hy'⟩
        · obtain rfl := mem_singleton.mp hy
          obtain ⟨-, ⟨signed, hr⟩ | ⟨e₁, e₂, he₁, he₂, hmoved⟩⟩ := hy'
          · cases hr
          · obtain rfl := some.inj (he₁.symm.trans he₂)
            exact absurd rfl hmoved
      · obtain rfl := some.inj (he.symm.trans he')
        exact ⟨.inl rfl, .inl rfl⟩
  | @served node call request e r t hlive hserved =>
    obtain ⟨L, hrep, hL⟩ := hslot e hlive
    obtain ⟨L', heffect⟩ := Effect.of_served hv hfilter hrep hserved
    refine ⟨?_, ?_⟩
    · rintro e' ⟨⟩
      refine ⟨L', heffect.represents, fun n point info => ⟨?_, fun hn => ?_⟩⟩
      · rintro ⟨y, hy, hy'⟩
        rcases mem_append.mp hy with hy | hy
        · exact getElem?_of_le heffect.moves.le ((hL n point info).mp ⟨y, hy, hy'⟩)
        · obtain rfl := mem_singleton.mp hy
          exact getElem?_of_accepts hlive hrep heffect hy'
      · rcases accepts_of_moves (x := ⟨slot, .request node call request, some r,
          ⟨some t.estate, t.stored⟩⟩) rfl hlive rfl hrep heffect.represents heffect.moves hn with
          hold | hnew
        · exact ((hL n point info).mpr hold).append
        · exact ⟨_, mem_concat_self, hnew⟩
    · intro e₁ e₂ he₁ he₂
      obtain rfl := some.inj (hlive.symm.trans he₁)
      obtain rfl := some.inj he₂
      rw [hrep.commit, hrep.revoke, heffect.represents.commit, heffect.represents.revoke]
      exact heffect.moves.by_one

/-- In every run without restarts the counterparty counters move by at most one and never back, at
most two commitments are open, and the state keeps the points and descriptions of the last two. -/
theorem counterparty_counters (hv : ch.validator = v.toValidator)
    (hfilter : v.policy.filter = .default) (value : Nat) (events : List ChannelEvent)
    (hrun : ∀ event ∈ events, event ≠ .restart) :
    (∀ x ∈ ch.machine.trace (initial value) events, StepsByOne x) ∧
    ∀ e, (ch.machine.final (initial value) events).live = some e →
      CountersKept ch (ch.machine.trace (initial value) events) e := by
  have hC : ∀ x ∈ ch.machine.trace (initial value) events, x.event ≠ .restart :=
    fun x hx => hrun _ (ch.machine.event_mem_of_mem_trace hx)
  have hinv := ch.machine.run_induction
    (P := fun log slot => slot.Follows ch v log ∧ ∀ x ∈ log, StepsByOne x) ?_ ?_ events hC
  · refine ⟨hinv.2, fun e he => ?_⟩
    obtain ⟨L, hrep, hL⟩ := hinv.1 e he
    exact hrep.countersKept hL
  · refine ⟨?_, fun x hx => nomatch hx⟩
    rintro e ⟨⟩
    refine ⟨.empty, .new ch v value, fun n point info => ⟨?_, fun hn => nomatch hn⟩⟩
    rintro ⟨x, hx, -⟩
    cases hx
  · rintro log slot event ⟨hslot, hsteps⟩ hevent
    obtain ⟨hslot', hstep⟩ := Slot.Follows.step (x := ch.machine.entry slot event) hv hfilter hslot
      hevent (ch.step_stepped slot event)
    refine ⟨hslot', fun x hx => ?_⟩
    rcases mem_append.mp hx with hx | hx
    · exact hsteps x hx
    · obtain rfl := mem_singleton.mp hx
      exact hstep

/-- After two signatures the sample channel keeps both points. -/
theorem counterparty_counters_sample :
    ∃ e, ((channel .checked).machine.final (initial 1000000)
        [ask true (signCounterparty 0 ⟨7⟩),
          ask true (signCounterparty 1 ⟨8⟩)]).live = some e ∧
      e.nextCounterpartyCommitNum ≤ e.nextCounterpartyRevokeNum + 2 := by
  have hrun : ∀ event ∈ [ask true (signCounterparty 0 ⟨7⟩),
      ask true (signCounterparty 1 ⟨8⟩)], event ≠ .restart := by
    simp [ask]
  have hlive : ((channel .checked).machine.final (initial 1000000)
      [ask true (signCounterparty 0 ⟨7⟩),
        ask true (signCounterparty 1 ⟨8⟩)]).live.isSome = true := by
    decide +kernel
  obtain ⟨e, he⟩ := isSome_iff_exists.mp hlive
  have hkept := (counterparty_counters (v := validator .checked) rfl rfl 1000000 _ hrun).2
    e he
  refine ⟨e, he, ?_⟩
  rcases hkept.order with ⟨h, -⟩ | ⟨-, h⟩ <;> omega

end Counters

end ValidatingSigner
