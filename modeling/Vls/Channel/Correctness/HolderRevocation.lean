import Vls.Channel.Served

/-!
# Revoked holder commitments are never signed

A holder commitment whose secret has gone out must never be signed, and the secret of a signed one
must never go out.  The stored state separates the two: every released number lies two or more below
its holder counter, every signed one at most one below, and a signature closes the channel for good,
which stops the counter.
-/

namespace ValidatingSigner

open Base Effect Channel Sample

/-! ## What replies reveal -/

/-- The reply carries a signature on holder commitment `n`. -/
def Reply.SignsHolder (n : Nat) : Reply → Prop
  | .holderSigned signed | .counterpartySigned signed =>
    signed.tx.isHolder = true ∧ signed.tx.commitmentNumber + n = INITIAL_COMMITMENT_NUMBER
  | _ => False

/-- The reply carries the secret of holder commitment `n`. -/
def Reply.Releases (n : Nat) : Reply → Prop
  | .secret released | .holderAccepted _ (some released) =>
    released.index + n = INITIAL_COMMITMENT_NUMBER
  | _ => False

instance (n : Nat) (reply : Reply) : Decidable (reply.SignsHolder n) := by
  cases reply <;> unfold Reply.SignsHolder <;> infer_instance

instance (n : Nat) (reply : Reply) : Decidable (reply.Releases n) := by
  rcases reply with _ | _ | _ | ⟨_, _ | _⟩ | _ | _ | _ <;> unfold Reply.Releases <;>
    infer_instance

/-- Holder commitment `n` was signed during a run. -/
def SignedHolder (log : List ChannelEntry) (n : Nat) : Prop :=
  ∃ x ∈ log, Answers (·.SignsHolder n) x.answer

instance (log : List ChannelEntry) (n : Nat) : Decidable (SignedHolder log n) :=
  inferInstanceAs (Decidable (∃ x ∈ log, Answers (·.SignsHolder n) x.answer))

/-- The secret of holder commitment `n` was released during a run. -/
def ReleasedHolder (log : List ChannelEntry) (n : Nat) : Prop :=
  ∃ x ∈ log, Answers (·.Releases n) x.answer

instance (log : List ChannelEntry) (n : Nat) : Decidable (ReleasedHolder log n) :=
  inferInstanceAs (Decidable (∃ x ∈ log, Answers (·.Releases n) x.answer))

/-! ## Holder states -/

/-- The holder counter of a state is a machine word that can still be raised, and there is no
commitment before the first. -/
structure EnforcementState.HolderWf (e : EnforcementState) : Prop where
  bound : e.nextHolderCommitNum + 1 < 2 ^ 64
  info : e.nextHolderCommitNum = 0 → e.currentHolderCommitInfo = none

/-- A state that may follow `e`: its holder counter has not gone back, and has not moved if the
channel was closed. -/
structure EnforcementState.HolderLater (e e' : EnforcementState) : Prop where
  wf : e.HolderWf → e'.HolderWf
  next_le : e.nextHolderCommitNum ≤ e'.nextHolderCommitNum
  closed : e.channelClosed = true → e'.channelClosed = true ∧
    e'.nextHolderCommitNum = e.nextHolderCommitNum

namespace EnforcementState

variable {e e' : EnforcementState}

theorem holderWf_new (value : Nat) : (new value).HolderWf :=
  ⟨show 0 + 1 < 2 ^ 64 by decide, fun _ => rfl⟩

theorem HolderLater.of_same (hnext : e'.nextHolderCommitNum = e.nextHolderCommitNum)
    (hinfo : e'.currentHolderCommitInfo = e.currentHolderCommitInfo)
    (hclosed : e'.channelClosed = e.channelClosed) : e.HolderLater e' where
  wf h := ⟨hnext ▸ h.bound, fun h0 => hinfo ▸ h.info (hnext ▸ h0)⟩
  next_le := hnext.ge
  closed h := ⟨hclosed ▸ h, hnext⟩

theorem HolderLater.refl (e : EnforcementState) : e.HolderLater e := .of_same rfl rfl rfl

theorem HolderLater.trans {e'' : EnforcementState} (h : e.HolderLater e')
    (h' : e'.HolderLater e'') : e.HolderLater e'' where
  wf hw := h'.wf (h.wf hw)
  next_le := h.next_le.trans h'.next_le
  closed hc :=
    have hc' := h.closed hc
    ⟨(h'.closed hc'.1).1, (h'.closed hc'.1).2.trans hc'.2⟩

theorem HolderLater.close (e : EnforcementState) : e.HolderLater e.close where
  wf h := ⟨h.bound, h.info⟩
  next_le := le_rfl
  closed _ := ⟨rfl, rfl⟩

/-- The counterparty setters leave the holder fields alone. -/
theorem HolderLater.of_setNextCounterpartyCommitNum {o : Overflow} {num : Nat} {point : PublicKey}
    {info : CommitmentInfo2} (h : e.setNextCounterpartyCommitNum o num point info = .ok e') :
    e.HolderLater e' := by
  obtain ⟨u, -, h⟩ := bind_ok h
  obtain ⟨next, -, h⟩ := bind_ok h
  cases h
  refine .of_same ?_ ?_ ?_ <;> split_ifs <;> rfl

theorem HolderLater.of_setNextCounterpartyRevokeNum {o : Overflow} {num : Nat}
    (h : e.setNextCounterpartyRevokeNum o num = .ok e') : e.HolderLater e' := by
  obtain ⟨u, -, h⟩ := bind_ok h
  obtain ⟨next, -, h⟩ := bind_ok h
  cases h
  exact .of_same rfl rfl rfl

end EnforcementState

/-! ## What one request does -/

namespace Channel

variable {ch : Channel} {v : SimpleValidator} {call : Call} {s t : Session} {n : Nat}
  {e e' : EnforcementState} {released : ReleasedSecret}

theorem HolderLater.of_storeSecret {secret : Bytes32} (h : ch.storeSecret e n secret = .ok e') :
    e.HolderLater e' := by
  obtain ⟨secrets, rfl⟩ := storeSecret_ok h
  exact .of_same rfl rfl rfl

/-- An index that counts down from the initial one determines its number. -/
theorem number_eq_of_index {o : Overflow} {index m : Nat} (hn : n < 2 ^ 64)
    (h : (o.sub INITIAL_COMMITMENT_NUMBER n : Result Nat) = .ok index)
    (hm : index + m = INITIAL_COMMITMENT_NUMBER) : m = n ∧ n < 2 ^ 48 := by
  have hindex := Overflow.eq_mod_of_sub (by decide) h
  unfold INITIAL_COMMITMENT_NUMBER at hindex hm
  omega

/-- Under the default filter a secret is handed out only when its commitment has been replaced
twice over. -/
theorem replaced_of_released (hfilter : ch.validator.filter = .default) (hn : n < 2 ^ 64)
    (h : ch.getPerCommitmentSecret e n = .ok released) {m : Nat}
    (hm : released.index + m = INITIAL_COMMITMENT_NUMBER) :
    m = n ∧ n + 2 ≤ e.nextHolderCommitNum := by
  obtain ⟨hguard, hindex, -⟩ := getPerCommitmentSecret_ok hfilter h
  obtain ⟨rfl, hlt⟩ := number_eq_of_index hn hindex hm
  exact ⟨rfl, by omega⟩

/-- The number before the holder counter, when there is a commitment. -/
theorem pred_nextHolderCommitNum {o : Overflow} (hwf : e.HolderWf)
    (hinfo : ∃ info, e.currentHolderCommitInfo = some info)
    (h : (o.sub e.nextHolderCommitNum 1 : Result Nat) = .ok n) : n + 1 = e.nextHolderCommitNum := by
  obtain ⟨info, hinfo⟩ := hinfo
  have hpos : e.nextHolderCommitNum ≠ 0 := fun h0 => nomatch (hwf.info h0).symm.trans hinfo
  have hbound := hwf.bound
  have hmod := Overflow.eq_mod_of_sub (by omega) h
  omega

/-- A signed holder commitment is not revoked: at most its own number has been replaced. -/
theorem HolderSignable.next_le (hv : ch.validator = v.toValidator)
    (hfilter : v.policy.filter = .default) (hwf : e.HolderWf) (hn : n < 2 ^ 64)
    (h : ch.HolderSignable call e n) : e.nextHolderCommitNum ≤ n + 1 := by
  have hdefault := filter_default hv hfilter
  cases h with
  | current info h =>
    obtain ⟨hnext, -⟩ := Validator.getCurrentHolderCommitmentInfo_ok hdefault h
    omega
  | recovery info hinfo h => exact (pred_nextHolderCommitNum hwf ⟨info, hinfo⟩ h).ge
  | redundant point info h =>
    rw [hv] at h
    have hrevoked := (SimpleValidator.validateHolderCommitmentTx_ok hfilter h).2.2.1
    omega

/-- Accepting holder commitment `n` moves the counter to `n + 1`, unless the channel is closed, when
it has to be there already. -/
theorem HolderAdvanced.later (hv : ch.validator = v.toValidator)
    (hfilter : v.policy.filter = .default) (hwf : s.estate.HolderWf) (hn : n < 2 ^ 64)
    {signatures : CommitmentSignatures} {update : CommitmentUpdate}
    {secret : Option ReleasedSecret} {node : NodeState}
    (h : ch.HolderAdvanced call s n signatures update secret e node) :
    s.estate.HolderLater e ∧ e.nextHolderCommitNum = n + 1 := by
  have hdefault := filter_default hv hfilter
  obtain ⟨num, hnum, hset⟩ := h.advance
  obtain ⟨hstep, rfl⟩ := Validator.setNextHolderCommitNum_ok hdefault hset
  obtain ⟨point, hvalid⟩ := h.checked.valid
  rw [hv] at hvalid
  obtain ⟨-, hretry, hrevoked, hclosing⟩ :=
    SimpleValidator.validateHolderCommitmentTx_ok hfilter hvalid
  have hmod := Overflow.eq_mod_of_uint hnum
  have hbound := hwf.bound
  have hwrap : n + 2 < 2 ^ 64 := by
    by_contra hlarge
    have hzero : s.estate.nextHolderCommitNum = 0 := by omega
    exact nomatch (hretry (by omega)).symm.trans (hwf.info hzero)
  have hnum' : num = n + 1 := by omega
  subst hnum'
  refine ⟨⟨fun _ => ⟨?_, ?_⟩, ?_, fun hclosed => ⟨hclosed, ?_⟩⟩, rfl⟩
  · exact hwrap
  · exact fun h0 => nomatch h0
  · change s.estate.nextHolderCommitNum ≤ n + 1
    omega
  · change n + 1 = s.estate.nextHolderCommitNum
    have hne : n ≠ s.estate.nextHolderCommitNum := by
      intro heq
      rw [hclosing heq] at hclosed
      cases hclosed
    omega

/-- What a served request means for the holder's commitments. -/
structure HolderEffect (s t : Session) (request : Request) (r : Result Reply) : Prop where
  later : s.estate.HolderLater t.estate
  stored : t.stored = s.stored ∨ t.stored = t.estate
  signs : ∀ reply n, r = .ok reply → reply.SignsHolder n →
    t.stored = t.estate ∧ t.estate.channelClosed = true ∧ t.estate.nextHolderCommitNum ≤ n + 1
  releases : ∀ reply n, r = .ok reply → reply.Releases n →
    n + 2 ≤ t.stored.nextHolderCommitNum ∨
      t = s ∧ n + 2 ≤ s.estate.nextHolderCommitNum ∧
        ∃ m, request = .getPerCommitmentSecret m ∧ m.toNat = n

/-- The effect of an operation that stores what it writes before it replies. -/
theorem HolderEffect.of_ended {request : Request} {reply : Reply} {r : Result Reply}
    {node : NodeState} (hlater : s.estate.HolderLater e)
    (hended : Ended call s.stored e node reply r t)
    (hsigns : ∀ n, reply.SignsHolder n → e.channelClosed = true ∧ e.nextHolderCommitNum ≤ n + 1)
    (hreleases : ∀ n, reply.Releases n → n + 2 ≤ e.nextHolderCommitNum) :
    HolderEffect s t request r where
  later := hended.estate_eq ▸ hlater
  stored := hended.estate_eq ▸ hended.stored_eq
  signs _ n hr h := by
    rw [hended.estate_eq]
    exact ⟨(hended.of_ok hr).2, hsigns n ((hended.of_ok hr).1 ▸ h)⟩
  releases _ n hr h := by
    rw [(hended.of_ok hr).2]
    exact .inl (hreleases n ((hended.of_ok hr).1 ▸ h))

theorem IsCounterpartyTx.isHolder_eq {point : PublicKey} {info : CommitmentInfo2}
    {tx : CommitmentTransaction} (h : ch.IsCounterpartyTx n point info tx) :
    tx.isHolder = false := by
  obtain ⟨_, _, _, -, -, -, htx⟩ := h
  obtain ⟨index, -, htx⟩ := bind_ok htx
  rw [← pure_eq_ok.mp htx]

/-- The secret released with commitment `n` is that of the commitment before. -/
theorem oldSecret_ok (hfilter : ch.validator.filter = .default) (hn : n < 2 ^ 64)
    (h : ch.oldSecret e n = .ok (some released)) {m : Nat}
    (hm : released.index + m = INITIAL_COMMITMENT_NUMBER) : m + 2 ≤ e.nextHolderCommitNum := by
  unfold oldSecret at h
  by_cases hpos : 1 ≤ n
  · rw [if_pos hpos] at h
    obtain ⟨released', hsecret, heq⟩ := bind_ok h
    obtain rfl := Option.some.inj (pure_eq_ok.mp heq)
    obtain ⟨rfl, hnext⟩ := replaced_of_released hfilter (by omega)
      (unwrap_eq_ok.mp hsecret) hm
    exact hnext
  · rw [if_neg hpos] at h
    cases h

/-- Every served request has such an effect. -/
theorem Served.holderEffect (hv : ch.validator = v.toValidator)
    (hfilter : v.policy.filter = .default) {request : Request} {r : Result Reply}
    (hwf : s.estate.HolderWf) (h : ch.Served call s request r t) : HolderEffect s t request r := by
  have hdefault := filter_default hv hfilter
  cases h with
  | point point =>
    refine ⟨.refl _, .inl rfl, fun reply n hr h => ?_, fun reply n hr h => ?_⟩ <;>
      obtain rfl := Except.ok.inj hr <;> exact h.elim
  | secret m released hrequest hsecret =>
    subst hrequest
    refine ⟨.refl _, .inl rfl, fun reply n hr h => ?_, fun reply n hr h => ?_⟩ <;>
      cases hr
    · exact h.elim
    · obtain ⟨rfl, hnext⟩ := replaced_of_released hdefault (UInt64.toNat_lt m) hsecret h
      exact .inr ⟨rfl, hnext, m, rfl, rfl⟩
  | counterparty hn hproposed h hended =>
    obtain ⟨num, -, hset⟩ := h.advance
    have hset' := (Validator.setNextCounterpartyCommitNum_ok hdefault hset).2.2.2.2
    refine .of_ended (.of_setNextCounterpartyCommitNum hset') hended (fun n hsigns => ?_)
      fun n hreleases => hreleases.elim
    exact nomatch h.checked.tx.isHolder_eq.symm.trans hsigns.1
  | @holder n signatures update nextPoint secret e node r t hn h hended =>
    obtain ⟨hlater, -⟩ := h.later hv hfilter hwf (Request.number_lt hn)
    refine .of_ended hlater hended (fun m hsigns => hsigns.elim) fun m hreleases => ?_
    cases hsecret : secret with
    | none =>
      subst hsecret
      exact hreleases.elim
    | some released =>
      subst hsecret
      exact oldSecret_ok hdefault (Request.number_lt hn) h.secret hreleases
  | @holderSigned n signed r t hn h hended =>
    have hlt : n < 2 ^ 64 := by
      rcases hn with hn | ⟨hinfo, hn⟩
      · exact Request.number_lt hn
      · have hpred := pred_nextHolderCommitNum hwf hinfo hn
        have hbound := hwf.bound
        omega
    refine .of_ended (.close _) hended (fun m hsigns => ⟨rfl, ?_⟩)
      fun m hreleases => hreleases.elim
    obtain ⟨rfl, -⟩ := number_eq_of_index hlt h.index hsigns.2
    have hle := h.signable.next_le hv hfilter hwf hlt
    exact hle
  | closeSigned hended =>
    exact .of_ended (.close _) hended (fun n h => h.elim) fun n h => h.elim
  | revocationStored refusal hn hvalid hstore =>
    exact ⟨HolderLater.of_storeSecret hstore, .inl rfl, (fun _ _ hr => nomatch hr),
      (fun _ _ hr => nomatch hr)⟩
  | revocation hn hvalid hstore hnum hset hended =>
    have hset' := (Validator.setNextCounterpartyRevokeNum_ok hdefault hset).2.2.2.2
    exact .of_ended ((HolderLater.of_storeSecret hstore).trans
      (.of_setNextCounterpartyRevokeNum hset')) hended (fun n h => h.elim) fun n h => h.elim

end Channel

/-! ## What one event does -/

/-- Storing succeeds during an event. -/
def ChannelEvent.Persists : ChannelEvent → Prop
  | .request _ call _ => call.persistOk = true
  | .restart => True

/-- The event does not ask for a secret that the state in memory allows to release and the stored
one does not. -/
def Slot.AsksStored (slot : Slot) : ChannelEvent → Prop
  | .request _ _ (.getPerCommitmentSecret n) =>
    ∀ e, slot.live = some e → n.toNat + 2 ≤ e.nextHolderCommitNum →
      n.toNat + 2 ≤ slot.stored.nextHolderCommitNum
  | _ => True

/-- The state in memory may follow the stored one. -/
structure Slot.HolderOrdered (slot : Slot) : Prop where
  stored : slot.stored.HolderWf
  live : ∀ e, slot.live = some e → slot.stored.HolderLater e

/-- The invariant of a run: the stored state separates the released numbers from the signed ones,
and records that the channel is closed once there is a signed one. -/
structure HolderSafe (log : List ChannelEntry) (slot : Slot) : Prop extends slot.HolderOrdered where
  signed : ∀ n, SignedHolder log n →
    slot.stored.channelClosed = true ∧ slot.stored.nextHolderCommitNum ≤ n + 1
  released : ∀ n, ReleasedHolder log n → n + 2 ≤ slot.stored.nextHolderCommitNum

section Step

variable {ch : Channel} {v : SimpleValidator} {slot slot' : Slot} {event : ChannelEvent}
  {answer : Option (Result Reply)}

variable (hv : ch.validator = v.toValidator) (hfilter : v.policy.filter = .default)

include hv hfilter

/-- Every event keeps the order, and the stored state moves on only to one that may follow it. -/
theorem Slot.HolderOrdered.step (hslot : slot.HolderOrdered)
    (h : ch.Stepped slot event answer slot') :
    slot'.HolderOrdered ∧ slot.stored.HolderLater slot'.stored := by
  cases h with
  | restart =>
    refine ⟨⟨hslot.stored, ?_⟩, .refl _⟩
    rintro e ⟨⟩
    exact .refl _
  | failed node call request fault live hlive =>
    refine ⟨⟨hslot.stored, fun e he => ?_⟩, .refl _⟩
    rcases hlive with rfl | rfl
    · cases he
    · exact hslot.live e he
  | @served node call request e r t hlive h =>
    have hlater := hslot.live e hlive
    have heffect := h.holderEffect hv hfilter (hlater.wf hslot.stored)
    have hstored : slot.stored.HolderLater t.stored := by
      rcases heffect.stored with hstored | hstored <;> rw [hstored]
      · exact .refl _
      · exact hlater.trans heffect.later
    refine ⟨⟨hstored.wf hslot.stored, ?_⟩, hstored⟩
    rintro e' ⟨⟩
    rcases heffect.stored with hstored | hstored <;> rw [hstored]
    · exact hlater.trans heffect.later
    · exact .refl _

/-- What an event signs is separated by the stored state it leaves. -/
theorem Slot.HolderOrdered.signs (hslot : slot.HolderOrdered)
    (h : ch.Stepped slot event answer slot') {n : Nat} (hn : Answers (·.SignsHolder n) answer) :
    slot'.stored.channelClosed = true ∧ slot'.stored.nextHolderCommitNum ≤ n + 1 := by
  cases h with
  | restart => exact hn.elim
  | failed => exact hn.elim
  | @served node call request e r t hlive h =>
    have heffect := h.holderEffect hv hfilter ((hslot.live e hlive).wf hslot.stored)
    obtain ⟨reply, hr, hsigns⟩ := hn.exists
    obtain ⟨hstored, hclosed, hnext⟩ := heffect.signs reply n (Option.some.inj hr) hsigns
    rw [← hstored] at hclosed hnext
    exact ⟨hclosed, hnext⟩

/-- What an event releases is separated by the stored state it leaves, if it asks for nothing that
only the memory allows. -/
theorem Slot.HolderOrdered.releases (hslot : slot.HolderOrdered) (hasks : slot.AsksStored event)
    (h : ch.Stepped slot event answer slot') {n : Nat} (hn : Answers (·.Releases n) answer) :
    n + 2 ≤ slot'.stored.nextHolderCommitNum := by
  cases h with
  | restart => exact hn.elim
  | failed => exact hn.elim
  | @served node call request e r t hlive h =>
    have heffect := h.holderEffect hv hfilter ((hslot.live e hlive).wf hslot.stored)
    obtain ⟨reply, hr, hreleases⟩ := hn.exists
    rcases heffect.releases reply n (Option.some.inj hr) hreleases with
      hstored | ⟨rfl, hnext, m, rfl, rfl⟩
    · exact hstored
    · exact hasks e hlive hnext

/-- Every event that asks for nothing only the memory allows keeps the invariant. -/
theorem HolderSafe.step {log : List ChannelEntry} (hsafe : HolderSafe log slot)
    (hasks : slot.AsksStored event) :
    HolderSafe (log ++ [ch.machine.entry slot event]) (ch.machine.step slot event).1 := by
  have hstepped := ch.step_stepped slot event
  have hslot := hsafe.toHolderOrdered
  obtain ⟨hordered, hlater⟩ := hslot.step hv hfilter hstepped
  refine ⟨hordered, fun n hn => ?_, fun n hn => ?_⟩
  · obtain ⟨x, hx, hn⟩ := hn
    rcases List.mem_append.mp hx with hx | hx
    · obtain ⟨hclosed, hnext⟩ := hsafe.signed n ⟨x, hx, hn⟩
      obtain ⟨hclosed', hnext'⟩ := hlater.closed hclosed
      exact ⟨hclosed', hnext'.le.trans hnext⟩
    · obtain rfl := List.mem_singleton.mp hx
      exact hslot.signs hv hfilter hstepped hn
  · obtain ⟨x, hx, hn⟩ := hn
    rcases List.mem_append.mp hx with hx | hx
    · exact (hsafe.released n ⟨x, hx, hn⟩).trans hlater.next_le
    · obtain rfl := List.mem_singleton.mp hx
      exact hslot.releases hv hfilter hasks hstepped hn

end Step

theorem holderSafe_initial (value : Nat) : HolderSafe [] (initial value) where
  stored := EnforcementState.holderWf_new value
  live := by
    rintro e ⟨⟩
    exact .refl _
  signed := by
    rintro n ⟨x, hx, -⟩
    cases hx
  released := by
    rintro n ⟨x, hx, -⟩
    cases hx

theorem HolderSafe.not_both {log : List ChannelEntry} {slot : Slot} (h : HolderSafe log slot)
    (n : Nat) : ¬ (SignedHolder log n ∧ ReleasedHolder log n) := by
  rintro ⟨hsigned, hreleased⟩
  have hnext := (h.signed n hsigned).2
  have hnext' := h.released n hreleased
  omega

/-! ## Runs in which storing succeeds -/

/-- The memory and the store agree on the holder's commitments. -/
def Slot.HolderSynced (slot : Slot) : Prop :=
  ∀ e, slot.live = some e → e.nextHolderCommitNum = slot.stored.nextHolderCommitNum ∧
    e.channelClosed = slot.stored.channelClosed

theorem Slot.HolderSynced.of_holds {slot : Slot} {e : EnforcementState} (hslot : slot.HolderSynced)
    (he : slot.Holds e) : e.nextHolderCommitNum = slot.stored.nextHolderCommitNum ∧
      e.channelClosed = slot.stored.channelClosed := by
  rcases he with he | rfl
  · exact hslot e he
  · exact ⟨rfl, rfl⟩

/-- A served request stores what it writes, or writes nothing but a counterparty secret. -/
theorem Channel.Served.stored_or_same {ch : Channel} {call : Call} {s t : Session}
    {request : Request} {r : Result Reply} (hpersist : call.persistOk = true)
    (h : ch.Served call s request r t) :
    t.stored = t.estate ∨
      t.stored = s.stored ∧
        ∃ secrets, t.estate = { s.estate with counterpartySecrets := secrets } := by
  cases h with
  | point point => exact .inr ⟨rfl, _, rfl⟩
  | secret m released hrequest h => exact .inr ⟨rfl, _, rfl⟩
  | counterparty hn hproposed h hended => exact .inl (hended.of_persists hpersist)
  | holder hn h hended => exact .inl (hended.of_persists hpersist)
  | holderSigned hn h hended => exact .inl (hended.of_persists hpersist)
  | closeSigned hended => exact .inl (hended.of_persists hpersist)
  | revocationStored refusal hn hvalid hstore => exact .inr ⟨rfl, storeSecret_ok hstore⟩
  | revocation hn hvalid hstore hnum hset hended => exact .inl (hended.of_persists hpersist)

/-- An event during which storing succeeds keeps memory and store in agreement. -/
theorem Slot.HolderSynced.step {ch : Channel} {slot slot' : Slot} {event : ChannelEvent}
    {answer : Option (Result Reply)} (hslot : slot.HolderSynced) (hpersist : event.Persists)
    (h : ch.Stepped slot event answer slot') : slot'.HolderSynced := by
  cases h with
  | restart =>
    rintro e ⟨⟩
    exact ⟨rfl, rfl⟩
  | failed node call request fault live hlive =>
    intro e he
    rcases hlive with rfl | rfl
    · cases he
    · exact hslot e he
  | @served node call request e r t hlive h =>
    rintro e' ⟨⟩
    rcases h.stored_or_same hpersist with hstored | ⟨hstored, secrets, hestate⟩
    · rw [hstored]
      exact ⟨rfl, rfl⟩
    · rw [hstored, hestate]
      exact hslot e hlive

/-- In agreement with the store, the memory allows no secret that the store does not. -/
theorem Slot.HolderSynced.asksStored {slot : Slot} (hslot : slot.HolderSynced)
    (event : ChannelEvent) : slot.AsksStored event := by
  unfold AsksStored
  split
  · intro e he hnext
    rw [← (hslot e he).1]
    exact hnext
  · trivial

section Runs

variable {ch : Channel} {v : SimpleValidator}

/-- The state reached by a run during which storing succeeds. -/
theorem holderSafe_of_persists (hv : ch.validator = v.toValidator)
    (hfilter : v.policy.filter = .default) (value : Nat) (events : List ChannelEvent)
    (hpersist : ∀ event ∈ events, event.Persists) :
    HolderSafe (ch.machine.trace (initial value) events)
        (ch.machine.final (initial value) events) ∧
      (ch.machine.final (initial value) events).HolderSynced := by
  refine ch.machine.run_induction (C := fun x => x.event.Persists)
    (P := fun log slot => HolderSafe log slot ∧ slot.HolderSynced)
    ⟨holderSafe_initial value, ?_⟩ ?_ events
    fun x hx => hpersist _ (ch.machine.event_mem_of_mem_trace hx)
  · rintro e ⟨⟩
    exact ⟨rfl, rfl⟩
  · rintro log slot event ⟨hsafe, hsynced⟩ hper
    exact ⟨hsafe.step hv hfilter (hsynced.asksStored event),
      hsynced.step hper (ch.step_stepped slot event)⟩

/-- Along a run the stored state moves on only to states that may follow it. -/
theorem stored_later_of_run (hv : ch.validator = v.toValidator)
    (hfilter : v.policy.filter = .default) {slot : Slot} (hslot : slot.HolderOrdered)
    (events : List ChannelEvent) :
    slot.stored.HolderLater (ch.machine.final slot events).stored := by
  refine (ch.machine.final_induction (C := fun _ => True)
    (P := fun slot' => slot'.HolderOrdered ∧ slot.stored.HolderLater slot'.stored)
    ⟨hslot, .refl _⟩ ?_ events fun _ _ => trivial).2
  rintro slot' event ⟨hordered, hlater⟩ -
  obtain ⟨hordered', hlater'⟩ := hordered.step hv hfilter (ch.step_stepped slot' event)
  exact ⟨hordered', hlater.trans hlater'⟩

/-- In a run during which storing succeeds no holder commitment is both signed and revoked, and the
holder counter stays where it is once the channel is closed. -/
theorem holder_revocation_safety (hv : ch.validator = v.toValidator)
    (hfilter : v.policy.filter = .default) (value : Nat) (events : List ChannelEvent)
    (hpersist : ∀ event ∈ events, event.Persists) :
    (∀ n, ¬ (SignedHolder (ch.machine.trace (initial value) events) n ∧
      ReleasedHolder (ch.machine.trace (initial value) events) n)) ∧
    ∀ first second, events = first ++ second → ∀ e e',
      (ch.machine.final (initial value) first).Holds e → e.channelClosed = true →
      (ch.machine.final (initial value) events).Holds e' →
      e'.nextHolderCommitNum ≤ e.nextHolderCommitNum := by
  obtain ⟨hsafe, hsynced⟩ := holderSafe_of_persists hv hfilter value events hpersist
  refine ⟨hsafe.not_both, ?_⟩
  rintro first second rfl e e' he hclosed he'
  obtain ⟨hsafe₁, hsynced₁⟩ := holderSafe_of_persists hv hfilter value first
    fun event hmem => hpersist event (List.mem_append_left _ hmem)
  have hlater := stored_later_of_run hv hfilter hsafe₁.toHolderOrdered second
  rw [← Machine.final_append] at hlater
  have hsame := hsynced₁.of_holds he
  have hsame' := hsynced.of_holds he'
  rw [hsame'.1, hsame.1, (hlater.closed (hsame.2 ▸ hclosed)).2]

/-- The sample channel accepts a first commitment, signs it and never releases its secret. -/
theorem holder_revocation_safety_sample :
    let log := (channel .checked).machine.trace (initial 1000000)
      [ask true (validateHolder 0), .restart,
        ask true (.signHolderCommitmentTxPhase2 0)]
    SignedHolder log 0 ∧ ¬ ReleasedHolder log 0 := by
  have hsigned : SignedHolder ((channel .checked).machine.trace (initial 1000000)
      [ask true (validateHolder 0), .restart,
        ask true (.signHolderCommitmentTxPhase2 0)]) 0 := by
    decide +kernel
  refine ⟨hsigned, fun hreleased => ?_⟩
  refine (holder_revocation_safety (v := validator .checked) rfl rfl 1000000 _ ?_).1 0
    ⟨hsigned, hreleased⟩
  simp [ask, ChannelEvent.Persists]

/-! ## Runs in which storing may fail -/

/-- In a run in which no secret is asked for while only the memory allows it, no holder commitment
is both signed and revoked, also when storing fails. -/
theorem unstored_advance_safety (hv : ch.validator = v.toValidator)
    (hfilter : v.policy.filter = .default) (value : Nat) (events : List ChannelEvent)
    (hasks : ∀ x ∈ ch.machine.trace (initial value) events, x.before.AsksStored x.event)
    (n : Nat) :
    ¬ (SignedHolder (ch.machine.trace (initial value) events) n ∧
      ReleasedHolder (ch.machine.trace (initial value) events) n) := by
  refine (ch.machine.run_induction (P := HolderSafe) (C := fun x => x.before.AsksStored x.event)
    (holderSafe_initial value) (fun log slot event hsafe hask => ?_) events hasks).not_both n
  exact hsafe.step hv hfilter hask

/-- The sample channel signs its first commitment after an advance that was not stored. -/
theorem unstored_advance_safety_sample :
    let log := (channel .checked).machine.trace (initial 1000000)
      [ask true (validateHolder 0), ask false (validateHolder 1),
        .restart, ask true (.signHolderCommitmentTxPhase2 0)]
    SignedHolder log 0 ∧ ¬ ReleasedHolder log 0 := by
  have hsigned : SignedHolder ((channel .checked).machine.trace (initial 1000000)
      [ask true (validateHolder 0), ask false (validateHolder 1),
        .restart, ask true (.signHolderCommitmentTxPhase2 0)]) 0 := by
    decide +kernel
  refine ⟨hsigned, fun hreleased => ?_⟩
  refine unstored_advance_safety (v := validator .checked) rfl rfl 1000000 _ ?_ 0
    ⟨hsigned, hreleased⟩
  simp [Machine.trace, Machine.entry, ask, validateHolder, Slot.AsksStored]

/-- An advance that is not stored can be acted upon: its secret goes out, and after a restart the
commitment it revokes is signed. -/
theorem unstored_advance_acted_upon :
    let log := (channel .checked).machine.trace (initial 1000000)
      [ask true (validateHolder 0), ask false (validateHolder 1),
        ask true (.getPerCommitmentSecret 0), .restart,
        ask true (.signHolderCommitmentTxPhase2 0)]
    SignedHolder log 0 ∧ ReleasedHolder log 0 := by
  decide +kernel

end Runs

end ValidatingSigner
