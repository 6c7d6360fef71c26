import Vls.Channel.Correctness.Counterparty

/-!
# The last commitment number

An exchange of commitments and revocations with the sample channel can go on until the 64-bit
counter is used up.  In a build that wraps, signing the last number again then takes the counter's
successor for 0 and clears what was kept of the previous commitment.
-/

namespace ValidatingSigner

open Base Effect CounterpartyCommitmentSecrets Overflow Channel PolicyFilter Sample

namespace Sample

/-- The description of the sample channel's counterparty commitments. -/
def info : CommitmentInfo2 :=
  .new true (points 10).paymentPoint 999000 (points 10).revocationBasepoint
    (points 20).delayedPaymentBasepoint 0 144 [] [] 1000

/-- A state of the exchange: `c` commitments signed, `r` of them revoked, all for one point. -/
structure Between (c r : Nat) (e : EnforcementState) : Prop where
  commit : e.nextCounterpartyCommitNum = c
  revoke : e.nextCounterpartyRevokeNum = r
  holder : e.currentHolderCommitInfo = none
  point : c ≠ 0 → e.currentCounterpartyPoint = some ⟨0⟩
  info : e.currentCounterpartyCommitInfo = if c = 0 then none else some info
  previous : 2 ≤ c → e.previousCounterpartyPoint = some ⟨0⟩
  secrets : ∃ secrets, e.counterpartySecrets = some secrets ∧ ∀ i, (secrets.oldSecrets i).1 = 0

variable {α β : Type} {c r n : Nat} {e : EnforcementState} {secrets : CounterpartyCommitmentSecrets}
  {st e' : EnforcementState}

theorem between_new (value : Nat) : Between 0 0 (.new value) where
  commit := rfl
  revoke := rfl
  holder := rfl
  point h := absurd rfl h
  info := rfl
  previous h := absurd h (by decide)
  secrets := ⟨.new, rfl, fun _ => rfl⟩

/-- The state after the next commitment is signed. -/
def afterSign (e : EnforcementState) : EnforcementState :=
  { e with
    previousCounterpartyPoint := e.currentCounterpartyPoint
    previousCounterpartyCommitInfo := e.currentCounterpartyCommitInfo
    currentCounterpartyPoint := some ⟨0⟩
    currentCounterpartyCommitInfo := some info
    nextCounterpartyCommitNum := e.nextCounterpartyCommitNum + 1 }

/-- The state after the oldest open commitment is revoked. -/
def afterRevoke (e : EnforcementState) (secrets : CounterpartyCommitmentSecrets) :
    EnforcementState :=
  { e with
    counterpartySecrets := some secrets
    previousCounterpartyCommitInfo := none
    nextCounterpartyRevokeNum := e.nextCounterpartyRevokeNum + 1 }

/-- The state after the last number is signed again. -/
def afterLast (e : EnforcementState) : EnforcementState :=
  { e with
    previousCounterpartyPoint := none
    previousCounterpartyCommitInfo := none
    currentCounterpartyPoint := some ⟨0⟩
    currentCounterpartyCommitInfo := some info }

theorem Between.sign (h : Between c r e) : Between (c + 1) r (afterSign e) where
  commit := congrArg (· + 1) h.commit
  revoke := h.revoke
  holder := h.holder
  point _ := rfl
  info := rfl
  previous hc := h.point (by omega)
  secrets := h.secrets

theorem Between.revoked (h : Between c r e) (hzero : ∀ i, (secrets.oldSecrets i).1 = 0) :
    Between c (r + 1) (afterRevoke e secrets) where
  commit := h.commit
  revoke := congrArg (· + 1) h.revoke
  holder := h.holder
  point := h.point
  info := h.info
  previous := h.previous
  secrets := ⟨secrets, rfl, hzero⟩

/-! ## Signing -/

theorem validateCommitmentTx_ok :
    (validator .wrapping).validateCommitmentTx n setup chain info = .ok () := by
  have hzero : (validator .wrapping).validateCommitmentTx 0 setup chain info = .ok () := by
    decide +kernel
  unfold SimpleValidator.validateCommitmentTx SimpleValidator.validateInitialCommitment at hzero ⊢
  by_cases hn : n = 0
  · rw [hn]
    exact hzero
  · rw [if_neg hn]
    decide +kernel

theorem build_ok : (channel .wrapping).buildCounterpartyCommitmentInfo ⟨0⟩ 999000 0 [] [] 1000 =
    .ok info := rfl

theorem summaries_ok (h : Between c r e) :
    e.incomingPaymentsSummary .wrapping none (some info) = .ok ∅ ∧
      e.paymentsSummary .wrapping none (some info) = .ok ∅ := by
  have hh := h.holder
  have hi := h.info
  obtain ⟨⟩ := e
  dsimp only at hh hi
  subst hh hi
  split <;> exact ⟨rfl, rfl⟩

theorem balances_ok (h : Between c r e) :
    ∃ delta, e.claimableBalances .wrapping node.hasPreimage none (some info) setup = .ok delta := by
  have hh := h.holder
  have hi := h.info
  obtain ⟨⟩ := e
  dsimp only at hh hi
  subst hh hi
  split <;> exact ⟨_, rfl⟩

/-- Commitments up to one ahead of the revocations pass, also when signed before. -/
theorem validate_ok (h : Between c r e) (hr : n ≤ r + 1) (hn : n + 1 < 2 ^ 64)
    (hword : r + 1 < 2 ^ 64) :
    (validator .wrapping).validateCounterpartyCommitmentTx e n ⟨0⟩ setup chain info = .ok () := by
  refine bind_eq_ok.mpr ⟨(), withFunction_eq_ok.mpr validateCommitmentTx_ok, ?_⟩
  refine bind_eq_ok.mpr ⟨(), by decide +kernel, ?_⟩
  refine bind_eq_ok.mpr ⟨_, u64_of_lt _ (by rw [h.revoke]; exact hword), ?_⟩
  refine bind_eq_ok.mpr ⟨(), policyErr_of_not (by rw [h.revoke]; omega), ?_⟩
  refine bind_eq_ok.mpr ⟨_, u64_of_lt _ hn, ?_⟩
  by_cases hlast : n + 1 = c
  · rw [if_pos (hlast.trans h.commit.symm)]
    have hinfo : e.getPreviousCounterpartyCommitInfo (validator .wrapping).overflow n =
        .ok (some info) := by
      refine bind_eq_ok.mpr ⟨_, u64_of_lt _ hn, ?_⟩
      rw [if_pos (hlast.trans h.commit.symm), h.info, if_neg (by omega)]
      rfl
    refine bind_eq_ok.mpr ⟨(), ?_, bind_eq_ok.mpr ⟨_, hinfo, ?_⟩⟩
    · rw [h.point (by omega)]
      exact policyErr_of_not (by simp)
    · exact policyErr_of_not (by simp)
  · rw [if_neg (by rw [h.commit]; exact hlast)]

theorem prepare_ok (h : Between c r e)
    (hvalid : (validator .wrapping).validateCounterpartyCommitmentTx e n ⟨0⟩ setup chain info =
      .ok ()) :
    ∃ signed delta, (channel .wrapping).prepareCounterpartyPhase2 ⟨chain, true⟩ e node ⟨0⟩ n 1000
      999000 0 [] [] = .ok (signed, ⟨info, delta, ∅, ∅⟩) := by
  obtain ⟨delta, hdelta⟩ := balances_ok h
  obtain ⟨hincoming, houtgoing⟩ := summaries_ok h
  have hinfo : (channel .wrapping).validatedCounterpartyInfo ⟨chain, true⟩ e node ⟨0⟩ n 1000
      999000 0 [] [] = .ok (info, delta, ∅) := by
    refine bind_eq_ok.mpr ⟨_, build_ok, bind_eq_ok.mpr ⟨_, hdelta, ?_⟩⟩
    exact bind_eq_ok.mpr ⟨_, hincoming, bind_eq_ok.mpr ⟨(), hvalid, rfl⟩⟩
  obtain ⟨tx, htx⟩ : ∃ tx, (channel .wrapping).makeCounterpartyCommitmentTx ⟨0⟩ n 1000 999000 0 [] =
      .ok tx := by
    unfold makeCounterpartyCommitmentTx sub
    by_cases hn : n ≤ INITIAL_COMMITMENT_NUMBER
    · rw [if_pos hn]
      exact ⟨_, rfl⟩
    · rw [if_neg hn]
      exact ⟨_, rfl⟩
  refine ⟨⟨tx, ⟨1⟩, tx.htlcs.map fun _ => ⟨1⟩⟩, delta, ?_⟩
  refine bind_eq_ok.mpr ⟨(), by decide +kernel, bind_eq_ok.mpr ⟨_, hinfo, ?_⟩⟩
  refine bind_eq_ok.mpr ⟨[], rfl, bind_eq_ok.mpr ⟨tx, htx, ?_⟩⟩
  exact bind_eq_ok.mpr ⟨_, rfl, bind_eq_ok.mpr ⟨_, houtgoing, bind_eq_ok.mpr ⟨(), rfl, rfl⟩⟩⟩

theorem exec_lift_ok {x : Result α} {a : α} {f : α → Op β} {s : Session} (h : x = .ok a) :
    exec (lift x >>= f) s = exec (f a) s := by
  rw [h]
  rfl

/-- A request whose operation writes `e'` and stores it moves both the memory and the store there.
-/
theorem step_eq {request : Request} {reply : Reply}
    (h : exec ((channel .wrapping).execute ⟨chain, true⟩ request) ⟨e, node, st⟩ =
      (.ok reply, ⟨e', node, e'⟩)) :
    ((channel .wrapping).machine.step ⟨some e, st⟩ (ask true request)).1 = ⟨some e', e'⟩ := by
  change (settle (exec ((channel .wrapping).execute ⟨chain, true⟩ request)
    ⟨e, node, st⟩)).1 = _
  rw [h]
  rfl

theorem toNat_ofNat (hn : n < 2 ^ 64) : (UInt64.ofNat n).toNat = n :=
  UInt64.toNat_ofNat_of_lt hn

/-- A counterparty commitment within reach is signed, and the counters move to where the setter
puts them. -/
theorem step_sign (h : Between c r e) (hr : n ≤ r + 1) (hn : n + 1 < 2 ^ 64)
    (hword : r + 1 < 2 ^ 64) (hset :
      (channel .wrapping).validator.setNextCounterpartyCommitNum e (n + 1) ⟨0⟩ info = .ok e') :
    ((channel .wrapping).machine.step ⟨some e, st⟩ (ask true (signCounterparty (.ofNat n) ⟨0⟩))).1 =
      ⟨some e', e'⟩ := by
  obtain ⟨signed, delta, hprepare⟩ := prepare_ok h (validate_ok h hr hn hword)
  have hexec : exec ((channel .wrapping).signCounterpartyCommitmentTxPhase2 ⟨chain, true⟩ ⟨0⟩ n 1000
      999000 0 [] []) ⟨e, node, st⟩ = (.ok signed, ⟨e', node, e'⟩) := by
    rw [signCounterpartyCommitmentTxPhase2, exec_get_bind, exec_lift_ok hprepare,
      exec_lift_ok (u64_of_lt _ hn), advanceCounterparty]
    simp only [bind_assoc, exec_get_bind]
    rw [exec_lift_ok hset]
    rfl
  refine @step_eq _ _ _ _ (.counterpartySigned signed) ?_
  simp only [signCounterparty, execute, toNat_ofNat (Nat.lt_of_succ_lt hn)]
  rw [exec_bind, hexec]
  rfl

theorem set_next_ok (h : Between c r e) (hr : (c = 0 ∧ r = 0) ∨ c = r + 1) (hc : c + 1 < 2 ^ 64) :
    (channel .wrapping).validator.setNextCounterpartyCommitNum e (c + 1) ⟨0⟩ info =
      .ok (afterSign e) := by
  have hrevoke := h.revoke
  have hcommit := h.commit
  have hlow : e.nextCounterpartyRevokeNum + (if c + 1 = 1 then 1 else 2) ≤ c + 1 := by
    split_ifs <;> omega
  have hprogress : (channel .wrapping).validator.checkCounterpartyProgression e (c + 1) ⟨0⟩ =
      .ok () := by
    rw [Validator.checkCounterpartyProgression, if_neg (by omega)]
    refine bind_eq_ok.mpr ⟨_, u64_of_lt _ (by omega), ?_⟩
    exact policyErr_of_not (by simp [hcommit])
  rw [Validator.setNextCounterpartyCommitNum_of_inStep (by omega) (by omega) hlow (by omega)
    hprogress]
  refine bind_eq_ok.mpr ⟨(), assert_eq_ok.mpr (Nat.succ_pos c), ?_⟩
  refine bind_eq_ok.mpr ⟨_, u64_of_lt _ (by omega), ?_⟩
  have heq : c + 1 = e.nextCounterpartyCommitNum + 1 := by rw [hcommit]
  simp only [if_pos heq, if_pos heq.ge]
  rw [afterSign, ← heq]
  rfl

/-- Signing the last number again clears what was kept of the one before. -/
theorem set_last_ok (h : Between c r e) (hc : c = 2 ^ 64 - 1) (hr : c = r + 2) :
    (channel .wrapping).validator.setNextCounterpartyCommitNum e c ⟨0⟩ info =
      .ok (afterLast e) := by
  have hrevoke := h.revoke
  have hcommit := h.commit
  have hlow : e.nextCounterpartyRevokeNum + (if c = 1 then 1 else 2) ≤ c := by
    split_ifs <;> omega
  have hprogress : (channel .wrapping).validator.checkCounterpartyProgression e c ⟨0⟩ = .ok () := by
    rw [Validator.checkCounterpartyProgression, if_pos hcommit.symm, h.point (by omega)]
    refine bind_eq_ok.mpr ⟨(), assert_eq_ok.mpr rfl, ?_⟩
    exact policyErr_of_not (by simp)
  have hwrap : (channel .wrapping).validator.overflow.u64 (e.nextCounterpartyCommitNum + 1) =
      (.ok 0 : Result Nat) := by
    rw [hcommit, hc]
    rfl
  rw [Validator.setNextCounterpartyCommitNum_of_inStep (by omega) (by omega) hlow (by omega)
    hprogress]
  refine bind_eq_ok.mpr ⟨(), assert_eq_ok.mpr (by omega), bind_eq_ok.mpr ⟨_, hwrap, ?_⟩⟩
  have hne : ¬ c = 0 := by omega
  have hgt : c > 0 ∨ c < e.nextCounterpartyCommitNum := by omega
  simp only [if_neg hne, if_pos hgt, if_pos (Nat.zero_le c)]
  rw [afterLast, ← hcommit]
  rfl

/-! ## Revoking -/

/-- With a constant hash every stored secret stays zero. -/
theorem deriveSecret_zero (bits idx : Nat) :
    deriveSecret library.sha256 0 bits idx = 0 := by
  unfold deriveSecret
  induction bits with
  | zero => rfl
  | succ bits ih =>
    unfold derive
    have hchild : (if idx.testBit bits = true then library.sha256
        (flipBit bits 0) else 0) = 0 := by
      split_ifs <;> rfl
    rw [hchild]
    exact ih

theorem provideSecret_zero (idx : Nat) (h : ∀ i, (secrets.oldSecrets i).1 = 0) :
    ∃ secrets', secrets.provideSecret library.sha256 idx 0 = .ok secrets' ∧
      ∀ i, (secrets'.oldSecrets i).1 = 0 := by
  unfold provideSecret
  dsimp only
  rw [if_pos (fun i _ => (deriveSecret_zero _ _).trans (h i).symm)]
  split_ifs
  · exact ⟨secrets, rfl, h⟩
  · refine ⟨_, rfl, fun i => ?_⟩
    by_cases hi : i = placeSecret idx
    · rw [hi, setSlot_self]
    · rw [setSlot_of_ne _ hi]
      exact h i

theorem storeSecret_ok (h : Between c r e) : ∃ secrets,
    (channel .wrapping).storeSecret e n 0 = .ok { e with counterpartySecrets := some secrets } ∧
      ∀ i, (secrets.oldSecrets i).1 = 0 := by
  obtain ⟨secrets, he, hzero⟩ := h.secrets
  obtain ⟨index, hindex⟩ : ∃ index,
      (channel .wrapping).overflow.sub INITIAL_COMMITMENT_NUMBER n = (.ok index : Result Nat) := by
    unfold sub
    by_cases hn : n ≤ INITIAL_COMMITMENT_NUMBER
    · rw [if_pos hn]
      exact ⟨_, rfl⟩
    · rw [if_neg hn]
      exact ⟨_, rfl⟩
  obtain ⟨secrets', hprovide, hzero'⟩ := provideSecret_zero index hzero
  refine ⟨secrets', ?_, hzero'⟩
  unfold storeSecret
  simp only [he]
  refine bind_eq_ok.mpr ⟨index, hindex, ?_⟩
  have hprovide' : secrets.provideSecret (channel .wrapping).library.sha256 index 0 =
      .ok secrets' := hprovide
  rw [hprovide']

theorem validateRevocation_ok (h : Between (r + 2) r e) (hword : r + 2 < 2 ^ 64) :
    (channel .wrapping).validator.validateCounterpartyRevocation e r 0 = .ok () := by
  have hstep : outOfStep (validator .wrapping).overflow r e.nextCounterpartyRevokeNum =
      .ok false := by
    rw [outOfStep, if_pos h.revoke]
  have hprevious : e.getPreviousCounterpartyPoint (validator .wrapping).overflow r =
      .ok (some ⟨0⟩) := by
    refine bind_eq_ok.mpr ⟨_, u64_of_lt _ (by omega), ?_⟩
    rw [if_neg (by rw [h.commit]; omega)]
    refine bind_eq_ok.mpr ⟨_, u64_of_lt _ (by omega), ?_⟩
    rw [if_pos h.commit.symm, h.previous (by omega)]
    rfl
  refine bind_eq_ok.mpr ⟨_, hstep, bind_eq_ok.mpr ⟨(), ?_, bind_eq_ok.mpr ⟨_, hprevious, ?_⟩⟩⟩
  · exact policyErr_of_not (by simp)
  · exact policyErr_of_not (by decide)

theorem set_revoke_ok (h : Between (r + 2) r e) (hword : r + 3 < 2 ^ 64)
    (secrets : CounterpartyCommitmentSecrets) :
    (channel .wrapping).validator.setNextCounterpartyRevokeNum
      { e with counterpartySecrets := some secrets } (r + 1) = .ok (afterRevoke e secrets) := by
  have hcommit := h.commit
  have hrevoke := h.revoke
  rw [afterRevoke, hrevoke]
  exact Validator.setNextCounterpartyRevokeNum_of_previous (by omega) (by omega) hcommit.symm
    (.inl rfl)

/-- The oldest open commitment is revoked. -/
theorem step_revoke (h : Between (r + 2) r e) (hword : r + 3 < 2 ^ 64) (st : EnforcementState) :
    ∃ e', ((channel .wrapping).machine.step ⟨some e, st⟩
        (ask true (.validateCounterpartyRevocation (.ofNat r) 0))).1 = ⟨some e', e'⟩ ∧
      Between (r + 2) (r + 1) e' := by
  obtain ⟨secrets, hstore, hzero⟩ := storeSecret_ok (n := r) h
  have hexec : exec ((channel .wrapping).validateCounterpartyRevocation ⟨chain, true⟩ r 0)
      ⟨e, node, st⟩ = (.ok (), ⟨afterRevoke e secrets, node, afterRevoke e secrets⟩) := by
    rw [validateCounterpartyRevocation, exec_get_bind,
      exec_lift_ok (validateRevocation_ok h (by omega)), exec_lift_ok hstore, setEstate,
      exec_modify_bind, exec_lift_ok (u64_of_lt _ (by omega)),
      exec_lift_ok (set_revoke_ok h hword secrets)]
    rfl
  refine ⟨afterRevoke e secrets, @step_eq _ _ _ _ .revocationAccepted ?_, h.revoked hzero⟩
  simp only [execute, toNat_ofNat (show r < 2 ^ 64 by omega)]
  rw [exec_bind, hexec]
  rfl

/-! ## The exchange -/

/-- Sign commitment `n`. -/
def sign (n : Nat) : ChannelEvent := ask true (signCounterparty (.ofNat n) ⟨0⟩)

/-- Sign the first commitment, then `k` times sign the next one and revoke the one before. -/
def exchange : Nat → List ChannelEvent
  | 0 => [sign 0]
  | k + 1 => exchange k ++ [sign (k + 1), ask true (.validateCounterpartyRevocation (.ofNat k) 0)]

theorem exchange_ne_restart {k : Nat} {event : ChannelEvent} (h : event ∈ exchange k) :
    event ≠ .restart := by
  induction k with
  | zero =>
    obtain rfl := List.mem_singleton.mp h
    exact fun h => nomatch h
  | succ k ih =>
    rcases List.mem_append.mp h with h | h
    · exact ih h
    · rcases List.mem_pair.mp h with rfl | rfl <;> exact fun h => nomatch h

/-- The exchange goes on as long as the counter has numbers left. -/
theorem exchange_reaches (value : Nat) {k : Nat} (hk : k + 2 < 2 ^ 64) :
    ∃ e, (channel .wrapping).machine.final (initial value) (exchange k) = ⟨some e, e⟩ ∧
      Between (k + 1) k e := by
  induction k with
  | zero =>
    have hb := between_new value
    exact ⟨_, step_sign hb (n := 0) (by omega) (by omega) (by omega)
      (set_next_ok hb (.inl ⟨rfl, rfl⟩) (by omega)), hb.sign⟩
  | succ k ih =>
    obtain ⟨e, he, hb⟩ := ih (by omega)
    obtain ⟨e', he', hb'⟩ := step_revoke hb.sign (by omega) (afterSign e)
    refine ⟨e', ?_, hb'⟩
    rw [exchange, Machine.final_append, he]
    change ((channel .wrapping).machine.step ((channel .wrapping).machine.step ⟨some e, e⟩
      (sign (k + 1))).1 _).1 = _
    rw [sign, step_sign hb (by omega) (by omega) (by omega)
      (set_next_ok hb (.inr rfl) (by omega))]
    exact he'

end Sample

/-- A build that wraps can lose the previous point of a channel with two open commitments. -/
theorem previous_point_lost :
    ∃ events : List ChannelEvent, (∀ event ∈ events, event ≠ .restart) ∧
      ∃ e, ((Sample.channel .wrapping).machine.final (Channel.initial 1000000) events).live =
          some e ∧
        2 ≤ e.nextCounterpartyCommitNum ∧
        e.nextCounterpartyCommitNum = e.nextCounterpartyRevokeNum + 2 ∧
        e.previousCounterpartyPoint = none := by
  obtain ⟨k, hk⟩ : ∃ k, k + 3 = 2 ^ 64 := ⟨2 ^ 64 - 3, by decide⟩
  obtain ⟨e, he, hb⟩ := exchange_reaches 1000000 (k := k) (by omega)
  refine ⟨exchange k ++ [sign (k + 1), sign (k + 1)], ?_, ?_⟩
  · intro event hevent
    rcases List.mem_append.mp hevent with h | h
    · exact exchange_ne_restart h
    · rcases List.mem_pair.mp h with rfl | rfl <;> exact fun h => nomatch h
  · have hlast : (channel .wrapping).machine.final (initial 1000000)
        (exchange k ++ [sign (k + 1), sign (k + 1)]) =
        ⟨some (afterLast (afterSign e)),
          afterLast (afterSign e)⟩ := by
      rw [Machine.final_append, he]
      change ((channel .wrapping).machine.step ((channel .wrapping).machine.step
        ⟨some e, e⟩ (sign (k + 1))).1 (sign (k + 1))).1 = _
      rw [sign, step_sign hb (by omega) (by omega) (by omega)
        (set_next_ok hb (.inr rfl) (by omega))]
      exact step_sign hb.sign (by omega) (by omega) (by omega)
        (set_last_ok hb.sign (by omega) rfl)
    rw [hlast]
    refine ⟨_, rfl, ?_, ?_, rfl⟩
    · change 2 ≤ (afterSign e).nextCounterpartyCommitNum
      rw [hb.sign.commit]
      omega
    · change (afterSign e).nextCounterpartyCommitNum =
        (afterSign e).nextCounterpartyRevokeNum + 2
      rw [hb.sign.commit, hb.sign.revoke]

end ValidatingSigner
