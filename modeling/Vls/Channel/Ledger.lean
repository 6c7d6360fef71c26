import Vls.Channel.Served

/-!
# The counterparty's commitments

What a channel does for its counterparty is to sign commitments one after the other and to collect
the secrets of the old ones.  A `Ledger` is that history: the commitments signed, in order, and how
many are revoked, at most two being left open.  The enforcement state keeps only the end of it, and
`Represents` says how; every request either leaves the ledger alone or moves it by one.
-/

namespace ValidatingSigner

open Base Effect Overflow EnforcementState List

/-! ## The abstract history -/

/-- The commitments signed for the counterparty and the number of revoked ones. -/
structure Ledger where
  signed : List (PublicKey × CommitmentInfo2)
  revoked : Nat
  order : (signed = [] ∧ revoked = 0) ∨
    (revoked + 1 ≤ signed.length ∧ signed.length ≤ revoked + 2)

namespace Ledger

/-- The history of a new channel. -/
def empty : Ledger := ⟨[], 0, .inl ⟨rfl, rfl⟩⟩

theorem length_le (L : Ledger) : L.signed.length ≤ L.revoked + 2 := by
  rcases L.order with ⟨hsigned, -⟩ | ⟨-, h⟩
  · simp [hsigned]
  · exact h

theorem revoked_le (L : Ledger) : L.revoked ≤ L.signed.length := by
  rcases L.order with ⟨-, h⟩ | ⟨h, -⟩ <;> omega

/-- The history with one more commitment. -/
def sign (L : Ledger) (entry : PublicKey × CommitmentInfo2)
    (h : L.signed.length ≤ L.revoked + 1) : Ledger where
  signed := L.signed ++ [entry]
  revoked := L.revoked
  order := .inr (by
    have hrevoked := L.order
    rw [List.length_append, List.length_singleton]
    rcases hrevoked with ⟨-, h0⟩ | ⟨h1, -⟩ <;> omega)

/-- The history with one more commitment revoked. -/
def revoke (L : Ledger) (h : L.revoked + 2 ≤ L.signed.length) : Ledger where
  signed := L.signed
  revoked := L.revoked + 1
  order := .inr ⟨h, by have := L.length_le; omega⟩

/-- One history continues another. -/
instance : LE Ledger := ⟨fun L L' => L.signed <+: L'.signed ∧ L.revoked ≤ L'.revoked⟩

protected theorem le_refl (L : Ledger) : L ≤ L := ⟨prefix_rfl, le_rfl⟩

protected theorem le_trans {L L' L'' : Ledger} (h : L ≤ L') (h' : L' ≤ L'') : L ≤ L'' :=
  ⟨h.1.trans h'.1, h.2.trans h'.2⟩

theorem le_sign (L : Ledger) (entry : PublicKey × CommitmentInfo2)
    (h : L.signed.length ≤ L.revoked + 1) : L ≤ L.sign entry h :=
  ⟨prefix_append _ _, le_rfl⟩

theorem le_revoke (L : Ledger) (h : L.revoked + 2 ≤ L.signed.length) : L ≤ L.revoke h :=
  ⟨prefix_rfl, Nat.le_succ _⟩

theorem getElem?_of_le {L L' : Ledger} (h : L ≤ L') {n : Nat} {entry : PublicKey × CommitmentInfo2}
    (hn : L.signed[n]? = some entry) : L'.signed[n]? = some entry := by
  obtain ⟨rest, hrest⟩ := h.1
  rw [← hrest, List.getElem?_append_left (List.getElem?_eq_some_iff.mp hn).1]
  exact hn

/-- The last commitment but one. -/
def previous? (L : Ledger) : Option (PublicKey × CommitmentInfo2) := L.signed.dropLast.getLast?

end Ledger

/-! ## Representation -/

/-- The store of secrets has the secrets of the first `least` commitments, and at most one more than
are revoked. -/
def Ledger.Kept (ch : Channel) (v : SimpleValidator) (L : Ledger) (least : Nat)
    (e : EnforcementState) : Prop :=
  ∃ secrets count known, e.counterpartySecrets = some secrets ∧
    secrets.Holds ch.library.sha256 (2 ^ 48 - count) known ∧
    count ≤ 2 ^ 48 ∧ min least (2 ^ 48) ≤ count ∧ count ≤ L.revoked + 1 ∧
    ∀ n, n < count → ∃ entry, L.signed[n]? = some entry ∧
      v.library.publicKey (known (2 ^ 48 - 1 - n)) = entry.1

/-- How the enforcement state keeps the last commitment but one.  Its description is dropped once
the commitment is revoked.  At the last number a 64-bit counter can reach, a build that wraps drops
both when the commitment is signed again. -/
def Ledger.KeepsPrevious (o : Overflow) (L : Ledger) (e : EnforcementState) : Prop :=
  (e.previousCounterpartyPoint = L.previous?.map Prod.fst ∧
    e.previousCounterpartyCommitInfo =
      if L.signed.length = L.revoked + 2 then L.previous?.map Prod.snd else none) ∨
  (o = .wrapping ∧ L.signed.length = 2 ^ 64 - 1 ∧ e.previousCounterpartyPoint = none ∧
    e.previousCounterpartyCommitInfo = none)

/-- The enforcement state is that of a channel with the history `L`. -/
structure Ledger.Represents (ch : Channel) (v : SimpleValidator) (L : Ledger)
    (e : EnforcementState) : Prop where
  commit : e.nextCounterpartyCommitNum = L.signed.length
  revoke : e.nextCounterpartyRevokeNum = L.revoked
  word : L.signed.length < 2 ^ 64
  currentPoint : e.currentCounterpartyPoint = L.signed.getLast?.map Prod.fst
  currentInfo : e.currentCounterpartyCommitInfo = L.signed.getLast?.map Prod.snd
  previous : L.KeepsPrevious ch.overflow e
  kept : L.Kept ch v L.revoked e

namespace Ledger.Represents

variable {ch : Channel} {v : SimpleValidator} {L : Ledger} {e e' : EnforcementState} {n : Nat}

theorem new (ch : Channel) (v : SimpleValidator) (value : Nat) :
    Ledger.empty.Represents ch v (.new value) where
  commit := rfl
  revoke := rfl
  word := by decide
  currentPoint := rfl
  currentInfo := rfl
  previous := .inl ⟨rfl, rfl⟩
  kept := ⟨.new, 0, fun _ => 0, rfl, CounterpartyCommitmentSecrets.holds_new _, by decide,
    Nat.zero_le _, Nat.zero_le _, fun n hn => absurd hn (Nat.not_lt_zero n)⟩

end Ledger.Represents

/-! ## The setters -/

namespace EnforcementState

variable {o : Overflow} {e e' : EnforcementState} {num : Nat} {point : PublicKey}
  {info : CommitmentInfo2}

/-- Moving on by one makes the current commitment the previous one. -/
theorem setNextCounterpartyCommitNum_advance (hnum : num = e.nextCounterpartyCommitNum + 1)
    (hword : num < 2 ^ 64) (h : e.setNextCounterpartyCommitNum o num point info = .ok e') :
    e' = { e with
      previousCounterpartyPoint := e.currentCounterpartyPoint
      previousCounterpartyCommitInfo := e.currentCounterpartyCommitInfo
      currentCounterpartyPoint := some point
      currentCounterpartyCommitInfo := some info
      nextCounterpartyCommitNum := num } := by
  obtain ⟨u, -, h⟩ := bind_ok h
  obtain ⟨next, hnext, h⟩ := bind_ok h
  have hnext' : num = next := by
    rw [eq_mod_of_uint hnext, ← hnum, Nat.mod_eq_of_lt hword]
  have hge : num ≥ next := hnext'.ge
  simp only [if_pos hnext', if_pos hge] at h
  exact (pure_eq_ok.mp h).symm

/-- Staying changes nothing, except at the last number in a build that wraps. -/
theorem setNextCounterpartyCommitNum_retry (hnum : num = e.nextCounterpartyCommitNum)
    (hword : num < 2 ^ 64) (h : e.setNextCounterpartyCommitNum o num point info = .ok e') :
    e' = e ∨ (o = .wrapping ∧ num = 2 ^ 64 - 1 ∧
      e' = { e with
        previousCounterpartyPoint := none
        previousCounterpartyCommitInfo := none
        currentCounterpartyPoint := some point
        currentCounterpartyCommitInfo := some info }) := by
  obtain ⟨u, hpos, h⟩ := bind_ok h
  obtain ⟨next, hnext, h⟩ := bind_ok h
  have hmod := eq_mod_of_uint hnext
  rw [assert_eq_ok] at hpos
  rw [← hnum] at hnext hmod h
  by_cases hlast : num + 1 < 2 ^ 64
  · have hne : ¬ num = next := by omega
    have hclear : ¬ (num > next ∨ num < num) := by omega
    have hge : ¬ num ≥ next := by omega
    simp only [if_neg hne, if_neg hclear, if_neg hge] at h
    left
    rw [← pure_eq_ok.mp h, hnum]
  · right
    have hwrap : o = .wrapping := by
      cases o with
      | checked => exact absurd (eq_of_uint_checked hnext).2 hlast
      | wrapping => rfl
    have hne : ¬ num = next := by omega
    have hclear : num > next ∨ num < num := by omega
    have hge : num ≥ next := by omega
    simp only [if_neg hne, if_pos hclear, if_pos hge] at h
    refine ⟨hwrap, by omega, ?_⟩
    rw [← pure_eq_ok.mp h, hnum]
    rfl

/-- Moving the revocation counter keeps the rest, and drops the description of a commitment that is
now revoked. -/
theorem setNextCounterpartyRevokeNum_eq (hword : num + 1 < 2 ^ 64)
    (h : e.setNextCounterpartyRevokeNum o num = .ok e') :
    e' = { e with
      previousCounterpartyCommitInfo :=
        if num + 1 ≥ e.nextCounterpartyCommitNum then none else e.previousCounterpartyCommitInfo
      nextCounterpartyRevokeNum := num } := by
  obtain ⟨u, -, h⟩ := bind_ok h
  obtain ⟨next, hnext, h⟩ := bind_ok h
  rw [eq_mod_of_uint hnext, Nat.mod_eq_of_lt hword] at h
  exact (pure_eq_ok.mp h).symm

theorem previousCounterparty_last {α : Type} {n : Nat} {current previous r : Option α}
    (hlast : (n + 1) % 2 ^ 64 = e.nextCounterpartyCommitNum)
    (h : e.previousCounterparty o n current previous = .ok r) : r = current := by
  obtain ⟨one, hone, h⟩ := bind_ok h
  rw [eq_mod_of_uint hone, if_pos hlast] at h
  exact (pure_eq_ok.mp h).symm

/-- Only the last two numbers are remembered. -/
theorem previousCounterparty_some {α : Type} {n : Nat} {current previous : Option α} {a : α}
    (h : e.previousCounterparty o n current previous = .ok (some a)) :
    ((n + 1) % 2 ^ 64 = e.nextCounterpartyCommitNum ∧ current = some a) ∨
      ((n + 2) % 2 ^ 64 = e.nextCounterpartyCommitNum ∧ previous = some a) := by
  obtain ⟨one, hone, h⟩ := bind_ok h
  rw [eq_mod_of_uint hone] at h
  split_ifs at h with hlast
  · exact .inl ⟨hlast, pure_eq_ok.mp h⟩
  · obtain ⟨two, htwo, h⟩ := bind_ok h
    rw [eq_mod_of_uint htwo] at h
    split_ifs at h with hlast'
    · exact .inr ⟨hlast', pure_eq_ok.mp h⟩
    · exact nomatch pure_eq_ok.mp h

end EnforcementState

/-! ## Requests move the history -/

namespace Ledger

variable {ch : Channel} {v : SimpleValidator} {L L' : Ledger} {e e' : EnforcementState}
  {entry : PublicKey × CommitmentInfo2} {point : PublicKey} {call : Call} {n : Nat}
  {secret : Bytes32} {request : Request}

/-- The secrets kept for a history serve a continuation. -/
theorem Kept.mono {least : Nat} (h : L.Kept ch v least e) (hle : L ≤ L')
    (hsecrets : e'.counterpartySecrets = e.counterpartySecrets) : L'.Kept ch v least e' := by
  obtain ⟨secrets, count, known, he, hholds, hcount, hlow, hhigh, hknown⟩ := h
  refine ⟨secrets, count, known, hsecrets.trans he, hholds, hcount, hlow, ?_, fun n hn => ?_⟩
  · exact hhigh.trans (Nat.succ_le_succ hle.2)
  · obtain ⟨entry, hentry, hpoint⟩ := hknown n hn
    exact ⟨entry, getElem?_of_le hle hentry, hpoint⟩

/-- The state after the next commitment is signed represents the longer history. -/
theorem Represents.advance {info : CommitmentInfo2} (h : L.Represents ch v e)
    (hopen : L.signed.length ≤ L.revoked + 1) (hword : L.signed.length + 1 < 2 ^ 64)
    (hlast : L.signed.length + 1 = L.revoked + 2 ∨ L.signed = []) :
    (L.sign (point, info) hopen).Represents ch v { e with
      previousCounterpartyPoint := e.currentCounterpartyPoint
      previousCounterpartyCommitInfo := e.currentCounterpartyCommitInfo
      currentCounterpartyPoint := some point
      currentCounterpartyCommitInfo := some info
      nextCounterpartyCommitNum := L.signed.length + 1 } where
  commit := by simp [sign]
  revoke := h.revoke
  word := by simpa [sign] using hword
  currentPoint := by simp [sign]
  currentInfo := by simp [sign]
  previous := by
    have hprevious : (L.sign (point, info) hopen).previous? = L.signed.getLast? := by
      simp [sign, previous?]
    refine .inl ⟨?_, ?_⟩
    · rw [hprevious]
      exact h.currentPoint
    · rw [hprevious]
      change e.currentCounterpartyCommitInfo = _
      rw [h.currentInfo]
      rcases hlast with hlast | hlast
      · have hlength : (L.sign (point, info) hopen).signed.length =
            (L.sign (point, info) hopen).revoked + 2 := by simpa [sign] using hlast
        rw [if_pos hlength]
      · rw [hlast]
        simp
  kept := h.kept.mono (L.le_sign _ hopen) rfl

/-- Signing counterparty commitment `n` repeats the last commitment or adds the next; in either case
`n` is not revoked. -/
theorem Represents.signed (hv : ch.validator = v.toValidator) (hfilter : v.policy.filter = .default)
    {s : Session} {tx : CommitmentTransaction} {update : CommitmentUpdate} {node : NodeState}
    (hn : n < 2 ^ 64) (hrep : L.Represents ch v s.estate)
    (h : ch.CounterpartyAdvanced call s n point tx update e node) :
    L.revoked ≤ n ∧ ∃ L', L'.Represents ch v e ∧
      ((L' = L ∧ L.signed.getLast? = some (point, update.info) ∧ n + 1 = L.signed.length) ∨
        ∃ hopen, L' = L.sign (point, update.info) hopen ∧ n = L.signed.length) := by
  have hdefault := Channel.filter_default hv hfilter
  obtain ⟨num, hnum, hset⟩ := h.advance
  obtain ⟨hzero, hlow, hhigh, hprogress, hset⟩ :=
    Validator.setNextCounterpartyCommitNum_ok hdefault hset
  have hmod := eq_mod_of_uint hnum
  rw [hrep.revoke] at hlow hhigh
  have hword := hrep.word
  have hrevoked := L.order
  have hwrap : L.revoked + 2 < 2 ^ 64 := by
    rcases hrevoked with ⟨-, h0⟩ | ⟨h1, -⟩ <;> omega
  have hnum' : num = n + 1 := by omega
  have hbounds : (num = 1 ∧ L.revoked = 0) ∨ num = L.revoked + 2 := by
    by_cases hone : num = 1
    · rw [if_pos hone] at hlow
      omega
    · rw [if_neg hone] at hlow
      omega
  refine ⟨by omega, ?_⟩
  rcases Validator.checkCounterpartyProgression_ok hdefault hprogress with
    ⟨hretry, hpoint⟩ | ⟨-, hnext⟩
  · have hvalid := h.checked.valid
    rw [hv] at hvalid
    obtain ⟨-, -, hsame⟩ := SimpleValidator.validateCounterpartyCommitmentTx_ok hfilter hvalid
    have hlast : (n + 1) % 2 ^ 64 = s.estate.nextCounterpartyCommitNum := by
      rw [← hretry, hmod]
    have hinfo : s.estate.currentCounterpartyCommitInfo = some update.info :=
      (previousCounterparty_last hlast (hsame hlast).2).symm
    have hentry : L.signed.getLast? = some (point, update.info) := by
      have hfst := hrep.currentPoint.symm.trans hpoint
      have hsnd := hrep.currentInfo.symm.trans hinfo
      obtain ⟨entry, hentry, hfst⟩ := Option.map_eq_some_iff.mp hfst
      rw [hentry, Option.map_some] at hsnd
      rw [hentry, ← hfst, ← Option.some.inj hsnd]
    refine ⟨L, ?_, .inl ⟨rfl, hentry, ?_⟩⟩
    · rcases setNextCounterpartyCommitNum_retry hretry (by omega) hset with
        rfl | ⟨hwrapping, hlargest, rfl⟩
      · exact hrep
      · refine ⟨hrep.commit, hrep.revoke, hword, ?_, ?_, ?_, hrep.kept⟩
        · rw [hentry]
          rfl
        · rw [hentry]
          rfl
        · rw [hv] at hwrapping
          refine .inr ⟨?_, ?_, rfl, rfl⟩
          · rw [Channel.overflow, hv]
            exact hwrapping
          · rw [← hrep.commit, ← hretry]
            exact hlargest
    · rw [← hrep.commit, ← hretry, hnum']
  · rw [hrep.commit] at hnext
    have hlength : n = L.signed.length := by omega
    have hopen : L.signed.length ≤ L.revoked + 1 := by omega
    refine ⟨L.sign (point, update.info) hopen, ?_, .inr ⟨hopen, rfl, hlength⟩⟩
    have hnum'' : num = s.estate.nextCounterpartyCommitNum + 1 := by rw [hrep.commit]; omega
    rw [setNextCounterpartyCommitNum_advance hnum'' (by omega) hset, hnum',
      hlength]
    refine hrep.advance hopen (by omega) ?_
    rcases hbounds with ⟨hone, -⟩ | htwo
    · exact .inr (length_eq_zero_iff.mp (by omega))
    · exact .inl (by omega)

theorem getElem?_last (hn : n + 1 = L.signed.length) (h : L.signed.getLast? = some entry) :
    L.signed[n]? = some entry := by
  rw [getLast?_eq_getElem?, ← hn] at h
  exact h

theorem getElem?_previous (hn : n + 2 = L.signed.length) (h : L.previous? = some entry) :
    L.signed[n]? = some entry := by
  rw [previous?, getLast?_eq_getElem?, length_dropLast, ← hn,
    List.getElem?_dropLast] at h
  simpa [← hn] using h

theorem previous?_eq_none (h : L.signed.length < 2) : L.previous? = none := by
  have hlength : L.signed.dropLast.length = 0 := by
    rw [length_dropLast]
    omega
  rw [previous?, length_eq_zero_iff.mp hlength]
  rfl

/-- A remembered point is that of the history. -/
theorem Represents.getPreviousCounterpartyPoint_some {o : Overflow} (hrep : L.Represents ch v e)
    (hn : n < 2 ^ 64) (h : e.getPreviousCounterpartyPoint o n = .ok (some point)) :
    ∃ entry, L.signed[n]? = some entry ∧ entry.1 = point := by
  have hword := hrep.word
  rcases previousCounterparty_some h with ⟨hlast, hpoint⟩ | ⟨hlast, hpoint⟩
  · rw [hrep.commit] at hlast
    rw [hrep.currentPoint] at hpoint
    obtain ⟨entry, hentry, hpoint⟩ := Option.map_eq_some_iff.mp hpoint
    have hpos : L.signed.length ≠ 0 := by
      intro h0
      rw [length_eq_zero_iff.mp h0] at hentry
      cases hentry
    exact ⟨entry, getElem?_last (by omega) hentry, hpoint⟩
  · rw [hrep.commit] at hlast
    rcases hrep.previous with ⟨hprevious, -⟩ | ⟨-, -, hnone, -⟩
    · rw [hprevious] at hpoint
      obtain ⟨entry, hentry, hpoint⟩ := Option.map_eq_some_iff.mp hpoint
      have htwo : ¬ L.signed.length < 2 := by
        intro hlt
        rw [previous?_eq_none hlt] at hentry
        cases hentry
      exact ⟨entry, getElem?_previous (by omega) hentry, hpoint⟩
    · exact nomatch hnone.symm.trans hpoint

/-- Under the default filter a secret is stored or the request is refused. -/
theorem storeSecret_some (hfilter : ch.validator.filter = .default)
    {secrets : CounterpartyCommitmentSecrets} (he : e.counterpartySecrets = some secrets)
    (h : ch.storeSecret e n secret = .ok e') :
    ∃ index secrets', ch.overflow.sub INITIAL_COMMITMENT_NUMBER n = (.ok index : Result Nat) ∧
      secrets.provideSecret ch.library.sha256 index secret = .ok secrets' ∧
      e' = { e with counterpartySecrets := some secrets' } := by
  unfold Channel.storeSecret at h
  simp only [he] at h
  obtain ⟨index, hindex, h⟩ := bind_ok h
  cases hprovide : secrets.provideSecret ch.library.sha256 index secret with
  | error u =>
    simp only [hprovide] at h
    obtain ⟨u, h, -⟩ := bind_ok h
    rw [hfilter, PolicyFilter.default_policyErr_eq_ok] at h
    exact absurd trivial h
  | ok secrets' =>
    simp only [hprovide, Except.ok.injEq] at h
    exact ⟨index, secrets', hindex, hprovide, h.symm⟩

/-- A secret of the last revoked commitment or the next one is kept, or was kept before. -/
theorem Kept.provide (hfilter : ch.validator.filter = .default) (hn : n < 2 ^ 64)
    (hstep : L.revoked = n ∨ L.revoked = n + 1) (hentry : L.signed[n]? = some entry)
    (hpoint : v.library.publicKey secret = entry.1) (hkept : L.Kept ch v L.revoked e)
    (h : ch.storeSecret e n secret = .ok e') : L.Kept ch v (n + 1) e' := by
  obtain ⟨secrets, count, known, he, hholds, hcount, hlow, hhigh, hknown⟩ := hkept
  obtain ⟨index, secrets', hindex, hprovide, rfl⟩ := storeSecret_some hfilter he h
  have hindex' := eq_mod_of_sub (by decide) hindex
  unfold INITIAL_COMMITMENT_NUMBER at hindex'
  by_cases hold : 2 ^ 48 - count ≤ index
  · obtain rfl := hholds.provideSecret_of_le hold hprovide
    exact ⟨secrets', count, known, rfl, hholds, hcount, by omega, hhigh, hknown⟩
  · obtain ⟨rfl, hlt⟩ : count = n ∧ n < 2 ^ 48 := by omega
    rw [show 2 ^ 48 - count = index + 1 by omega] at hholds
    have hholds' := hholds.provideSecret_next hprovide
    refine ⟨secrets', count + 1, Function.update known index secret, rfl, ?_, by omega, by omega,
      by omega, fun m hm => ?_⟩
    · rw [show 2 ^ 48 - (count + 1) = index by omega]
      exact hholds'
    · rcases Nat.lt_succ_iff_lt_or_eq.mp hm with hm | rfl
      · rw [Function.update_of_ne (by omega)]
        exact hknown m hm
      · refine ⟨entry, hentry, ?_⟩
        rw [show 2 ^ 48 - 1 - m = index by omega, Function.update_self]
        exact hpoint

/-- A secret that passes the checks is kept, or was kept before. -/
theorem Represents.stored (hv : ch.validator = v.toValidator) (hfilter : v.policy.filter = .default)
    (hn : n < 2 ^ 64) (hrep : L.Represents ch v e)
    (hvalid : ch.validator.validateCounterpartyRevocation e n secret = .ok ())
    (h : ch.storeSecret e n secret = .ok e') :
    n < L.signed.length ∧ L.Represents ch v e' ∧ L.Kept ch v (n + 1) e' := by
  have hdefault := Channel.filter_default hv hfilter
  rw [hv] at hvalid
  obtain ⟨hstep, hprevious⟩ := SimpleValidator.validateCounterpartyRevocation_ok hfilter hvalid
  obtain ⟨entry, hentry, hpoint⟩ := hrep.getPreviousCounterpartyPoint_some hn hprevious
  have hlength : n < L.signed.length := (List.getElem?_eq_some_iff.mp hentry).1
  have hword := hrep.word
  have hstep' : L.revoked = n ∨ L.revoked = n + 1 := by
    rw [hrep.revoke] at hstep
    omega
  have hkept := hrep.kept.provide hdefault hn hstep' hentry hpoint.symm h
  obtain ⟨secrets, rfl⟩ := Channel.storeSecret_ok h
  refine ⟨hlength, ⟨hrep.commit, hrep.revoke, hword, hrep.currentPoint, hrep.currentInfo,
    hrep.previous, ?_⟩, hkept⟩
  obtain ⟨secrets', count, known, he, hholds, hcount, hlow, hhigh, hknown⟩ := hkept
  exact ⟨secrets', count, known, he, hholds, hcount, by omega, hhigh, hknown⟩

/-- Recording a revocation repeats the last one or moves on by one. -/
theorem Represents.revoked (hfilter : ch.validator.filter = .default) {n num : Nat}
    (hlength : n < L.signed.length) (hrep : L.Represents ch v e) (hkept : L.Kept ch v (n + 1) e)
    (hnum : ch.overflow.u64 (n + 1) = (.ok num : Result Nat))
    (h : ch.validator.setNextCounterpartyRevokeNum e num = .ok e') :
    ∃ L', L'.Represents ch v e' ∧ n < L'.revoked ∧ (L' = L ∨ ∃ hopen, L' = L.revoke hopen) := by
  obtain ⟨hzero, hhigh, hlow, hstep, hset⟩ :=
    Validator.setNextCounterpartyRevokeNum_ok hfilter h
  have hmod := eq_mod_of_uint hnum
  have hword := hrep.word
  rw [hrep.commit] at hhigh hlow
  rw [hrep.revoke] at hstep
  have hle := L.length_le
  have hrevoked := L.revoked_le
  obtain rfl : num = n + 1 := by omega
  have hlarge : n + 1 + 1 < 2 ^ 64 := by omega
  have he' := setNextCounterpartyRevokeNum_eq hlarge hset
  rw [hrep.commit] at he'
  by_cases hsame : n + 1 = L.revoked
  · refine ⟨L, ?_, by omega, .inl rfl⟩
    subst he'
    refine ⟨rfl, hsame, hword, hrep.currentPoint, hrep.currentInfo, ?_, hrep.kept.mono
      (Ledger.le_refl L) rfl⟩
    rcases hrep.previous with ⟨hpoint, hinfo⟩ | ⟨hwrap, hlast, hpoint, hinfo⟩
    · refine .inl ⟨hpoint, ?_⟩
      change (if n + 1 + 1 ≥ L.signed.length then none
        else e.previousCounterpartyCommitInfo) = _
      rw [hinfo]
      split_ifs <;> first | rfl | omega
    · refine .inr ⟨hwrap, hlast, hpoint, ?_⟩
      change (if n + 1 + 1 ≥ L.signed.length then none
        else e.previousCounterpartyCommitInfo) = none
      rw [hinfo, ite_self]
  · have hnext : n = L.revoked := by omega
    subst hnext
    have hopen : L.revoked + 2 ≤ L.signed.length := by omega
    refine ⟨L.revoke hopen, ?_, Nat.lt_succ_self _, .inr ⟨hopen, rfl⟩⟩
    subst he'
    refine ⟨rfl, rfl, hword, hrep.currentPoint, hrep.currentInfo, ?_,
      hkept.mono (L.le_revoke hopen) rfl⟩
    have hdrop := hle
    rcases hrep.previous with ⟨hpoint, -⟩ | ⟨hwrap, hlast, hpoint, -⟩
    · refine .inl ⟨hpoint, ?_⟩
      change (if L.revoked + 1 + 1 ≥ L.signed.length then none
        else e.previousCounterpartyCommitInfo) =
          if L.signed.length = L.revoked + 1 + 2 then _ else none
      rw [if_pos hdrop, if_neg (by omega)]
    · refine .inr ⟨hwrap, hlast, hpoint, ?_⟩
      change (if L.revoked + 1 + 1 ≥ L.signed.length then none
        else e.previousCounterpartyCommitInfo) = none
      rw [if_pos hdrop]

/-! ## Served requests -/

/-- What a request does to the history. -/
inductive Moves (ch : Channel) (L : Ledger) (request : Request) : Ledger → Prop where
  | stay : Moves ch L request L
  | sign {n : Nat} {point : PublicKey} {info : CommitmentInfo2}
      (hopen : L.signed.length ≤ L.revoked + 1)
      (hproposed : ch.proposed request = some (n, point, info)) (hn : n = L.signed.length) :
      Moves ch L request (L.sign (point, info) hopen)
  | revoke (hopen : L.revoked + 2 ≤ L.signed.length) : Moves ch L request (L.revoke hopen)

theorem Moves.le (h : L.Moves ch request L') : L ≤ L' := by
  cases h with
  | stay => exact Ledger.le_refl L
  | sign hopen => exact L.le_sign _ hopen
  | revoke hopen => exact L.le_revoke hopen

/-- What a served request means for the history: how it moves, and what a reply says about it. -/
structure Effect (ch : Channel) (v : SimpleValidator) (s t : Session) (request : Request)
    (r : Result Reply) (L L' : Ledger) : Prop where
  represents : L'.Represents ch v t.estate
  moves : L.Moves ch request L'
  stored : t.stored = s.stored ∨ t.stored = t.estate
  signs : ∀ signed, r = .ok (.counterpartySigned signed) → t.stored = t.estate ∧
    ∃ n point info, ch.proposed request = some (n, point, info) ∧
      L'.signed[n]? = some (point, info) ∧ L.revoked ≤ n ∧
      ch.IsCounterpartyTx n point info signed.tx
  revokes : r = .ok .revocationAccepted → t.stored = t.estate ∧
    ∃ n, request.number = some n ∧ n < L'.revoked

/-- The effect of a request that leaves the counterparty's commitments alone. -/
theorem Effect.of_same {s t : Session} {r : Result Reply} {node : NodeState} {reply : Reply}
    (hended : Ended call s.stored e node reply r t) (hrep : L.Represents ch v e)
    (hsigned : ∀ signed, reply ≠ .counterpartySigned signed)
    (hrevoked : reply ≠ .revocationAccepted) : Effect ch v s t request r L L where
  represents := hended.estate_eq ▸ hrep
  moves := .stay
  stored := hended.estate_eq ▸ hended.stored_eq
  signs signed hr := absurd (hended.of_ok hr).1.symm (hsigned signed)
  revokes hr := absurd (hended.of_ok hr).1.symm hrevoked

/-- Every served request has such an effect. -/
theorem Effect.of_served (hv : ch.validator = v.toValidator) (hfilter : v.policy.filter = .default)
    {s t : Session} {r : Result Reply} (hrep : L.Represents ch v s.estate)
    (h : ch.Served call s request r t) : ∃ L', Effect ch v s t request r L L' := by
  have hdefault := Channel.filter_default hv hfilter
  cases h with
  | point point =>
    exact ⟨L, hrep, .stay, .inl rfl, (fun _ hr => nomatch hr), (fun hr => nomatch hr)⟩
  | secret m released hrequest hsecret =>
    exact ⟨L, hrep, .stay, .inl rfl, (fun _ hr => nomatch hr), (fun hr => nomatch hr)⟩
  | @counterparty n point signed update e node r t hn hproposed h hended =>
    obtain ⟨hrevoked, L', hrep', hmove⟩ := hrep.signed hv hfilter (Request.number_lt hn) h
    have hsigned : L'.signed[n]? = some (point, update.info) := by
      rcases hmove with ⟨rfl, hlast, hlength⟩ | ⟨hopen, rfl, rfl⟩
      · exact getElem?_last hlength hlast
      · simp [Ledger.sign]
    refine ⟨L', hended.estate_eq ▸ hrep', ?_, hended.estate_eq ▸ hended.stored_eq, ?_, ?_⟩
    · rcases hmove with ⟨rfl, -, -⟩ | ⟨hopen, rfl, hlength⟩
      · exact .stay
      · exact .sign hopen hproposed hlength
    · intro signed' hr
      obtain ⟨hreply, hstored⟩ := hended.of_ok hr
      obtain rfl := Reply.counterpartySigned.inj hreply
      rw [hended.estate_eq]
      exact ⟨hstored, n, point, update.info, hproposed, hsigned, hrevoked, h.checked.tx⟩
    · intro hr
      exact nomatch (hended.of_ok hr).1
  | @holder n signatures update nextPoint secret e node r t hn h hended =>
    obtain ⟨num, -, hset⟩ := h.advance
    obtain ⟨-, rfl⟩ := Validator.setNextHolderCommitNum_ok hdefault hset
    exact ⟨L, .of_same hended ⟨hrep.1, hrep.2, hrep.3, hrep.4, hrep.5, hrep.6, hrep.7⟩
      (fun _ hr => nomatch hr) (fun hr => nomatch hr)⟩
  | holderSigned hn h hended =>
    exact ⟨L, .of_same hended ⟨hrep.1, hrep.2, hrep.3, hrep.4, hrep.5, hrep.6, hrep.7⟩
      (fun _ hr => nomatch hr) (fun hr => nomatch hr)⟩
  | closeSigned hended =>
    exact ⟨L, .of_same hended ⟨hrep.1, hrep.2, hrep.3, hrep.4, hrep.5, hrep.6, hrep.7⟩
      (fun _ hr => nomatch hr) (fun hr => nomatch hr)⟩
  | revocationStored refusal hn hvalid hstore =>
    obtain ⟨-, hrep', -⟩ := hrep.stored hv hfilter (Request.number_lt hn) hvalid hstore
    exact ⟨L, hrep', .stay, .inl rfl, (fun _ hr => nomatch hr), (fun hr => nomatch hr)⟩
  | @revocation n num secret e e' r t hn hvalid hstore hnum hset hended =>
    obtain ⟨hlength, hrep', hkept⟩ :=
      hrep.stored hv hfilter (Request.number_lt hn) hvalid hstore
    obtain ⟨L', hrep', hrevoked, hmove⟩ := hrep'.revoked hdefault hlength hkept hnum hset
    refine ⟨L', hended.estate_eq ▸ hrep', ?_, hended.estate_eq ▸ hended.stored_eq, ?_, ?_⟩
    · rcases hmove with rfl | ⟨hopen, rfl⟩
      · exact .stay
      · exact .revoke hopen
    · intro signed hr
      exact nomatch (hended.of_ok hr).1
    · intro hr
      rw [hended.estate_eq]
      exact ⟨(hended.of_ok hr).2, n, hn, hrevoked⟩

end Ledger

end ValidatingSigner
