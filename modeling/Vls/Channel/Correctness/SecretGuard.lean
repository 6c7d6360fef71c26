import Vls.Channel.Served

/-!
# The guard on released secrets in machine words

The guard compares a word that may have wrapped, and the secret is that of an index that may have
wrapped too.  What is released is the secret of the number asked for, and of a commitment that has
been replaced, for exactly those numbers on which neither matters.
-/

namespace ValidatingSigner

open Base

/-- The keys release the secrets that are derived from a seed. -/
def InMemorySigner.Seeded (keys : InMemorySigner) (sha256 : Bytes32 → Bytes32) (seed : Bytes32) :
    Prop :=
  ∀ index, keys.releaseCommitmentSecret index =
    CounterpartyCommitmentSecrets.deriveSecret sha256 seed 48 index

namespace Channel

/-- A secret released at a state is that of commitment `n`, which has been replaced; it is not that
of a commitment that has not been, and at least one step of the derivation separates it from the
seed. -/
structure ReleasesReplaced (ch : Channel) (seed : Bytes32) (e : EnforcementState) (n : Nat)
    (released : ReleasedSecret) : Prop where
  replaced : n + 2 ≤ e.nextHolderCommitNum
  index : released.index + n = INITIAL_COMMITMENT_NUMBER
  secret : released.secret = CounterpartyCommitmentSecrets.deriveSecret ch.library.sha256 seed 48
    (INITIAL_COMMITMENT_NUMBER - n)
  others : ∀ m, e.nextHolderCommitNum < m + 2 → released.index + m ≠ INITIAL_COMMITMENT_NUMBER
  belowSeed : ∃ bit < 48, released.index.testBit bit = true

variable {ch : Channel} {e : EnforcementState} {n : Nat} {released : ReleasedSecret}

/-- In a build that wraps, whatever passes the guard on words is answered. -/
theorem exists_getPerCommitmentSecret (hwrapping : ch.overflow = .wrapping)
    (hvalid : ∀ index, ch.library.isSecretKey (ch.keys.releaseCommitmentSecret index) = true)
    (hguard : (n + 2) % 2 ^ 64 ≤ e.nextHolderCommitNum) :
    ∃ released, ch.getPerCommitmentSecret e n = .ok released := by
  obtain ⟨needed, hneeded⟩ : ∃ needed, (ch.overflow.u64 (n + 2) : Result Nat) = .ok needed :=
    Overflow.u64_ok_iff.mpr (.inl hwrapping)
  obtain ⟨index, hindex⟩ : ∃ index,
      (ch.overflow.sub INITIAL_COMMITMENT_NUMBER n : Result Nat) = .ok index := by
    rw [hwrapping, Overflow.sub]
    split_ifs <;> exact ⟨_, rfl⟩
  refine ⟨⟨index, ch.keys.releaseCommitmentSecret index⟩, bind_eq_ok.mpr ⟨needed, hneeded, ?_⟩⟩
  rw [← Overflow.eq_mod_of_uint hneeded, ← not_lt] at hguard
  refine bind_eq_ok.mpr ⟨(), PolicyFilter.policyErr_of_not hguard, ?_⟩
  refine bind_eq_ok.mpr ⟨index, hindex, ?_⟩
  exact bind_eq_ok.mpr ⟨(), assert_eq_ok.mpr (hvalid index), rfl⟩

/-- The secret of a number that has been replaced and is not the last one there is. -/
theorem releasesReplaced_of_replaced {seed : Bytes32}
    (hseed : ch.keys.Seeded ch.library.sha256 seed) (hreplaced : n + 2 ≤ e.nextHolderCommitNum)
    (hlast : n + 1 < 2 ^ 48)
    (hindex : released.index = (INITIAL_COMMITMENT_NUMBER + 2 ^ 64 - n) % 2 ^ 64)
    (hsecret : released.secret = ch.keys.releaseCommitmentSecret released.index) :
    ch.ReleasesReplaced seed e n released := by
  have hsum : released.index + n = INITIAL_COMMITMENT_NUMBER := by
    unfold INITIAL_COMMITMENT_NUMBER at hindex ⊢
    omega
  have hsub : INITIAL_COMMITMENT_NUMBER - n = released.index := by omega
  refine ⟨hreplaced, hsum, ?_, fun m hm heq => by omega, ?_⟩
  · rw [hsub, hsecret]
    exact hseed _
  · unfold INITIAL_COMMITMENT_NUMBER at hsum
    obtain ⟨bit, hbit⟩ := Nat.exists_testBit_of_ne_zero (show released.index ≠ 0 by omega)
    refine ⟨bit, ?_, hbit⟩
    by_contra hlarge
    have hge := Nat.ge_two_pow_of_testBit hbit
    have hpow : 2 ^ 48 ≤ 2 ^ bit := Nat.pow_le_pow_right (by decide) (by omega)
    omega

/-- Only such a number is released rightly. -/
theorem ReleasesReplaced.succ_lt {seed : Bytes32} (h : ch.ReleasesReplaced seed e n released) :
    n + 1 < 2 ^ 48 := by
  have hindex := h.index
  unfold INITIAL_COMMITMENT_NUMBER at hindex
  obtain ⟨bit, -, hbit⟩ := h.belowSeed
  have hpos : released.index ≠ 0 := by
    intro hzero
    rw [hzero, Nat.zero_testBit] at hbit
    cases hbit
  omega

end Channel

/-- In a build that wraps, every secret that is returned for a number is the secret of exactly that
number, of a commitment that has been replaced, and not the seed, iff the number is not past the
last but one when it has been replaced, and the counter is below the word it wraps to when that
wraps. -/
theorem secret_guard_sound {ch : Channel} (hfilter : ch.validator.filter = .default)
    (hwrapping : ch.overflow = .wrapping)
    (hvalid : ∀ index, ch.library.isSecretKey (ch.keys.releaseCommitmentSecret index) = true)
    {seed : Bytes32} (hseed : ch.keys.Seeded ch.library.sha256 seed) (e : EnforcementState)
    (n : UInt64) :
    (∀ released, ch.getPerCommitmentSecret e n.toNat = .ok released →
      ch.ReleasesReplaced seed e n.toNat released) ↔
      (n.toNat + 2 ≤ e.nextHolderCommitNum → n.toNat + 1 < 2 ^ 48) ∧
        (2 ^ 64 ≤ n.toNat + 2 → e.nextHolderCommitNum + 2 ^ 64 < n.toNat + 2) := by
  have hn := n.toNat_lt
  constructor
  · intro h
    have hguarded (hguard : (n.toNat + 2) % 2 ^ 64 ≤ e.nextHolderCommitNum) :
        n.toNat + 1 < 2 ^ 48 := by
      obtain ⟨released, hreleased⟩ :=
        ch.exists_getPerCommitmentSecret hwrapping hvalid hguard
      exact (h released hreleased).succ_lt
    refine ⟨fun hreplaced => hguarded ((Nat.mod_le _ _).trans hreplaced), fun hlarge => ?_⟩
    by_contra hle
    have hlast := hguarded (by omega)
    omega
  · rintro ⟨hlast, hwrap⟩ released h
    obtain ⟨hguard, hindex, hsecret⟩ := Channel.getPerCommitmentSecret_ok hfilter h
    have hreplaced : n.toNat + 2 ≤ e.nextHolderCommitNum := by
      by_contra hlt
      by_cases hlarge : 2 ^ 64 ≤ n.toNat + 2
      · have hbelow := hwrap hlarge
        omega
      · omega
    exact Channel.releasesReplaced_of_replaced hseed hreplaced (hlast hreplaced)
      (Overflow.eq_mod_of_sub (by decide) hindex) hsecret

/-- The sample channel with secrets derived from a seed. -/
def Sample.seededChannel : Channel :=
  { Sample.channel .wrapping with
    keys := { Sample.keys with
      releaseCommitmentSecret := CounterpartyCommitmentSecrets.deriveSecret library.sha256 42 48 } }

/-- Once two commitments have been accepted the secret of the first is released. -/
theorem secret_guard_sound_first :
    ∃ released, Sample.seededChannel.getPerCommitmentSecret
        { EnforcementState.new 0 with nextHolderCommitNum := 2 } (0 : UInt64).toNat =
          .ok released ∧
      Sample.seededChannel.ReleasesReplaced 42
        { EnforcementState.new 0 with nextHolderCommitNum := 2 } (0 : UInt64).toNat released :=
  ⟨_, rfl, (secret_guard_sound rfl rfl (fun _ => rfl) (fun _ => rfl) _ 0).mpr
    ⟨by decide, by decide⟩ _ rfl⟩

/-- In a build that wraps, the number before zero passes the check and releases the seed itself, as
soon as one commitment has been accepted. -/
theorem seed_released :
    (Sample.seededChannel.machine.trace (Channel.initial 1000000)
      [Sample.ask true (Sample.validateHolder 0),
        Sample.ask true (.getPerCommitmentSecret 0xffffffffffffffff)]).map (·.answer) =
    [some (.ok (.holderAccepted ⟨2 ^ 48 - 2⟩ none)), some (.ok (.secret ⟨2 ^ 48, 42⟩))] := by
  decide +kernel

end ValidatingSigner
