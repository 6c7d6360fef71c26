import Vls.Channel.Scripts
import Vls.Channel.Sweeps

/-!
# Sweeps obey the rules of the input they sign

The sequence rule is checked on the first input of a sweep.  Of the input that is signed the rules
hold iff its own sequence is right; the rules for the locktime and the outputs always hold.
-/

namespace ValidatingSigner

open Base Effect Sweeper

/-- Input `input` has one of the given sequences. -/
def Transaction.HasSequence (tx : Transaction) (input : Nat) (validSeqs : List Nat) : Prop :=
  ∃ txin, tx.input[input]? = some txin ∧ txin.sequence ∈ validSeqs

namespace Sweeper

/-- Input `input` has one of the given sequences, the locktime is not later than the given one, and
every output goes to the wallet or the allowlist. -/
structure Obeys (sw : Sweeper) (tx : Transaction) (input : Nat) (walletPath validSeqs : List Nat)
    (latest : Int) : Prop where
  sequence : tx.HasSequence input validSeqs
  locktime : tx.lockTime ≤ latest
  outputs : ∀ out ∈ tx.output, sw.wallet.canSpend walletPath out.scriptPubkey = .ok true ∨
    sw.wallet.allowlistContains out.scriptPubkey walletPath = .ok true

/-- The latest locktime of the sweep of an HTLC: the expiry of a received one, or what the chain
allows. -/
def latestHtlcLocktime (sw : Sweeper) (chain : ChainState) (redeemscript : Script) : Int :=
  match sw.scripts.parse (parseReceivedHtlcScript sw.scripts sw.channel.setup.isAnchors)
    redeemscript with
  | some (_, _, _, _, cltvExpiry) => cltvExpiry
  | none => chain.currentHeight + MAX_CHAIN_LAG

variable {sw : Sweeper} {tx : Transaction} {walletPath : List Nat} {chain : ChainState}
  {function : String}

/-! ## What the checks establish -/

theorem validateDestinations_ok (hfilter : sw.validator.policy.filter = .default)
    {outs : List TxOut} (h : sw.validateDestinations walletPath outs = .ok ()) :
    ∀ out ∈ outs, sw.wallet.canSpend walletPath out.scriptPubkey = .ok true ∨
      sw.wallet.allowlistContains out.scriptPubkey walletPath = .ok true := by
  induction outs with
  | nil => exact fun _ => nofun
  | cons out outs ih =>
    obtain ⟨known, hknown, h⟩ := bind_ok h
    obtain ⟨_, hcheck, h⟩ := bind_ok h
    obtain ⟨ours, hours, hknown⟩ := bind_ok hknown
    rw [orWalletError_eq_ok] at hours
    rw [hfilter, PolicyFilter.default_policyErr_eq_ok, Bool.not_eq_false] at hcheck
    subst hcheck
    refine List.forall_mem_cons.mpr ⟨?_, ih h⟩
    cases ours with
    | true => exact .inl hours
    | false => exact .inr (Asserted.lift_eq_ok.mp hknown)

theorem validateSweep_ok (hfilter : sw.validator.policy.filter = .default)
    (h : withFunction function (sw.validateSweep tx walletPath) = .ok ()) :
    ∀ out ∈ tx.output, sw.wallet.canSpend walletPath out.scriptPubkey = .ok true ∨
      sw.wallet.allowlistContains out.scriptPubkey walletPath = .ok true := by
  obtain ⟨_, -, h⟩ := bind_ok (withFunction_eq_ok.mp h)
  exact validateDestinations_ok hfilter h

theorem checkLocktime_ok (h : sw.checkLocktime function chain tx = .ok ()) :
    (tx.lockTime : Int) ≤ chain.currentHeight + MAX_CHAIN_LAG := by
  obtain ⟨latest, hlatest, h⟩ := bind_ok h
  have hle := not_lt.mp (refuseIf_eq_ok.mp h)
  rw [Overflow.eq_mod_of_uint hlatest] at hle
  have := Nat.mod_le (chain.currentHeight + MAX_CHAIN_LAG) (2 ^ 32)
  omega

theorem checkHtlcLocktime_ok {redeemscript : Script}
    (h : sw.checkHtlcLocktime function chain tx redeemscript = .ok ()) :
    tx.lockTime ≤ sw.latestHtlcLocktime chain redeemscript := by
  rw [checkHtlcLocktime] at h
  unfold latestHtlcLocktime
  cases hparse : sw.scripts.parse (parseReceivedHtlcScript sw.scripts
      sw.channel.setup.isAnchors) redeemscript with
  | some vals =>
    rw [hparse] at h
    obtain ⟨_, hcltv, h⟩ := bind_ok h
    have hcltv := refuseIf_eq_ok.mp hcltv
    have hle := refuseIf_eq_ok.mp h
    dsimp only
    omega
  | none =>
    simp only [hparse] at h
    split at h
    · exact checkLocktime_ok h
    · cases h

theorem checkSequence_ok {function expected : String} {validSeqs : List Nat}
    (h : checkSequence function tx validSeqs expected = .ok ()) : tx.HasSequence 0 validSeqs := by
  obtain ⟨first, hget, h⟩ := bind_ok h
  exact ⟨first, expect_eq_ok.mp hget, not_not.mp (refuseIf_eq_ok.mp h)⟩

/-- Where the rules hold of the first input, they hold of another iff its sequence is right. -/
theorem Obeys.iff_sequence {validSeqs : List Nat} {latest : Int}
    (h : sw.Obeys tx 0 walletPath validSeqs latest) (input : Nat) :
    sw.Obeys tx input walletPath validSeqs latest ↔ tx.HasSequence input validSeqs :=
  ⟨Obeys.sequence, fun hsequence => ⟨hsequence, h.locktime, h.outputs⟩⟩

/-- A signature goes out only for a transaction that passes the checks. -/
theorem signSweep_ok {call : Call} {input amountSat : Nat} {redeemscript : Script}
    {validate : EnforcementState → Result (Bytes32 → Signature)} {s t : Session} {sig : Signature}
    (h : exec (sw.signSweep function call tx input redeemscript amountSat validate) s =
      (.ok sig, t)) : ∃ sign, validate s.estate = .ok sign := by
  rw [signSweep, exec_get_bind] at h
  rcases exec_lift_bind_iff.mp h with ⟨_, -, ⟨⟩, -⟩ | ⟨_, -, h⟩
  rcases exec_lift_bind_iff.mp h with ⟨_, -, ⟨⟩, -⟩ | ⟨sign, hsign, -⟩
  exact ⟨sign, hsign⟩

end Sweeper

/-- A sweep is signed only if the rules hold of its first input, and then they hold of the signed
input iff the sequence of that is right. -/
theorem sweeps_obey_rules {sw : Sweeper} (hfilter : sw.validator.policy.filter = .default)
    {call : Call} {tx : Transaction} {input : Nat} {redeemscript : Script} {amountSat : Nat}
    {walletPath : List Nat} {s t : Session} {sig : Signature} :
    (∀ commitmentNumber, exec (sw.signDelayedSweep call tx input commitmentNumber redeemscript
        amountSat walletPath) s = (.ok sig, t) →
      let validSeqs := [sw.channel.setup.counterpartySelectedContestDelay]
      let latest := call.chain.currentHeight + MAX_CHAIN_LAG
      sw.Obeys tx 0 walletPath validSeqs latest ∧
        (sw.Obeys tx input walletPath validSeqs latest ↔ tx.HasSequence input validSeqs)) ∧
    (∀ remotePoint, exec (sw.signCounterpartyHtlcSweep call tx input remotePoint redeemscript
        amountSat walletPath) s = (.ok sig, t) →
      let validSeqs := if sw.channel.setup.isAnchors then ANCHOR_SEQS else NON_ANCHOR_SEQS
      let latest := sw.latestHtlcLocktime call.chain redeemscript
      sw.Obeys tx 0 walletPath validSeqs latest ∧
        (sw.Obeys tx input walletPath validSeqs latest ↔ tx.HasSequence input validSeqs)) ∧
    ∀ revocationSecret, exec (sw.signJusticeSweep call tx input revocationSecret redeemscript
        amountSat walletPath) s = (.ok sig, t) →
      let latest := call.chain.currentHeight + MAX_CHAIN_LAG
      sw.Obeys tx 0 walletPath NON_ANCHOR_SEQS latest ∧
        (sw.Obeys tx input walletPath NON_ANCHOR_SEQS latest ↔
          tx.HasSequence input NON_ANCHOR_SEQS) := by
  refine ⟨fun commitmentNumber h => ?_, fun remotePoint h => ?_, fun revocationSecret h => ?_⟩
  · obtain ⟨sign, h⟩ := signSweep_ok h
    obtain ⟨_, -, h⟩ := bind_ok h
    obtain ⟨_, h, -⟩ := bind_ok h
    obtain ⟨_, hsweep, h⟩ := bind_ok h
    obtain ⟨_, hlocktime, h⟩ := bind_ok h
    have hfirst : sw.Obeys tx 0 walletPath _ _ :=
      ⟨checkSequence_ok h, checkLocktime_ok hlocktime, validateSweep_ok hfilter hsweep⟩
    exact ⟨hfirst, hfirst.iff_sequence input⟩
  · obtain ⟨sign, h⟩ := signSweep_ok h
    obtain ⟨_, h, -⟩ := bind_ok h
    obtain ⟨_, hsweep, h⟩ := bind_ok h
    obtain ⟨_, hlocktime, h⟩ := bind_ok h
    have hfirst : sw.Obeys tx 0 walletPath _ _ :=
      ⟨checkSequence_ok h, checkHtlcLocktime_ok hlocktime, validateSweep_ok hfilter hsweep⟩
    exact ⟨hfirst, hfirst.iff_sequence input⟩
  · obtain ⟨sign, h⟩ := signSweep_ok h
    obtain ⟨_, h, -⟩ := bind_ok h
    obtain ⟨_, hsweep, h⟩ := bind_ok h
    obtain ⟨_, hlocktime, h⟩ := bind_ok h
    have hfirst : sw.Obeys tx 0 walletPath _ _ :=
      ⟨checkSequence_ok h, checkLocktime_ok hlocktime, validateSweep_ok hfilter hsweep⟩
    exact ⟨hfirst, hfirst.iff_sequence input⟩

namespace Sample

/-- The sample channel with a wallet that can spend everything. -/
def sweeper : Sweeper :=
  ⟨channel .checked, validator .checked, ⟨fun _ _ => .ok true, fun _ _ => .ok false⟩, scripts,
    fun _ => "", fun _ _ => ⟨1⟩, fun _ _ => ⟨1⟩, fun _ _ => ⟨1⟩⟩

/-- A sweep whose inputs have the given sequences. -/
def sweepTx (sequences : List Nat) : Transaction :=
  ⟨2, 0, sequences.map fun sequence => ⟨⟨0, 0⟩, [], sequence, []⟩, [⟨900, []⟩]⟩

/-- Sign the second input of a sweep of the holder's delayed output. -/
def signSecond (sequences : List Nat) : Result Signature × Session :=
  exec (sweeper.signDelayedSweep ⟨chain, true⟩ (sweepTx sequences) 1 0 [] 1000 [])
    ⟨.new 0, node, .new 0⟩

/-- Sign the second input of a sweep of the outputs of a revoked commitment. -/
def signSecondJustice (sequences : List Nat) : Result Signature × Session :=
  exec (sweeper.signJusticeSweep ⟨chain, true⟩ (sweepTx sequences) 1 7 [] 1000 [])
    ⟨.new 0, node, .new 0⟩

end Sample

/-- The second input of a sweep whose inputs have different sequences, both of them right, is signed
by the rules. -/
theorem sweeps_obey_rules_second :
    (Sample.signSecondJustice [0, 0xfffffffd]).1 = .ok ⟨1⟩ ∧
      Sample.sweeper.Obeys (Sample.sweepTx [0, 0xfffffffd]) 1 [] NON_ANCHOR_SEQS 700002 := by
  refine ⟨by decide +kernel, ((sweeps_obey_rules rfl).2.2 7
    (show Sample.signSecondJustice [0, 0xfffffffd] = (.ok ⟨1⟩, _) from rfl)).2.mpr ?_⟩
  exact ⟨⟨⟨0, 0⟩, [], 0xfffffffd, []⟩, rfl, by decide⟩

/-- The second input is signed with any sequence when the first has the delay of the channel. -/
theorem second_sequence_unchecked :
    (Sample.signSecond [144, 0xffffffff]).1 = .ok ⟨1⟩ := by
  decide +kernel

end ValidatingSigner
