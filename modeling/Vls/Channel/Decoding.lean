import Vls.Channel.Builder

/-!
# Decoding built commitments

The decoder reads each output the library writes on its own.  Read one after the other, in whatever
order they were sorted into, they add up to the two values the commitment was built from; an output
out of the decoder's range is refused.
-/

namespace ValidatingSigner

open Base DecodedCommitment List

namespace CommitmentOutput

/-- What the broadcaster is paid by an output. -/
def toBroadcasterValue : CommitmentOutput → Nat
  | .toBroadcaster value _ _ _ => value
  | _ => 0

/-- What the countersigner is paid by an output. -/
def toCountersignatoryValue : CommitmentOutput → Nat
  | .toCountersignatory value _ => value
  | _ => 0

/-- Whether an output is the broadcaster's. -/
def isToBroadcaster : CommitmentOutput → Bool
  | .toBroadcaster .. => true
  | _ => false

/-- Whether an output is the countersigner's. -/
def isToCountersignatory : CommitmentOutput → Bool
  | .toCountersignatory .. => true
  | _ => false

/-- Whether an output is an anchor. -/
def isAnchor : CommitmentOutput → Bool
  | .anchor _ => true
  | _ => false

/-- Whether the decoder can read an output: a delay is bounded, and the expiry of a received HTLC
fits a script number. -/
def Decodable : CommitmentOutput → Prop
  | .toBroadcaster _ _ contestDelay _ => contestDelay ≤ 2016
  | .htlc h => h.offered = true ∨ h.cltvExpiry < 2 ^ 31
  | _ => True

end CommitmentOutput

open CommitmentOutput

/-- What has been read once the outputs `outs` have. -/
structure DecodedCommitment.Reads (isCounterparty : Bool) (outs : List CommitmentOutput)
    (d : DecodedCommitment) : Prop where
  side : d.isCounterpartyBroadcaster = isCounterparty
  broadcasterValue : d.toBroadcasterValueSat = (outs.map toBroadcasterValue).sum
  countersignerValue : d.toCountersignerValueSat = (outs.map toCountersignatoryValue).sum
  broadcaster : d.hasToBroadcaster = true → 0 < outs.countP isToBroadcaster
  countersigner : d.hasToCountersigner = true → 0 < outs.countP isToCountersignatory
  anchors : d.toBroadcasterAnchorCount + d.toCountersignerAnchorCount ≤ outs.countP isAnchor

/-- The commitment is one of the channel with these keys and this setup, broadcast by the
counterparty or by the holder. -/
structure CommitmentTransaction.OfChannel (keys : InMemorySigner) (setup : ChannelSetup)
    (isCounterparty : Bool) (tx : CommitmentTransaction) : Prop where
  anchors : tx.isAnchors = setup.isAnchors
  fundingKeys : (tx.broadcasterFundingKey, tx.countersignatoryFundingKey) =
    if isCounterparty then (keys.counterpartyPubkeys.fundingPubkey, keys.pubkeys.fundingPubkey)
    else (keys.pubkeys.fundingPubkey, keys.counterpartyPubkeys.fundingPubkey)

/-- Of an output that can come once nothing has been read when it comes up. -/
theorem CommitmentOutput.unread {p : CommitmentOutput → Bool} (paid : CommitmentOutput → Nat)
    {out : CommitmentOutput} {outs : List CommitmentOutput} {read : Bool} {value : Nat}
    (hpaid : ∀ out, p out = false → paid out = 0) (hread : read = true → 0 < outs.countP p)
    (hvalue : value = (outs.map paid).sum) (hout : p out = true)
    (hcount : (out :: outs).countP p ≤ 1) : read = false ∧ value = 0 := by
  rw [countP_cons, if_pos hout] at hcount
  have hnone : outs.countP p = 0 := by omega
  rw [hnone] at hread
  refine ⟨Bool.eq_false_of_not_eq_true fun h => absurd (hread h) (Nat.lt_irrefl 0), ?_⟩
  rw [hvalue]
  refine sum_eq_zero fun value hvalue => ?_
  obtain ⟨out, hmem, rfl⟩ := mem_map.mp hvalue
  exact hpaid out (Bool.eq_false_of_not_eq_true (countP_eq_zero.mp hnone out hmem))

namespace CommitmentTransaction

/-- The outputs a commitment can have. -/
theorem mem_outputs {tx : CommitmentTransaction} {out : CommitmentOutput} (h : out ∈ tx.outputs) :
    out = .toCountersignatory tx.toCountersignatoryValueSat tx.countersignatoryPaymentPoint ∨
      (out = .toBroadcaster tx.toBroadcasterValueSat tx.keys.revocationKey tx.contestDelay
        tx.keys.broadcasterDelayedPaymentKey) ∨
      (∃ key, out = .anchor key ∧ tx.isAnchors = true ∧
        (key = tx.broadcasterFundingKey ∨ key = tx.countersignatoryFundingKey)) ∨
      ∃ htlc ∈ tx.htlcs, out = .htlc htlc := by
  simp only [outputs, mem_append, mem_ite_nil_right, mem_singleton,
    mem_map] at h
  rcases h with (((⟨-, rfl⟩ | ⟨-, rfl⟩) | ⟨h, rfl⟩) | ⟨h, rfl⟩) | ⟨htlc, hmem, rfl⟩
  · exact .inl rfl
  · exact .inr (.inl rfl)
  · exact .inr (.inr (.inl ⟨_, rfl, h.1, .inl rfl⟩))
  · exact .inr (.inr (.inl ⟨_, rfl, h.1, .inr rfl⟩))
  · exact .inr (.inr (.inr ⟨htlc, hmem, rfl⟩))

end CommitmentTransaction

/-! ## One output -/

namespace DecodedCommitment

variable {key : PublicKey}

section Outputs

variable {W : ScriptWriter} {S : ScriptLibrary} {lib : Library} (L : W.Lawful S lib) {o : Overflow}
  {keys : InMemorySigner} {setup : ChannelSetup} (d : DecodedCommitment)

include L

variable {h : HTLCOutputInCommitment} {out : TxOut} {revocationKey delayedKey : PublicKey}

/-- An output that pays a witness script hash is read by its script. -/
theorem handleOutput_txOut {out : CommitmentOutput} {isAnchors : Bool} (txkeys : TxCreationKeys)
    (hout : isAnchors = true ∨ out.isToCountersignatory = false) :
    d.handleOutput o S keys setup (out.txOut lib W S isAnchors txkeys)
        (out.witscript lib W isAnchors txkeys) =
      d.handleWitscript o S keys setup (out.txOut lib W S isAnchors txkeys)
        (out.witscript lib W isAnchors txkeys) := by
  have hne : out.witscript lib W isAnchors txkeys ≠ [] := by
    intro hnil
    have hinstructions := congrArg S.instructions hnil
    rw [L.instructions_nil] at hinstructions
    cases out with
    | toCountersignatory value key =>
      obtain rfl := hout.resolve_right Bool.noConfusion
      exact absurd ((L.toCountersignatory key).symm.trans hinstructions) (cons_ne_nil _ _)
    | toBroadcaster value revocationKey delay delayedKey =>
      exact absurd ((L.revokeable _ _ _).symm.trans hinstructions) (cons_ne_nil _ _)
    | anchor key => exact absurd ((L.anchor key).symm.trans hinstructions) (cons_ne_nil _ _)
    | htlc h =>
      have hhtlc := (L.htlc h isAnchors txkeys).symm.trans hinstructions
      split_ifs at hhtlc <;> exact absurd hhtlc (cons_ne_nil _ _)
  have hscript : out.scriptPubkey lib W S isAnchors txkeys =
      S.toV0P2wsh (out.witscript lib W isAnchors txkeys) := by
    rcases hout with rfl | hout
    · cases out <;> rfl
    · cases out <;> first | rfl | cases hout
  rw [txOut, hscript, handleOutput, if_neg (by simp [L.p2wsh_not_p2wpkh]), if_pos (L.p2wsh _),
    handleP2wshOutput, refuseIf_of_not hne, ok_bind, refuseIf_of_not (not_not.mpr rfl),
    ok_bind]

theorem pubkey_ok (text : String) (hkey : W.isPoint key) :
    S.pubkey text (W.serialize key) = .ok key := by
  rw [ScriptLibrary.pubkey, L.pubkey key hkey]

theorem handleWitscript_revokeable {delay : Nat} (hrevocation : W.isPoint revocationKey)
    (hdelayed : W.isPoint delayedKey) (hdelay : delay ≤ 2016)
    (hfirst : d.hasToBroadcaster = false) :
    d.handleWitscript o S keys setup out
        (W.getRevokeableRedeemscript revocationKey delay delayedKey) =
      .ok { d with
        toSelfDelay := delay
        toBroadcasterValueSat := out.value
        toBroadcasterDelayedPubkey := some delayedKey
        revocationPubkey := some revocationKey } := by
  have hbound : ¬ (delay : Int) > MAX_DELAY := by
    unfold MAX_DELAY
    omega
  rw [handleWitscript, L.parse_revokeable, if_pos (by omega)]
  simp only [handleToBroadcasterOutput, hfirst]
  rw [refuseIf_of_not Bool.false_ne_true, ok_bind, refuseIf_of_not (by omega), ok_bind,
    refuseIf_of_not hbound, ok_bind, pubkey_ok L _ hdelayed, ok_bind, pubkey_ok L _ hrevocation,
    ok_bind]
  rfl

theorem handleWitscript_revokeable_refused {delay : Nat} (hdelay : ¬ delay ≤ 2016)
    (d' : DecodedCommitment) :
    d.handleWitscript o S keys setup out
      (W.getRevokeableRedeemscript revocationKey delay delayedKey) ≠ .ok d' := by
  have hbound : (delay : Int) > MAX_DELAY := by
    unfold MAX_DELAY
    omega
  intro h
  rw [handleWitscript] at h
  by_cases hfits : delay < 2 ^ 31
  · rw [L.parse_revokeable, if_pos hfits] at h
    obtain ⟨_, -, h⟩ := bind_ok h
    obtain ⟨_, -, h⟩ := bind_ok h
    obtain ⟨_, hrefused, -⟩ := bind_ok h
    exact refuseIf_eq_ok.mp hrefused hbound
  · obtain ⟨h₁, h₂, h₃, h₄⟩ :=
      L.parse_revokeable_others setup.isAnchors revocationKey delay delayedKey
    rw [L.parse_revokeable, if_neg hfits, h₁, h₂, h₃, h₄, ite_self] at h
    exact (nomatch h)

theorem handleWitscript_anchor (hkey : W.isPoint key) (hvalue : out.value = ANCHOR_SAT)
    (hmine : key = keys.pubkeys.fundingPubkey ∨ key = keys.counterpartyPubkeys.fundingPubkey)
    (hcount : d.toBroadcasterAnchorCount + d.toCountersignerAnchorCount < 2) :
    d.handleWitscript o S keys setup out (W.getAnchorRedeemscript key) =
        .ok { d with toBroadcasterAnchorCount := d.toBroadcasterAnchorCount + 1 } ∨
      d.handleWitscript o S keys setup out (W.getAnchorRedeemscript key) =
        .ok { d with toCountersignerAnchorCount := d.toCountersignerAnchorCount + 1 } := by
  obtain ⟨h₁, h₂, h₃, h₄⟩ := L.parse_anchor setup.isAnchors key
  simp only [handleWitscript, h₁, h₂, h₃, h₄]
  rw [handleAnchorOutput, pubkey_ok L _ hkey, ok_bind]
  simp only
  rw [refuseIf_of_not (not_not.mpr hvalue), ok_bind, Overflow.uint_of_lt o (by omega), ok_bind,
    Overflow.uint_of_lt o (by omega), ok_bind]
  have hpair : key = (if d.isCounterpartyBroadcaster then
        (keys.counterpartyPubkeys.fundingPubkey, keys.pubkeys.fundingPubkey)
      else (keys.pubkeys.fundingPubkey, keys.counterpartyPubkeys.fundingPubkey)).1 ∨
      key = (if d.isCounterpartyBroadcaster then
        (keys.counterpartyPubkeys.fundingPubkey, keys.pubkeys.fundingPubkey)
      else (keys.pubkeys.fundingPubkey, keys.counterpartyPubkeys.fundingPubkey)).2 := by
    cases d.isCounterpartyBroadcaster
    · exact hmine
    · exact hmine.symm
  split_ifs with hside hfirst hsecond hfirst hsecond
  all_goals simp_all

theorem handleWitscript_toCountersignatory (hkey : W.isPoint key)
    (hanchors : setup.isAnchors = true) (hfirst : d.hasToCountersigner = false) :
    d.handleWitscript o S keys setup out (W.getToCountersignatoryWithAnchorsRedeemscript key) =
      .ok { d with toCountersignerPubkey := some key, toCountersignerValueSat := out.value } := by
  obtain ⟨h₁, h₂, h₃, h₄, h₅⟩ := L.parse_toCountersignatory true key
  simp only [handleWitscript, h₁, h₂, h₃, h₄, h₅, hanchors, if_true]
  rw [handleToCountersignerDelayedOutput, hfirst, refuseIf_of_not Bool.false_ne_true, ok_bind,
    pubkey_ok L _ hkey, ok_bind]
  rfl

theorem handleOutput_p2wpkh (value : Nat) (key : PublicKey) (script : Script)
    (hanchors : setup.isAnchors = false) (hfirst : d.hasToCountersigner = false) :
    d.handleOutput o S keys setup ⟨value, W.p2wpkh key⟩ script =
      .ok { d with
        toCountersignerAddress := S.payloadFromScript (W.p2wpkh key)
        toCountersignerValueSat := value } := by
  rw [handleOutput, if_pos (L.p2wpkh key), hanchors, hfirst, refuseIf_of_not Bool.false_ne_true,
    ok_bind, refuseIf_of_not Bool.false_ne_true, ok_bind]
  rfl

theorem handleWitscript_offeredHtlc (hoffered : h.offered = true) (txkeys : TxCreationKeys) :
    d.handleWitscript o S keys setup out (lib.getHtlcRedeemscript h setup.isAnchors txkeys) =
      .ok { d with offeredHtlcs := d.offeredHtlcs ++
        [⟨out.value, W.ripemd160 h.paymentHash, 0⟩] } := by
  obtain ⟨h₁, h₂, h₃⟩ := L.parse_offeredHtlc hoffered setup.isAnchors txkeys
  simp only [handleWitscript, h₁, h₂, h₃]
  rw [handleOfferedHtlcOutput, refuseIf_of_not (not_not.mpr (L.ripemd160_length _)), ok_bind]
  rfl

theorem handleWitscript_receivedHtlc (hreceived : h.offered = false) (hcltv : h.cltvExpiry < 2 ^ 31)
    (txkeys : TxCreationKeys) :
    d.handleWitscript o S keys setup out (lib.getHtlcRedeemscript h setup.isAnchors txkeys) =
      .ok { d with receivedHtlcs := d.receivedHtlcs ++
        [⟨out.value, W.ripemd160 h.paymentHash, h.cltvExpiry % 2 ^ 32⟩] } := by
  have h₁ := (L.parse_receivedHtlc_others hreceived setup.isAnchors txkeys).1
  have h₂ := L.parse_receivedHtlc hreceived setup.isAnchors txkeys
  simp only [handleWitscript, h₁, h₂, if_pos hcltv]
  rw [handleReceivedHtlcOutput, refuseIf_of_not (not_not.mpr (L.ripemd160_length _)), ok_bind,
    refuseIf_of_not (by omega), ok_bind]
  rfl

end Outputs

/-! ## All outputs -/

namespace Reads

variable {isCounterparty : Bool} {outs : List CommitmentOutput} {out : CommitmentOutput}
  {d d' : DecodedCommitment}

/-- What has been read after one more output. -/
theorem cons (h : d.Reads isCounterparty outs)
    (hside : d'.isCounterpartyBroadcaster = d.isCounterpartyBroadcaster)
    (hbroadcasterValue :
      d'.toBroadcasterValueSat = out.toBroadcasterValue + d.toBroadcasterValueSat)
    (hcountersignerValue :
      d'.toCountersignerValueSat = out.toCountersignatoryValue + d.toCountersignerValueSat)
    (hbroadcaster : d'.hasToBroadcaster = true →
      d.hasToBroadcaster = true ∨ out.isToBroadcaster = true)
    (hcountersigner : d'.hasToCountersigner = true →
      d.hasToCountersigner = true ∨ out.isToCountersignatory = true)
    (hanchors : d'.toBroadcasterAnchorCount + d'.toCountersignerAnchorCount ≤
      d.toBroadcasterAnchorCount + d.toCountersignerAnchorCount +
        if out.isAnchor = true then 1 else 0) :
    d'.Reads isCounterparty (out :: outs) where
  side := hside.trans h.side
  broadcasterValue := by
    rw [hbroadcasterValue, h.broadcasterValue, map_cons, sum_cons]
  countersignerValue := by
    rw [hcountersignerValue, h.countersignerValue, map_cons, sum_cons]
  broadcaster := by
    intro hread
    rw [countP_cons]
    rcases hbroadcaster hread with hread | hout
    · exact Nat.lt_of_lt_of_le (h.broadcaster hread) (Nat.le_add_right _ _)
    · rw [if_pos hout]
      exact Nat.succ_pos _
  countersigner := by
    intro hread
    rw [countP_cons]
    rcases hcountersigner hread with hread | hout
    · exact Nat.lt_of_lt_of_le (h.countersigner hread) (Nat.le_add_right _ _)
    · rw [if_pos hout]
      exact Nat.succ_pos _
  anchors := by
    rw [countP_cons]
    exact hanchors.trans (Nat.add_le_add_right h.anchors _)

end Reads

section Commitment

variable {W : ScriptWriter} {S : ScriptLibrary} {lib : Library} (L : W.Lawful S lib) {o : Overflow}
  {keys : InMemorySigner} {setup : ChannelSetup} {isCounterparty : Bool}
  {tx : CommitmentTransaction} (htx : tx.OfChannel keys setup isCounterparty)
  {d : DecodedCommitment} {outs : List CommitmentOutput} {order : List CommitmentOutput}

include L htx

theorem Reads.toCountersignatory (h : d.Reads isCounterparty outs) {value : Nat}
    (hkey : W.isPoint key)
    (hcount : (.toCountersignatory value key :: outs).countP isToCountersignatory ≤ 1) :
    ∃ d', d.handleOutput o S keys setup
        (txOut lib W S tx.isAnchors tx.keys (.toCountersignatory value key))
        (witscript lib W tx.isAnchors tx.keys (.toCountersignatory value key)) = .ok d' ∧
      d'.Reads isCounterparty (.toCountersignatory value key :: outs) := by
  obtain ⟨hfirst, hzero⟩ := unread toCountersignatoryValue
    (fun out hout => by cases out <;> trivial) h.countersigner h.countersignerValue rfl hcount
  have hvalue : value = toCountersignatoryValue (.toCountersignatory value key) +
      d.toCountersignerValueSat := by
    rw [hzero]
    rfl
  cases hanchors : tx.isAnchors with
  | false =>
    exact ⟨_, handleOutput_p2wpkh L d value key _ (htx.anchors ▸ hanchors) hfirst,
      h.cons rfl (Nat.zero_add _).symm hvalue .inl (fun _ => .inr rfl) (Nat.le_refl _)⟩
  | true =>
    exact ⟨_, (handleOutput_txOut L d tx.keys (.inl rfl)).trans
        (handleWitscript_toCountersignatory L d hkey (htx.anchors ▸ hanchors) hfirst),
      h.cons rfl (Nat.zero_add _).symm hvalue .inl (fun _ => .inr rfl) (Nat.le_refl _)⟩

theorem Reads.htlc (h : d.Reads isCounterparty outs) {htlc : HTLCOutputInCommitment}
    (hdecodable : htlc.offered = true ∨ htlc.cltvExpiry < 2 ^ 31) :
    ∃ d', d.handleOutput o S keys setup (txOut lib W S tx.isAnchors tx.keys (.htlc htlc))
        (witscript lib W tx.isAnchors tx.keys (.htlc htlc)) = .ok d' ∧
      d'.Reads isCounterparty (.htlc htlc :: outs) := by
  rw [handleOutput_txOut L d tx.keys (.inr rfl), htx.anchors]
  cases hoffered : htlc.offered with
  | true =>
    exact ⟨_, handleWitscript_offeredHtlc L d hoffered tx.keys,
      h.cons rfl (Nat.zero_add _).symm (Nat.zero_add _).symm .inl .inl (Nat.le_refl _)⟩
  | false =>
    have hcltv := hdecodable.resolve_left (by rw [hoffered]; exact Bool.false_ne_true)
    exact ⟨_, handleWitscript_receivedHtlc L d hoffered hcltv tx.keys,
      h.cons rfl (Nat.zero_add _).symm (Nat.zero_add _).symm .inl .inl (Nat.le_refl _)⟩

omit htx in
theorem Reads.toBroadcaster (h : d.Reads isCounterparty outs) {value delay : Nat}
    {revocationKey delayedKey : PublicKey} (hrevocation : W.isPoint revocationKey)
    (hdelayed : W.isPoint delayedKey) (hdelay : delay ≤ 2016)
    (hcount : (.toBroadcaster value revocationKey delay delayedKey :: outs).countP
      isToBroadcaster ≤ 1) :
    ∃ d', d.handleOutput o S keys setup (txOut lib W S tx.isAnchors tx.keys
          (.toBroadcaster value revocationKey delay delayedKey))
        (witscript lib W tx.isAnchors tx.keys
          (.toBroadcaster value revocationKey delay delayedKey)) = .ok d' ∧
      d'.Reads isCounterparty (.toBroadcaster value revocationKey delay delayedKey :: outs) := by
  obtain ⟨hfirst, hzero⟩ := unread toBroadcasterValue
    (fun out hout => by cases out <;> trivial) h.broadcaster h.broadcasterValue rfl hcount
  have hvalue : value = toBroadcasterValue (.toBroadcaster value revocationKey delay delayedKey) +
      d.toBroadcasterValueSat := by
    rw [hzero]
    rfl
  exact ⟨_, (handleOutput_txOut L d tx.keys (.inr rfl)).trans
      (handleWitscript_revokeable L d hrevocation hdelayed hdelay hfirst),
    h.cons rfl hvalue (Nat.zero_add _).symm (fun _ => .inr rfl) .inl (Nat.le_refl _)⟩

theorem Reads.anchor (h : d.Reads isCounterparty outs) (hkey : W.isPoint key)
    (hmine : key = tx.broadcasterFundingKey ∨ key = tx.countersignatoryFundingKey)
    (hcount : (.anchor key :: outs).countP isAnchor ≤ 2) :
    ∃ d', d.handleOutput o S keys setup (txOut lib W S tx.isAnchors tx.keys (.anchor key))
        (witscript lib W tx.isAnchors tx.keys (.anchor key)) = .ok d' ∧
      d'.Reads isCounterparty (.anchor key :: outs) := by
  have hfunding : key = keys.pubkeys.fundingPubkey ∨
      key = keys.counterpartyPubkeys.fundingPubkey := by
    have hkeys := Prod.ext_iff.mp htx.fundingKeys
    cases isCounterparty with
    | false => exact hmine.imp (·.trans hkeys.1) (·.trans hkeys.2)
    | true => exact (hmine.imp (·.trans hkeys.1) (·.trans hkeys.2)).symm
  have hanchor : (CommitmentOutput.anchor key).isAnchor = true := rfl
  rw [countP_cons, if_pos hanchor] at hcount
  have hanchors := h.anchors
  rw [handleOutput_txOut L d tx.keys (.inr rfl)]
  have hcounted : d.handleWitscript o S keys setup
      (txOut lib W S tx.isAnchors tx.keys (.anchor key)) _ = _ ∨ _ :=
    handleWitscript_anchor L d hkey rfl hfunding (by omega)
  rcases hcounted with hcounted | hcounted
  · refine ⟨_, hcounted, h.cons rfl (Nat.zero_add _).symm (Nat.zero_add _).symm .inl .inl ?_⟩
    rw [if_pos hanchor]
    exact Nat.le_of_eq (Nat.add_right_comm _ _ _)
  · refine ⟨_, hcounted, h.cons rfl (Nat.zero_add _).symm (Nat.zero_add _).symm .inl .inl ?_⟩
    rw [if_pos hanchor]
    exact Nat.le_of_eq (Nat.add_assoc _ _ _).symm

/-- Every output in the decoder's range is read. -/
theorem Reads.step (hpoints : tx.PaysPoints W) {out : CommitmentOutput}
    (h : d.Reads isCounterparty outs) (hmem : out ∈ tx.outputs) (hdecodable : out.Decodable)
    (hbroadcaster : (out :: outs).countP isToBroadcaster ≤ 1)
    (hcountersigner : (out :: outs).countP isToCountersignatory ≤ 1)
    (hanchors : (out :: outs).countP isAnchor ≤ 2) :
    ∃ d', d.handleOutput o S keys setup (out.txOut lib W S tx.isAnchors tx.keys)
        (out.witscript lib W tx.isAnchors tx.keys) = .ok d' ∧
      d'.Reads isCounterparty (out :: outs) := by
  rcases CommitmentTransaction.mem_outputs hmem with rfl | rfl | ⟨key, rfl, -, hkey⟩ |
    ⟨htlc, -, rfl⟩
  · exact h.toCountersignatory L htx hpoints.payment hcountersigner
  · exact h.toBroadcaster L hpoints.revocation hpoints.delayed hdecodable hbroadcaster
  · have hpoint : W.isPoint key := by
      rcases hkey with rfl | rfl
      · exact hpoints.broadcaster
      · exact hpoints.countersignatory
    exact h.anchor L htx hpoint hkey hanchors
  · exact h.htlc L htx hdecodable

/-- An output out of the decoder's range is refused. -/
theorem handleOutput_refused {out : CommitmentOutput} (hout : ¬ out.Decodable)
    (d' : DecodedCommitment) :
    d.handleOutput o S keys setup (out.txOut lib W S tx.isAnchors tx.keys)
      (out.witscript lib W tx.isAnchors tx.keys) ≠ .ok d' := by
  cases out with
  | toCountersignatory => exact absurd trivial hout
  | anchor => exact absurd trivial hout
  | toBroadcaster =>
    rw [handleOutput_txOut L d tx.keys (.inr rfl)]
    exact handleWitscript_revokeable_refused L d hout d'
  | htlc htlc =>
    obtain ⟨hreceived, hcltv⟩ := not_or.mp hout
    have hreceived := Bool.eq_false_of_not_eq_true hreceived
    obtain ⟨h₁, h₂, h₃, h₄⟩ := L.parse_receivedHtlc_others hreceived setup.isAnchors tx.keys
    rw [handleOutput_txOut L d tx.keys (.inr rfl), htx.anchors, handleWitscript, witscript, h₁,
      L.parse_receivedHtlc hreceived, if_neg hcltv, h₂, h₃, h₄, ite_self]
    exact (nomatch ·)

/-- Outputs in the decoder's range are all read, in whatever order they come. -/
theorem handleOutputs_ok (hpoints : tx.PaysPoints W) {ind : Nat} (h : d.Reads isCounterparty outs)
    (hmem : ∀ out ∈ order, out ∈ tx.outputs) (hdecodable : ∀ out ∈ order, out.Decodable)
    (hbroadcaster : (order ++ outs).countP isToBroadcaster ≤ 1)
    (hcountersigner : (order ++ outs).countP isToCountersignatory ≤ 1)
    (hanchors : (order ++ outs).countP isAnchor ≤ 2) :
    ∃ d', handleOutputs o S keys setup ind d
        (order.map (txOut lib W S tx.isAnchors tx.keys))
        (order.map (witscript lib W tx.isAnchors tx.keys)) = .ok d' ∧
      d'.Reads isCounterparty (order.reverse ++ outs) := by
  induction order generalizing d outs ind with
  | nil => exact ⟨d, rfl, h⟩
  | cons out order ih =>
    have hmove (p : CommitmentOutput → Bool) :
        (order ++ out :: outs).countP p = (out :: order ++ outs).countP p :=
      (perm_middle).countP_eq p
    have hle (p : CommitmentOutput → Bool) :
        (out :: outs).countP p ≤ (out :: order ++ outs).countP p := by
      rw [← hmove p, countP_append]
      exact Nat.le_add_left _ _
    obtain ⟨d₁, hout, h₁⟩ := h.step L htx hpoints (hmem out mem_cons_self)
      (hdecodable out mem_cons_self) ((hle _).trans hbroadcaster)
      ((hle _).trans hcountersigner) ((hle _).trans hanchors)
    obtain ⟨d', hrest, h'⟩ := ih h₁ (fun o ho => hmem o (mem_cons_of_mem _ ho))
      (fun o ho => hdecodable o (mem_cons_of_mem _ ho)) ((hmove _).trans_le hbroadcaster)
      ((hmove _).trans_le hcountersigner) ((hmove _).trans_le hanchors)
    refine ⟨d', bind_eq_ok.mpr ⟨d₁, withFunction_eq_ok.mpr hout, hrest⟩, ?_⟩
    rw [reverse_cons, append_assoc]
    exact h'

/-- An output out of the decoder's range fails the whole commitment. -/
theorem handleOutputs_refused {ind : Nat} (hout : ∃ out ∈ order, ¬ out.Decodable)
    (d' : DecodedCommitment) :
    handleOutputs o S keys setup ind d (order.map (txOut lib W S tx.isAnchors tx.keys))
      (order.map (witscript lib W tx.isAnchors tx.keys)) ≠ .ok d' := by
  induction order generalizing d ind with
  | nil => exact absurd hout (by simp)
  | cons first order ih =>
    intro h
    obtain ⟨d₁, hfirst, hrest⟩ := bind_ok h
    obtain ⟨out, hmem, hout⟩ := hout
    rcases mem_cons.mp hmem with rfl | hmem
    · exact handleOutput_refused L htx hout d₁ (withFunction_eq_ok.mp hfirst)
    · exact ih ⟨out, hmem, hout⟩ hrest

end Commitment

end DecodedCommitment

/-! ## Whole commitments -/

namespace CommitmentTransaction

/-- A commitment pays each side its value. -/
theorem outputs_values (tx : CommitmentTransaction) :
    (tx.outputs.map toBroadcasterValue).sum = tx.toBroadcasterValueSat ∧
      (tx.outputs.map toCountersignatoryValue).sum = tx.toCountersignatoryValueSat := by
  have hhtlcs : (tx.htlcs.map (toBroadcasterValue ∘ .htlc)).sum = 0 ∧
      (tx.htlcs.map (toCountersignatoryValue ∘ .htlc)).sum = 0 :=
    ⟨sum_eq_zero (by simp [toBroadcasterValue]),
      sum_eq_zero (by simp [toCountersignatoryValue])⟩
  simp only [outputs, map_append, sum_append, map_map, hhtlcs]
  split_ifs <;> simp [toBroadcasterValue, toCountersignatoryValue] <;> omega

/-- A commitment has at most one output for each side, and at most two anchors. -/
theorem outputs_counts (tx : CommitmentTransaction) : tx.outputs.countP isToBroadcaster ≤ 1 ∧
    tx.outputs.countP isToCountersignatory ≤ 1 ∧ tx.outputs.countP isAnchor ≤ 2 := by
  have hhtlcs (p : CommitmentOutput → Bool) (hp : ∀ htlc, p (.htlc htlc) = false) :
      (tx.htlcs.map CommitmentOutput.htlc).countP p = 0 :=
    countP_eq_zero.mpr (by simp [hp])
  simp only [outputs, countP_append, hhtlcs isToBroadcaster (fun _ => rfl),
    hhtlcs isToCountersignatory (fun _ => rfl), hhtlcs isAnchor (fun _ => rfl)]
  split_ifs <;> simp [isToBroadcaster, isToCountersignatory, isAnchor]

/-- The transaction `built` consists of the outputs of a commitment in some order, and `witscripts`
are their witness scripts. -/
def WrittenAs (lib : Library) (W : ScriptWriter) (S : ScriptLibrary) (tx : CommitmentTransaction)
    (built : Transaction) (witscripts : List Script) : Prop :=
  built.version = 2 ∧ ∃ order : List CommitmentOutput, order.Perm tx.outputs ∧
    built.output = order.map (txOut lib W S tx.isAnchors tx.keys) ∧
    witscripts = order.map (witscript lib W tx.isAnchors tx.keys)

variable {W : ScriptWriter} {S : ScriptLibrary} {lib : Library} {filter : PolicyFilter}
  {o : Overflow} {keys : InMemorySigner} {setup : ChannelSetup} {isCounterparty : Bool}
  {tx : CommitmentTransaction} {built : Transaction} {witscripts : List Script}

/-- The decoder reads a built commitment back exactly when every output is in its range. -/
theorem decode_built_iff (L : W.Lawful S lib) (htx : tx.OfChannel keys setup isCounterparty)
    (hpoints : tx.PaysPoints W) (hwritten : tx.WrittenAs lib W S built witscripts)
    {info : CommitmentInfo} :
    decodeCommitmentTx filter o S keys setup isCounterparty built witscripts = .ok info ↔
      (∀ out ∈ tx.outputs, out.Decodable) ∧
        info = ⟨tx.toCountersignatoryValueSat, tx.toBroadcasterValueSat⟩ := by
  obtain ⟨hversion, order, hperm, houtput, rfl⟩ := hwritten
  have hnew : (new isCounterparty).Reads isCounterparty [] :=
    ⟨rfl, rfl, rfl, (nomatch ·), (nomatch ·), Nat.le_refl _⟩
  obtain ⟨hbroadcaster, hcountersigner, hanchors⟩ := tx.outputs_counts
  have hcount (p : CommitmentOutput → Bool) : (order ++ []).countP p = tx.outputs.countP p := by
    rw [append_nil]
    exact hperm.countP_eq p
  rw [decodeCommitmentTx, PolicyFilter.policyErr_of_not (not_not.mpr hversion), ok_bind, houtput]
  by_cases hall : ∀ out ∈ tx.outputs, out.Decodable
  · obtain ⟨d, hd, hreads⟩ : ∃ d, handleOutputs o S keys setup 0 _ _ _ = .ok d ∧
        d.Reads isCounterparty _ :=
      handleOutputs_ok L htx hpoints hnew (fun out hout => hperm.subset hout)
        (fun out hout => hall out (hperm.subset hout)) ((hcount _).trans_le hbroadcaster)
        ((hcount _).trans_le hcountersigner) ((hcount _).trans_le hanchors)
    have hvalues : d.toCommitmentInfo =
        ⟨tx.toCountersignatoryValueSat, tx.toBroadcasterValueSat⟩ := by
      have hreverse : (order.reverse ++ []).Perm tx.outputs := by
        rw [append_nil]
        exact order.reverse_perm.trans hperm
      rw [← tx.outputs_values.1, ← tx.outputs_values.2,
        ← (hreverse.map _).sum_eq, ← (hreverse.map _).sum_eq, ← hreads.broadcasterValue,
        ← hreads.countersignerValue]
    rw [hd, ok_bind, pure_eq_ok, hvalues]
    exact ⟨fun h => ⟨hall, h.symm⟩, fun h => h.2.symm⟩
  · push Not at hall
    obtain ⟨out, hmem, hout⟩ := hall
    constructor
    · intro h
      obtain ⟨d, hd, -⟩ := bind_ok h
      exact absurd hd (handleOutputs_refused L htx
        ⟨out, hperm.mem_iff.mpr hmem, hout⟩ d)
    · exact fun h => absurd (h.1 out hmem) hout

end CommitmentTransaction

end ValidatingSigner
