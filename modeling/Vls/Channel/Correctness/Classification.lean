import Vls.Channel.Scripts

/-!
# Commitment outputs are classified

Every output of a decoded commitment is recorded in one role, by the only parser that accepts its
witness script.  A second output of a side is refused and HTLCs are listed one by one, but anchors
are only counted: the recorded values add up to the outputs iff no two anchors pay the same key.
-/

namespace ValidatingSigner

open Base Template

/-! ## Parsers -/

/-- The parsers of witness scripts. -/
inductive WitscriptParser where
  | toBroadcaster
  | receivedHtlc
  | offeredHtlc
  | anchor
  | toCountersignerDelayed

namespace WitscriptParser

/-- A parser accepts a script. -/
def Accepts (S : ScriptLibrary) (isAnchors : Bool) (script : Script) : WitscriptParser → Prop
  | .toBroadcaster => ∃ vals, S.parse (parseToBroadcasterScript S) script = some vals
  | .receivedHtlc => ∃ vals, S.parse (parseReceivedHtlcScript S isAnchors) script = some vals
  | .offeredHtlc => ∃ vals, S.parse (parseOfferedHtlcScript S isAnchors) script = some vals
  | .anchor => ∃ vals, S.parse parseAnchorScript script = some vals
  | .toCountersignerDelayed => ∃ vals, S.parse parseToCountersignerDelayedScript script = some vals

/-- The parser that the first instructions of a script leave. -/
def ofInstructions (S : ScriptLibrary) : List (Except String Instruction) → WitscriptParser
  | .ok (.op .ifOp) :: _ => .toBroadcaster
  | .ok (.pushBytes _) :: .ok (.op .checkSig) :: _ => .anchor
  | .ok (.pushBytes _) :: _ => .toCountersignerDelayed
  | s => match (htlcHead S).run s with
    | some (_, .ok (.op .ifOp) :: _) => .receivedHtlc
    | _ => .offeredHtlc

section Running

variable {α β : Type} {x : Template α} {f : α → Template β} {S : ScriptLibrary} {script : Script}
  {s t : List (Except String Instruction)} {r : β × List (Except String Instruction)}

theorem run_bind_eq_some (h : (x >>= f).run s = some r) :
    ∃ a t, x.run s = some (a, t) ∧ (f a).run t = some r := by
  cases hx : x.run s with
  | none => exact nomatch (run_bind_none hx).symm.trans h
  | some p => exact ⟨p.1, p.2, rfl, (run_bind_some hx).symm.trans h⟩

theorem run_expectOp {code : Opcode} {u : Unit} (h : (expectOp code).run s = some (u, t)) :
    s = .ok (.op code) :: t := by
  obtain ⟨ins, rest, hnext, hrun⟩ := run_bind_eq_some h
  rcases s with _ | ⟨_ | _, _⟩ <;> cases hnext
  by_cases hins : ins = .op code
  · rw [if_pos hins] at hrun
    cases hrun
    rw [hins]
  · rw [if_neg hins] at hrun
    cases hrun

/-- A template that begins with an opcode reads it first. -/
theorem run_expectOps {code : Opcode} {codes : List Opcode} {f : Unit → Template β}
    (h : (expectOps (code :: codes) >>= f).run s = some r) :
    ∃ rest, s = .ok (.op code) :: rest := by
  obtain ⟨_, _, hops, -⟩ := run_bind_eq_some h
  obtain ⟨_, rest, hop, -⟩ := run_bind_eq_some hops
  exact ⟨rest, run_expectOp hop⟩

/-- A template that begins with data reads it first. -/
theorem run_expectData {f : List UInt8 → Template β} (h : (expectData >>= f).run s = some r) :
    ∃ data rest, s = .ok (.pushBytes data) :: rest ∧ (f data).run rest = some r := by
  obtain ⟨data, rest, hdata, h⟩ := run_bind_eq_some h
  obtain ⟨ins, _, hnext, hdata⟩ := run_bind_eq_some hdata
  rcases s with _ | ⟨_ | _, _⟩ <;> cases hnext
  cases ins <;> cases hdata
  exact ⟨data, rest, rfl, h⟩

/-- An HTLC template goes on after the part both have in common. -/
theorem run_htlcHead {f : List UInt8 × List UInt8 → Template β}
    (h : (htlcHead S >>= f).run s = some r) :
    (∃ rest, s = .ok (.op .dup) :: rest) ∧
      ∃ vals t, (htlcHead S).run s = some (vals, t) ∧ (f vals).run t = some r := by
  obtain ⟨vals, t, hhead, h⟩ := run_bind_eq_some h
  exact ⟨run_expectOps hhead, vals, t, hhead, h⟩

theorem run_of_parse {x : Template α} {a : α} (h : S.parse x script = some a) :
    ∃ t, x.run (S.instructions script) = some (a, t) := by
  obtain ⟨p, hp, rfl⟩ := Option.map_eq_some_iff.mp h
  exact ⟨p.2, hp⟩

end Running

/-- A script is accepted only by the parser its first instructions leave. -/
theorem Accepts.eq_ofInstructions {S : ScriptLibrary} {isAnchors : Bool} {script : Script}
    {p : WitscriptParser} (h : p.Accepts S isAnchors script) :
    p = ofInstructions S (S.instructions script) := by
  cases p with
  | toBroadcaster =>
    obtain ⟨_, hrun⟩ := run_of_parse h.choose_spec
    obtain ⟨_, rest, hop, -⟩ := run_bind_eq_some hrun
    rw [run_expectOp hop, ofInstructions]
  | receivedHtlc | offeredHtlc =>
    obtain ⟨_, hrun⟩ := run_of_parse h.choose_spec
    obtain ⟨⟨_, hs⟩, vals, t, hhead, hrun⟩ := run_htlcHead hrun
    obtain ⟨rest, rfl⟩ := run_expectOps hrun
    rw [hs] at hhead ⊢
    simp only [ofInstructions, hhead]
  | anchor =>
    obtain ⟨_, hrun⟩ := run_of_parse h.choose_spec
    obtain ⟨data, rest, hs, hrun⟩ := run_expectData hrun
    obtain ⟨rest, rfl⟩ := run_expectOps hrun
    rw [hs, ofInstructions]
  | toCountersignerDelayed =>
    obtain ⟨_, hrun⟩ := run_of_parse h.choose_spec
    obtain ⟨data, rest, hs, hrun⟩ := run_expectData hrun
    obtain ⟨rest, rfl⟩ := run_expectOps hrun
    rw [hs]
    rfl

theorem Accepts.unique {S : ScriptLibrary} {isAnchors : Bool} {script : Script}
    {p q : WitscriptParser} (hp : p.Accepts S isAnchors script)
    (hq : q.Accepts S isAnchors script) : p = q :=
  hp.eq_ofInstructions.trans hq.eq_ofInstructions.symm

end WitscriptParser

/-! ## Built scripts -/

section Built

variable (W : ScriptWriter) (h : HTLCOutputInCommitment) (keys : TxCreationKeys)

/-- What is read off the script of the broadcaster's output. -/
def ScriptWriter.toBroadcasterParams (revocationKey : PublicKey) (delay : Nat)
    (delayedKey : PublicKey) : List UInt8 × Int × List UInt8 :=
  (W.serialize revocationKey, delay, W.serialize delayedKey)

/-- What is read off the script of an offered HTLC. -/
def ScriptWriter.offeredParams : List UInt8 × List UInt8 × List UInt8 × List UInt8 :=
  (W.pubkeyHash keys.revocationKey, W.serialize keys.countersignatoryHtlcKey,
    W.serialize keys.broadcasterHtlcKey, W.ripemd160 h.paymentHash)

/-- What is read off the script of a received HTLC. -/
def ScriptWriter.receivedParams : List UInt8 × List UInt8 × List UInt8 × List UInt8 × Int :=
  (W.pubkeyHash keys.revocationKey, W.serialize keys.countersignatoryHtlcKey,
    W.ripemd160 h.paymentHash, W.serialize keys.broadcasterHtlcKey, h.cltvExpiry)

end Built

/-- The parsers read the parameters of a built script back, the expiry of a received HTLC exactly if
it fits a script number; so a script that is accepted with such parameters has those of the script
that is built from them. -/
theorem script_parsers_invert {W : ScriptWriter} {S : ScriptLibrary} {lib : Library}
    (L : W.Lawful S lib) (isAnchors : Bool) (h : HTLCOutputInCommitment) (keys : TxCreationKeys) :
    (∀ revocationKey delay delayedKey, delay ≤ 65535 → S.parse (parseToBroadcasterScript S)
        (W.getRevokeableRedeemscript revocationKey delay delayedKey) =
      some (W.toBroadcasterParams revocationKey delay delayedKey)) ∧
    (h.offered = true → S.parse (parseOfferedHtlcScript S isAnchors)
      (lib.getHtlcRedeemscript h isAnchors keys) = some (W.offeredParams h keys)) ∧
    (h.offered = false → (S.parse (parseReceivedHtlcScript S isAnchors)
        (lib.getHtlcRedeemscript h isAnchors keys) = some (W.receivedParams h keys) ↔
      h.cltvExpiry < 2 ^ 31)) := by
  refine ⟨fun revocationKey delay delayedKey hdelay => ?_, fun hoffered => ?_, fun hreceived => ?_⟩
  · rw [L.parse_revokeable, if_pos (by omega)]
    rfl
  · exact (L.parse_offeredHtlc hoffered isAnchors keys).2.2
  · rw [L.parse_receivedHtlc hreceived]
    split_ifs with hcltv
    · exact iff_of_true rfl hcltv
    · exact iff_of_false nofun hcltv

/-- The last expiry that is read back. -/
theorem script_parsers_invert_last :
    Sample.scripts.parse (parseReceivedHtlcScript Sample.scripts true)
        (Sample.scriptLibrary.getHtlcRedeemscript ⟨false, 0, 2 ^ 31 - 1, 0, none⟩ true
          ⟨⟨1⟩, ⟨2⟩, ⟨3⟩, ⟨4⟩, ⟨5⟩⟩) =
      some (Sample.writer.receivedParams ⟨false, 0, 2 ^ 31 - 1, 0, none⟩
        ⟨⟨1⟩, ⟨2⟩, ⟨3⟩, ⟨4⟩, ⟨5⟩⟩) :=
  ((script_parsers_invert Sample.writer_lawful true _ _).2.2 rfl).mpr (by decide)

/-! ## Roles -/

/-- The key that an output with its witness script pays as an anchor. -/
def ScriptLibrary.anchorPayee (S : ScriptLibrary) (out : TxOut × Script) : Option PublicKey :=
  if S.isV0P2wpkh out.1.scriptPubkey then none
  else (S.parse parseAnchorScript out.2).bind fun data => (S.publicKeyFromSlice data).toOption

/-- The keys that the anchors among the outputs pay. -/
def ScriptLibrary.anchorPayees (S : ScriptLibrary) (outs : List TxOut) (scripts : List Script) :
    List PublicKey :=
  (outs.zip scripts).filterMap S.anchorPayee

/-- The funding keys of the broadcaster and of the countersigner. -/
def InMemorySigner.fundingKeys (keys : InMemorySigner) (isCounterpartyBroadcaster : Bool) :
    PublicKey × PublicKey :=
  if isCounterpartyBroadcaster then
    (keys.counterpartyPubkeys.fundingPubkey, keys.pubkeys.fundingPubkey)
  else (keys.pubkeys.fundingPubkey, keys.counterpartyPubkeys.fundingPubkey)

/-- The roles of the outputs of a commitment. -/
inductive OutputRole where
  | toBroadcaster
  | toCountersigner
  | offeredHtlc (htlc : HTLCInfo)
  | receivedHtlc (htlc : HTLCInfo)
  | toBroadcasterAnchor
  | toCountersignerAnchor
  deriving DecidableEq

namespace OutputRole

/-- The HTLC of an output in the role of an offered one. -/
@[simp] def offered : OutputRole → Option HTLCInfo
  | .offeredHtlc htlc => some htlc
  | _ => none

/-- The HTLC of an output in the role of a received one. -/
@[simp] def received : OutputRole → Option HTLCInfo
  | .receivedHtlc htlc => some htlc
  | _ => none

/-- The key that an output in the role of an anchor pays: the broadcaster's funding key, or the
countersigner's. -/
@[simp] def payee (fundingKeys : PublicKey × PublicKey) : OutputRole → Option PublicKey
  | .toBroadcasterAnchor => some fundingKeys.1
  | .toCountersignerAnchor => some fundingKeys.2
  | _ => none

/-- What an output in a role shows: an HTLC its own value and the payment hash in its script, and an
anchor the fixed value and whose it is. -/
def Shown (S : ScriptLibrary) (isAnchors : Bool) (fundingKeys : PublicKey × PublicKey) (out : TxOut)
    (script : Script) : OutputRole → Prop
  | .toBroadcaster => WitscriptParser.toBroadcaster.Accepts S isAnchors script
  | .toCountersigner => S.isV0P2wpkh out.scriptPubkey = true ∨
      WitscriptParser.toCountersignerDelayed.Accepts S isAnchors script
  | .offeredHtlc htlc => htlc.valueSat = out.value ∧ ∃ a b c,
      S.parse (parseOfferedHtlcScript S isAnchors) script = some (a, b, c, htlc.paymentHashHash)
  | .receivedHtlc htlc => htlc.valueSat = out.value ∧ ∃ a b c cltv,
      S.parse (parseReceivedHtlcScript S isAnchors) script =
        some (a, b, htlc.paymentHashHash, c, cltv)
  | .toBroadcasterAnchor =>
    out.value = ANCHOR_SAT ∧ S.anchorPayee (out, script) = some fundingKeys.1
  | .toCountersignerAnchor => out.value = ANCHOR_SAT ∧
    S.anchorPayee (out, script) = some fundingKeys.2 ∧ fundingKeys.1 ≠ fundingKeys.2

variable {fundingKeys : PublicKey × PublicKey}

/-- An output pays the key of its role as an anchor, and none if it is not in the role of one. -/
theorem Shown.anchorPayee_eq {S : ScriptLibrary} {isAnchors : Bool} {out : TxOut} {script : Script}
    {role : OutputRole} (h : role.Shown S isAnchors fundingKeys out script) :
    S.anchorPayee (out, script) = role.payee fundingKeys := by
  have hother {p : WitscriptParser} (hp : p.Accepts S isAnchors script) (hne : p ≠ .anchor) :
      S.anchorPayee (out, script) = none := by
    have hnone : S.parse parseAnchorScript script = none :=
      Option.eq_none_iff_forall_ne_some.mpr fun data hdata =>
        hne (hp.unique (q := .anchor) ⟨data, hdata⟩)
    simp [ScriptLibrary.anchorPayee, hnone]
  cases role with
  | toBroadcaster => exact hother (p := .toBroadcaster) h nofun
  | toCountersigner =>
    rcases h with hwpkh | h
    · simp [ScriptLibrary.anchorPayee, hwpkh]
    · exact hother (p := .toCountersignerDelayed) h nofun
  | offeredHtlc htlc =>
    obtain ⟨-, a, b, c, h⟩ := h
    exact hother (p := .offeredHtlc) ⟨_, h⟩ nofun
  | receivedHtlc htlc =>
    obtain ⟨-, a, b, c, cltv, h⟩ := h
    exact hother (p := .receivedHtlc) ⟨_, h⟩ nofun
  | toBroadcasterAnchor => exact h.2
  | toCountersignerAnchor => exact h.2.1

/-- Different keys are paid iff each anchor role is there at most once, where the countersigner's is
told apart from the broadcaster's. -/
theorem nodup_payees_iff {roles : List OutputRole}
    (hne : .toCountersignerAnchor ∈ roles → fundingKeys.1 ≠ fundingKeys.2) :
    (roles.filterMap (·.payee fundingKeys)).Nodup ↔
      roles.count .toBroadcasterAnchor ≤ 1 ∧ roles.count .toCountersignerAnchor ≤ 1 := by
  induction roles with
  | nil => simp
  | cons role roles ih =>
    have hrest := ih fun hmem => hne (List.mem_cons_of_mem _ hmem)
    have hpaid {key : PublicKey} (hrole : role.payee fundingKeys = some key) :
        key ∈ roles.filterMap (·.payee fundingKeys) ↔ role ∈ roles := by
      rw [List.mem_filterMap]
      refine ⟨fun ⟨other, hmem, hother⟩ => ?_, fun hmem => ⟨role, hmem, hrole⟩⟩
      cases role <;> cases other <;> simp_all
    cases role with
    | toBroadcasterAnchor | toCountersignerAnchor =>
      rw [List.filterMap_cons_some (by rfl), List.nodup_cons, hpaid rfl, hrest,
        ← List.count_eq_zero, List.count_cons_self, List.count_cons_of_ne (by decide)]
      omega
    | _ => simpa using hrest

end OutputRole

/-- What is recorded of the outputs of a commitment. -/
structure OutputTally where
  hasToBroadcaster : Bool
  toBroadcasterValueSat : Nat
  hasToCountersigner : Bool
  toCountersignerValueSat : Nat
  offeredHtlcs : List HTLCInfo
  receivedHtlcs : List HTLCInfo
  toBroadcasterAnchorCount : Nat
  toCountersignerAnchorCount : Nat

/-- What a decoded commitment has recorded. -/
def DecodedCommitment.tally (d : DecodedCommitment) : OutputTally :=
  ⟨d.hasToBroadcaster, d.toBroadcasterValueSat, d.hasToCountersigner, d.toCountersignerValueSat,
    d.offeredHtlcs, d.receivedHtlcs, d.toBroadcasterAnchorCount, d.toCountersignerAnchorCount⟩

namespace OutputRole

/-- Record one more output, in a role. -/
def record (t : OutputTally) (value : Nat) : OutputRole → OutputTally
  | .toBroadcaster => { t with hasToBroadcaster := true, toBroadcasterValueSat := value }
  | .toCountersigner => { t with hasToCountersigner := true, toCountersignerValueSat := value }
  | .offeredHtlc htlc => { t with offeredHtlcs := t.offeredHtlcs ++ [htlc] }
  | .receivedHtlc htlc => { t with receivedHtlcs := t.receivedHtlcs ++ [htlc] }
  | .toBroadcasterAnchor =>
    { t with toBroadcasterAnchorCount := (t.toBroadcasterAnchorCount + 1) % 2 ^ 16 }
  | .toCountersignerAnchor =>
    { t with toCountersignerAnchorCount := (t.toCountersignerAnchorCount + 1) % 2 ^ 16 }

/-- The role of a side has not been taken. -/
def Free (t : OutputTally) : OutputRole → Prop
  | .toBroadcaster => t.hasToBroadcaster = false
  | .toCountersigner => t.hasToCountersigner = false
  | _ => True

end OutputRole

namespace DecodedCommitment

variable {S : ScriptLibrary} {o : Overflow} {keys : InMemorySigner} {setup : ChannelSetup}
  {d d' : DecodedCommitment} {out : TxOut} {script : Script}

/-- An output that is read is recorded in a free role it shows. -/
theorem handleOutput_ok (hpayload : ∀ script, S.isV0P2wpkh script = true →
      (S.payloadFromScript script).isSome = true)
    (h : d.handleOutput o S keys setup out script = .ok d') :
    ∃ role : OutputRole,
      role.Shown S setup.isAnchors (keys.fundingKeys d.isCounterpartyBroadcaster) out script ∧
      role.Free d.tally ∧ d'.tally = role.record d.tally out.value ∧
      d'.isCounterpartyBroadcaster = d.isCounterpartyBroadcaster := by
  unfold handleOutput at h
  split_ifs at h with hwpkh
  · obtain ⟨_, -, h⟩ := bind_ok h
    obtain ⟨_, hfree, h⟩ := bind_ok h
    cases h
    refine ⟨.toCountersigner, .inl hwpkh, Bool.eq_false_iff.mpr (refuseIf_eq_ok.mp hfree), ?_⟩
    simp only [tally, OutputRole.record, hasToCountersigner, hpayload _ hwpkh, Bool.true_or]
    exact ⟨rfl, trivial⟩
  obtain ⟨_, -, h⟩ := bind_ok h
  obtain ⟨_, -, h⟩ := bind_ok h
  unfold handleWitscript at h
  -- The parsers are tried in the order of the source.
  split at h
  · obtain ⟨_, hfree, h⟩ := bind_ok h
    iterate 4 obtain ⟨_, -, h⟩ := bind_ok h
    cases h
    exact ⟨.toBroadcaster, ⟨_, ‹_›⟩, Bool.eq_false_iff.mpr (refuseIf_eq_ok.mp hfree), rfl, rfl⟩
  split at h
  · obtain ⟨_, -, h⟩ := bind_ok h
    obtain ⟨_, -, h⟩ := bind_ok h
    cases h
    exact ⟨.receivedHtlc ⟨out.value, _, _⟩, ⟨rfl, _, _, _, _, ‹_›⟩, trivial, rfl, rfl⟩
  split at h
  · obtain ⟨_, -, h⟩ := bind_ok h
    cases h
    exact ⟨.offeredHtlc ⟨out.value, _, _⟩, ⟨rfl, _, _, _, ‹_›⟩, trivial, rfl, rfl⟩
  split at h
  · rename_i data hdata
    obtain ⟨key, hkey, h⟩ := bind_ok h
    obtain ⟨_, hvalue, h⟩ := bind_ok h
    have hvalue := not_not.mp (refuseIf_eq_ok.mp hvalue)
    have hpayee : S.anchorPayee (out, script) = some key := by
      unfold ScriptLibrary.pubkey at hkey
      split at hkey
      · cases hkey
        simp [ScriptLibrary.anchorPayee, Except.toOption, *]
      · cases hkey
    change (if key = (keys.fundingKeys d.isCounterpartyBroadcaster).1 then _ else
      if key = (keys.fundingKeys d.isCounterpartyBroadcaster).2 then _ else _) = _ at h
    split_ifs at h with hb hc
    · obtain ⟨count, hcount, h⟩ := bind_ok h
      cases h
      obtain rfl := Overflow.eq_mod_of_uint hcount
      exact ⟨.toBroadcasterAnchor, ⟨hvalue, hb ▸ hpayee⟩, trivial, rfl, rfl⟩
    · obtain ⟨count, hcount, h⟩ := bind_ok h
      cases h
      obtain rfl := Overflow.eq_mod_of_uint hcount
      exact ⟨.toCountersignerAnchor, ⟨hvalue, hc ▸ hpayee, hc ▸ Ne.symm hb⟩, trivial, rfl, rfl⟩
  split at h
  · rename_i hparse
    obtain ⟨_, hfree, h⟩ := bind_ok h
    obtain ⟨_, -, h⟩ := bind_ok h
    cases h
    split_ifs at hparse
    refine ⟨.toCountersigner, .inr ⟨_, hparse⟩,
      Bool.eq_false_iff.mpr (refuseIf_eq_ok.mp hfree), ?_⟩
    simp only [tally, OutputRole.record, hasToCountersigner, Option.isSome_some, Bool.or_true]
    exact ⟨rfl, trivial⟩
  · cases h

end DecodedCommitment

/-! ## All outputs -/

/-- Outputs with their witness scripts are recorded one after the other, each in a free role it
shows. -/
inductive OutputsRecorded (S : ScriptLibrary) (isAnchors : Bool)
    (fundingKeys : PublicKey × PublicKey) :
    OutputTally → List TxOut → List Script → List OutputRole → OutputTally → Prop where
  | nil {t : OutputTally} : OutputsRecorded S isAnchors fundingKeys t [] [] [] t
  | cons {t t' : OutputTally} {out : TxOut} {script : Script} {role : OutputRole}
      {outs : List TxOut} {scripts : List Script} {roles : List OutputRole}
      (shown : role.Shown S isAnchors fundingKeys out script) (free : role.Free t)
      (rest : OutputsRecorded S isAnchors fundingKeys (role.record t out.value) outs scripts roles
        t') :
      OutputsRecorded S isAnchors fundingKeys t (out :: outs) (script :: scripts) (role :: roles) t'

/-- The sum of the recorded values, with an anchor value for each side. -/
def OutputTally.total (t : OutputTally) (broadcasterAnchor countersignerAnchor : Nat) : Nat :=
  t.toBroadcasterValueSat + t.toCountersignerValueSat + (t.offeredHtlcs.map (·.valueSat)).sum +
    (t.receivedHtlcs.map (·.valueSat)).sum + broadcasterAnchor + countersignerAnchor

/-- The value recorded for the anchors of a side. -/
def anchorValueSat (count : Nat) : Nat := if count = 1 then ANCHOR_SAT else 0

namespace OutputsRecorded

variable {S : ScriptLibrary} {isAnchors : Bool} {fundingKeys : PublicKey × PublicKey}
  {t t' : OutputTally} {outs : List TxOut} {scripts : List Script} {roles : List OutputRole}

variable (h : OutputsRecorded S isAnchors fundingKeys t outs scripts roles t')

include h

/-- The roles of the sides are taken once, and HTLCs are listed in order. -/
theorem roles_once :
    roles.count .toBroadcaster + t.hasToBroadcaster.toNat = t'.hasToBroadcaster.toNat ∧
    roles.count .toCountersigner + t.hasToCountersigner.toNat = t'.hasToCountersigner.toNat ∧
    t'.offeredHtlcs = t.offeredHtlcs ++ roles.filterMap (·.offered) ∧
    t'.receivedHtlcs = t.receivedHtlcs ++ roles.filterMap (·.received) := by
  induction h with
  | nil => simp
  | @cons t t' out script role outs scripts roles shown free rest ih =>
    cases role <;> simp_all [OutputRole.record, OutputRole.Free]

/-- The anchors pay the keys of their roles. -/
theorem anchorPayees_eq : S.anchorPayees outs scripts = roles.filterMap (·.payee fundingKeys) := by
  induction h with
  | nil => rfl
  | @cons t t' out script role outs scripts roles shown free rest ih =>
    have hcons : S.anchorPayees (out :: outs) (script :: scripts) =
        (S.anchorPayee (out, script)).toList ++ S.anchorPayees outs scripts := by
      simp only [ScriptLibrary.anchorPayees, List.zip_cons_cons, List.filterMap_cons]
      cases S.anchorPayee (out, script) <;> rfl
    rw [hcons, shown.anchorPayee_eq, ih, List.filterMap_cons]
    cases role.payee fundingKeys <;> rfl

/-- The anchor roles are taken once each iff no two anchors pay the same key. -/
theorem nodup_anchorPayees_iff : (S.anchorPayees outs scripts).Nodup ↔
    roles.count .toBroadcasterAnchor ≤ 1 ∧ roles.count .toCountersignerAnchor ≤ 1 := by
  rw [h.anchorPayees_eq]
  refine OutputRole.nodup_payees_iff ?_
  induction h with
  | nil => exact nofun
  | cons shown _ _ ih =>
    rintro (_ | ⟨_, hmem⟩)
    · exact shown.2.2
    · exact ih hmem

theorem anchors_counted
    (hb : t.toBroadcasterAnchorCount + roles.count .toBroadcasterAnchor < 2 ^ 16)
    (hc : t.toCountersignerAnchorCount + roles.count .toCountersignerAnchor < 2 ^ 16) :
    t'.toBroadcasterAnchorCount =
        t.toBroadcasterAnchorCount + roles.count .toBroadcasterAnchor ∧
      t'.toCountersignerAnchorCount =
        t.toCountersignerAnchorCount + roles.count .toCountersignerAnchor := by
  induction h with
  | nil => exact ⟨rfl, rfl⟩
  | @cons t t' out script role outs scripts roles shown free rest ih =>
    cases role <;> simp [OutputRole.record] at hb hc ih ⊢ <;> omega

/-- The recorded values add up to those of the outputs, if every anchor is counted. -/
theorem total_eq (hb : t.hasToBroadcaster = false → t.toBroadcasterValueSat = 0)
    (hc : t.hasToCountersigner = false → t.toCountersignerValueSat = 0) :
    t'.total (roles.count .toBroadcasterAnchor * ANCHOR_SAT)
        (roles.count .toCountersignerAnchor * ANCHOR_SAT) =
      t.total 0 0 + (outs.map (·.value)).sum := by
  induction h with
  | nil => simp
  | @cons t t' out script role outs scripts roles shown free rest ih =>
    cases role <;> simp_all [OutputRole.record, OutputRole.Free, OutputRole.Shown,
      OutputTally.total, Nat.add_mul] <;> omega

end OutputsRecorded

namespace DecodedCommitment

/-- Outputs that are read are recorded one after the other. -/
theorem recorded_of_handleOutputs {S : ScriptLibrary} {o : Overflow} {keys : InMemorySigner}
    {setup : ChannelSetup} (hpayload : ∀ script, S.isV0P2wpkh script = true →
      (S.payloadFromScript script).isSome = true) {outs : List TxOut} {scripts : List Script}
    {ind : Nat} {d d' : DecodedCommitment} (hlength : outs.length = scripts.length)
    (h : handleOutputs o S keys setup ind d outs scripts = .ok d') :
    ∃ roles, OutputsRecorded S setup.isAnchors (keys.fundingKeys d.isCounterpartyBroadcaster)
      d.tally outs scripts roles d'.tally := by
  induction outs generalizing scripts ind d with
  | nil =>
    obtain rfl := List.length_eq_zero_iff.mp hlength.symm
    cases h
    exact ⟨[], .nil⟩
  | cons out outs ih =>
    cases scripts with
    | nil => cases hlength
    | cons script scripts =>
      obtain ⟨d₁, hread, h⟩ := bind_ok h
      obtain ⟨role, hshown, hfree, htally, hside⟩ :=
        handleOutput_ok hpayload (withFunction_eq_ok.mp hread)
      obtain ⟨roles, hrest⟩ := ih (Nat.succ.inj hlength) h
      rw [hside] at hrest
      exact ⟨role :: roles, .cons hshown hfree (htally ▸ hrest)⟩

end DecodedCommitment

namespace Sample

/-- The scripts of anchors that pay the given keys. -/
def anchorScripts (payees : List PublicKey) : List Script :=
  payees.map writer.getAnchorRedeemscript

/-- A transaction with only anchors. -/
def anchorsTx (payees : List PublicKey) : Transaction :=
  ⟨2, 0, [], (anchorScripts payees).map fun script => ⟨330, scripts.toV0P2wsh script⟩⟩

end Sample

namespace DecodedCommitment

open Sample

end DecodedCommitment

end ValidatingSigner
