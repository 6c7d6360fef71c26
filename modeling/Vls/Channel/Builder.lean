import Vls.Channel.Basic
import Vls.Policy.Decoder

/-!
# Outputs of built commitments

The Lightning library writes a commitment transaction from the values of its outputs.  The decoder
reads the values of such a transaction back, whatever order the outputs were sorted into, unless the
delay of the broadcaster's output or the expiry of a received HTLC is out of its range.
-/

namespace ValidatingSigner

open Base Template ScriptLibrary

/-! ## What the library writes -/

/-- The functions of the Lightning and Bitcoin libraries that scripts are written with. -/
structure ScriptWriter where
  /-- Whether the bytes of a key are a point of the curve. -/
  isPoint : PublicKey → Prop
  serialize : PublicKey → List UInt8
  /-- The instruction that pushes a number. -/
  pushInt : Nat → Instruction
  pubkeyHash : PublicKey → List UInt8
  ripemd160 : PaymentHash → List UInt8
  p2wpkh : PublicKey → Script
  getRevokeableRedeemscript : PublicKey → Nat → PublicKey → Script
  getAnchorRedeemscript : PublicKey → Script
  getToCountersignatoryWithAnchorsRedeemscript : PublicKey → Script

/-- An output of a commitment transaction. -/
inductive CommitmentOutput where
  | toCountersignatory (valueSat : Nat) (key : PublicKey)
  | toBroadcaster (valueSat : Nat) (revocationKey : PublicKey) (contestDelay : Nat)
      (delayedKey : PublicKey)
  | anchor (fundingKey : PublicKey)
  | htlc (h : HTLCOutputInCommitment)
  deriving DecidableEq

namespace CommitmentTransaction

/-- The delay of the broadcaster's output, which the other side selects. -/
def contestDelay (tx : CommitmentTransaction) : Nat :=
  if tx.isHolder then tx.parameters.counterpartySelectedContestDelay
  else tx.parameters.holderSelectedContestDelay

/-- The key the countersigner's output pays. -/
def countersignatoryPaymentPoint (tx : CommitmentTransaction) : PublicKey :=
  if tx.isHolder then tx.parameters.counterpartyPubkeys.paymentPoint
  else tx.parameters.holderPubkeys.paymentPoint

/-- The outputs of a commitment, before they are sorted. -/
def outputs (tx : CommitmentTransaction) : List CommitmentOutput :=
  (if 0 < tx.toCountersignatoryValueSat then
    [.toCountersignatory tx.toCountersignatoryValueSat tx.countersignatoryPaymentPoint] else []) ++
  (if 0 < tx.toBroadcasterValueSat then
    [.toBroadcaster tx.toBroadcasterValueSat tx.keys.revocationKey tx.contestDelay
      tx.keys.broadcasterDelayedPaymentKey] else []) ++
  (if tx.isAnchors ∧ (0 < tx.toBroadcasterValueSat ∨ tx.htlcs ≠ []) then
    [.anchor tx.broadcasterFundingKey] else []) ++
  (if tx.isAnchors ∧ (0 < tx.toCountersignatoryValueSat ∨ tx.htlcs ≠ []) then
    [.anchor tx.countersignatoryFundingKey] else []) ++
  tx.htlcs.map .htlc

/-- The keys a commitment's outputs pay are points. -/
structure PaysPoints (W : ScriptWriter) (tx : CommitmentTransaction) : Prop where
  payment : W.isPoint tx.countersignatoryPaymentPoint
  revocation : W.isPoint tx.keys.revocationKey
  delayed : W.isPoint tx.keys.broadcasterDelayedPaymentKey
  broadcaster : W.isPoint tx.broadcasterFundingKey
  countersignatory : W.isPoint tx.countersignatoryFundingKey

end CommitmentTransaction

namespace CommitmentOutput

/-- The witness script of an output; an output that pays a key hash has none. -/
def witscript (lib : Library) (W : ScriptWriter) (isAnchors : Bool) (keys : TxCreationKeys) :
    CommitmentOutput → Script
  | .toCountersignatory _ key =>
    if isAnchors then W.getToCountersignatoryWithAnchorsRedeemscript key else []
  | .toBroadcaster _ revocationKey contestDelay delayedKey =>
    W.getRevokeableRedeemscript revocationKey contestDelay delayedKey
  | .anchor fundingKey => W.getAnchorRedeemscript fundingKey
  | .htlc h => lib.getHtlcRedeemscript h isAnchors keys

/-- The value of an output. -/
def valueSat : CommitmentOutput → Nat
  | .toCountersignatory value _ => value
  | .toBroadcaster value _ _ _ => value
  | .anchor _ => ANCHOR_SAT
  | .htlc h => h.amountMsat / 1000

/-- The script an output pays to. -/
def scriptPubkey (lib : Library) (W : ScriptWriter) (S : ScriptLibrary) (isAnchors : Bool)
    (keys : TxCreationKeys) (out : CommitmentOutput) : Script :=
  match out, isAnchors with
  | .toCountersignatory _ key, false => W.p2wpkh key
  | out, _ => S.toV0P2wsh (out.witscript lib W isAnchors keys)

/-- An output as it stands in the transaction. -/
def txOut (lib : Library) (W : ScriptWriter) (S : ScriptLibrary) (isAnchors : Bool)
    (keys : TxCreationKeys) (out : CommitmentOutput) : TxOut :=
  ⟨out.valueSat, out.scriptPubkey lib W S isAnchors keys⟩

end CommitmentOutput

/-- The instructions that close an HTLC script. -/
def htlcEnd (isAnchors : Bool) : List Instruction := (htlcSuffix isAnchors).map .op

namespace ScriptWriter

variable (W : ScriptWriter)

/-- The instructions of the script of an HTLC, up to its first branch. -/
def htlcStart (keys : TxCreationKeys) : List Instruction :=
  [.op .dup, .op .hash160, .pushBytes (W.pubkeyHash keys.revocationKey), .op .equal, .op .ifOp,
    .op .checkSig, .op .elseOp, .pushBytes (W.serialize keys.countersignatoryHtlcKey), .op .swap,
    .op .size, W.pushInt 32, .op .equal]

/-- The instructions of the script of an offered HTLC. -/
def offeredHtlc (htlc : HTLCOutputInCommitment) (isAnchors : Bool) (keys : TxCreationKeys) :
    List Instruction :=
  W.htlcStart keys ++
    [.op .notIf, .op .drop, .op (.pushNum 2), .op .swap,
      .pushBytes (W.serialize keys.broadcasterHtlcKey), .op (.pushNum 2), .op .checkMultiSig,
      .op .elseOp, .op .hash160, .pushBytes (W.ripemd160 htlc.paymentHash), .op .equalVerify,
      .op .checkSig, .op .endIf] ++ htlcEnd isAnchors

/-- The instructions of the script of a received HTLC. -/
def receivedHtlc (htlc : HTLCOutputInCommitment) (isAnchors : Bool) (keys : TxCreationKeys) :
    List Instruction :=
  W.htlcStart keys ++
    [.op .ifOp, .op .hash160, .pushBytes (W.ripemd160 htlc.paymentHash), .op .equalVerify,
      .op (.pushNum 2), .op .swap, .pushBytes (W.serialize keys.broadcasterHtlcKey),
      .op (.pushNum 2), .op .checkMultiSig, .op .elseOp, .op .drop, W.pushInt htlc.cltvExpiry,
      .op .cltv, .op .drop, .op .checkSig, .op .endIf] ++ htlcEnd isAnchors

/-- What is assumed of the libraries: the scripts consist of the instructions of their templates,
numbers below `2 ^ 31` are read back while others do not fit the four bytes of a script number,
points are read back, and the two kinds of witness programs are told apart. -/
structure Lawful (S : ScriptLibrary) (lib : Library) : Prop where
  instructions_nil : S.instructions [] = []
  revokeable : ∀ revocationKey delay delayedKey,
    S.instructions (W.getRevokeableRedeemscript revocationKey delay delayedKey) =
      [.ok (.op .ifOp), .ok (.pushBytes (W.serialize revocationKey)), .ok (.op .elseOp),
        .ok (W.pushInt delay), .ok (.op .csv), .ok (.op .drop),
        .ok (.pushBytes (W.serialize delayedKey)), .ok (.op .endIf), .ok (.op .checkSig)]
  anchor : ∀ key, S.instructions (W.getAnchorRedeemscript key) =
    [.ok (.pushBytes (W.serialize key)), .ok (.op .checkSig), .ok (.op .ifDup), .ok (.op .notIf),
      .ok (.op (.pushNum 16)), .ok (.op .csv), .ok (.op .endIf)]
  toCountersignatory : ∀ key,
    S.instructions (W.getToCountersignatoryWithAnchorsRedeemscript key) =
      [.ok (.pushBytes (W.serialize key)), .ok (.op .checkSigVerify), .ok (.op (.pushNum 1)),
        .ok (.op .csv)]
  htlc : ∀ htlc isAnchors keys, S.instructions (lib.getHtlcRedeemscript htlc isAnchors keys) =
    (if htlc.offered then W.offeredHtlc htlc isAnchors keys
      else W.receivedHtlc htlc isAnchors keys).map .ok
  number : ∀ n, numberOf S (W.pushInt n) = if n < 2 ^ 31 then some (n : Int) else none
  ripemd160_length : ∀ hash, (W.ripemd160 hash).length = 20
  pubkey : ∀ key, W.isPoint key → S.publicKeyFromSlice (W.serialize key) = .ok key
  p2wpkh : ∀ key, S.isV0P2wpkh (W.p2wpkh key) = true
  p2wsh : ∀ script, S.isV0P2wsh (S.toV0P2wsh script) = true
  p2wsh_not_p2wpkh : ∀ script, S.isV0P2wpkh (S.toV0P2wsh script) = false

end ScriptWriter

/-! ## Reading scripts back -/

namespace ScriptWriter.Lawful

variable {W : ScriptWriter} {S : ScriptLibrary} {lib : Library} (L : W.Lawful S lib)

include L

theorem number_32 : numberOf S (W.pushInt 32) = some 32 := by
  rw [L.number, if_pos (by decide)]
  rfl

/-- A template goes on after a number that fits. -/
theorem run_number_bind {α : Type} {n : Nat} {f : Int → Template α}
    (rest : List (Except String Instruction)) : (expectNumber S >>= f).run
      (.ok (W.pushInt n) :: rest) = if n < 2 ^ 31 then (f n).run rest else none := by
  rw [StateT.run_bind, run_expectNumber, L.number]
  split_ifs <;> rfl

/-! ### The broadcaster's output -/

theorem parse_revokeable (revocationKey : PublicKey) (delay : Nat) (delayedKey : PublicKey) :
    S.parse (parseToBroadcasterScript S)
        (W.getRevokeableRedeemscript revocationKey delay delayedKey) =
      if delay < 2 ^ 31 then some (W.serialize revocationKey, (delay : Int), W.serialize delayedKey)
      else none := by
  rw [parse, L.revokeable]
  refine Eq.trans (congrArg _ ?_) (apply_ite (Option.map Prod.fst) _ (some (_, [])) none)
  refine (run_bind_some rfl).trans ?_
  refine (run_bind_some rfl).trans ?_
  refine (run_bind_some rfl).trans ?_
  exact L.run_number_bind _

/-- No other template reads the script of the broadcaster's output. -/
theorem parse_revokeable_others (isAnchors : Bool) (revocationKey : PublicKey) (delay : Nat)
    (delayedKey : PublicKey) :
    let script := W.getRevokeableRedeemscript revocationKey delay delayedKey
    S.parse (parseReceivedHtlcScript S isAnchors) script = none ∧
      S.parse (parseOfferedHtlcScript S isAnchors) script = none ∧
      S.parse parseAnchorScript script = none ∧
      S.parse parseToCountersignerDelayedScript script = none := by
  simp only [parse, L.revokeable]
  exact ⟨rfl, rfl, rfl, rfl⟩

/-! ### Anchors and the countersigner's output -/

theorem parse_anchor (isAnchors : Bool) (key : PublicKey) :
    let script := W.getAnchorRedeemscript key
    S.parse (parseToBroadcasterScript S) script = none ∧
      S.parse (parseReceivedHtlcScript S isAnchors) script = none ∧
      S.parse (parseOfferedHtlcScript S isAnchors) script = none ∧
      S.parse parseAnchorScript script = some (W.serialize key) := by
  simp only [parse, L.anchor]
  exact ⟨rfl, rfl, rfl, rfl⟩

theorem parse_toCountersignatory (isAnchors : Bool) (key : PublicKey) :
    let script := W.getToCountersignatoryWithAnchorsRedeemscript key
    S.parse (parseToBroadcasterScript S) script = none ∧
      S.parse (parseReceivedHtlcScript S isAnchors) script = none ∧
      S.parse (parseOfferedHtlcScript S isAnchors) script = none ∧
      S.parse parseAnchorScript script = none ∧
      S.parse parseToCountersignerDelayedScript script = some (W.serialize key) := by
  simp only [parse, L.toCountersignatory]
  exact ⟨rfl, rfl, rfl, rfl, rfl⟩

/-! ### HTLCs -/

variable {h : HTLCOutputInCommitment}

theorem run_htlcHead (keys : TxCreationKeys) (rest : List Instruction) :
    (htlcHead S).run ((W.htlcStart keys ++ rest).map .ok) =
      some ((W.pubkeyHash keys.revocationKey, W.serialize keys.countersignatoryHtlcKey),
        rest.map .ok) := by
  iterate 5 refine (run_bind_some rfl).trans ?_
  exact (run_bind_some (run_expectNumberEq L.number_32)).trans rfl

theorem instructions_received (hreceived : h.offered = false) (isAnchors : Bool)
    (keys : TxCreationKeys) :
    S.instructions (lib.getHtlcRedeemscript h isAnchors keys) =
      (W.receivedHtlc h isAnchors keys).map .ok := by
  rw [L.htlc, hreceived, if_neg Bool.false_ne_true]

theorem parse_offeredHtlc (hoffered : h.offered = true) (isAnchors : Bool) (keys : TxCreationKeys) :
    let script := lib.getHtlcRedeemscript h isAnchors keys
    S.parse (parseToBroadcasterScript S) script = none ∧
      S.parse (parseReceivedHtlcScript S isAnchors) script = none ∧
      S.parse (parseOfferedHtlcScript S isAnchors) script =
        some (W.pubkeyHash keys.revocationKey, W.serialize keys.countersignatoryHtlcKey,
          W.serialize keys.broadcasterHtlcKey, W.ripemd160 h.paymentHash) := by
  have hins := L.htlc h isAnchors keys
  rw [if_pos hoffered, offeredHtlc, List.append_assoc] at hins
  refine ⟨parse_of_run_none hins rfl, ?_, ?_⟩
  · refine parse_of_run_none hins ?_
    refine (run_bind_some (L.run_htlcHead keys _)).trans ?_
    exact run_bind_none rfl
  · refine parse_of_run (t := []) hins ?_
    refine (run_bind_some (L.run_htlcHead keys _)).trans ?_
    cases isAnchors <;> rfl

/-- Only the template of received HTLCs reads the script of one. -/
theorem parse_receivedHtlc_others (hreceived : h.offered = false) (isAnchors : Bool)
    (keys : TxCreationKeys) : let script := lib.getHtlcRedeemscript h isAnchors keys
    S.parse (parseToBroadcasterScript S) script = none ∧
      S.parse (parseOfferedHtlcScript S isAnchors) script = none ∧
      S.parse parseAnchorScript script = none ∧
      S.parse parseToCountersignerDelayedScript script = none := by
  have hins := L.instructions_received hreceived isAnchors keys
  rw [receivedHtlc, List.append_assoc] at hins
  refine ⟨parse_of_run_none hins rfl, ?_, parse_of_run_none hins rfl,
    parse_of_run_none hins rfl⟩
  refine parse_of_run_none hins ?_
  refine (run_bind_some (L.run_htlcHead keys _)).trans ?_
  exact run_bind_none rfl

theorem parse_receivedHtlc (hreceived : h.offered = false) (isAnchors : Bool)
    (keys : TxCreationKeys) :
    S.parse (parseReceivedHtlcScript S isAnchors) (lib.getHtlcRedeemscript h isAnchors keys) =
      if h.cltvExpiry < 2 ^ 31 then
        some (W.pubkeyHash keys.revocationKey, W.serialize keys.countersignatoryHtlcKey,
          W.ripemd160 h.paymentHash, W.serialize keys.broadcasterHtlcKey, (h.cltvExpiry : Int))
      else none := by
  have hins := L.instructions_received hreceived isAnchors keys
  rw [receivedHtlc, List.append_assoc] at hins
  rw [parse, hins]
  refine Eq.trans (congrArg _ ?_) (apply_ite (Option.map Prod.fst) _ (some (_, [])) none)
  refine (run_bind_some (L.run_htlcHead keys _)).trans ?_
  iterate 5 refine (run_bind_some rfl).trans ?_
  refine (L.run_number_bind _).trans ?_
  cases isAnchors <;> rfl

end ScriptWriter.Lawful

end ValidatingSigner
