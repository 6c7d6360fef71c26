import Vls.Policy.SimpleValidator

/-!
# Reading a commitment off its transaction

`decodeCommitmentTx` goes through the outputs of a commitment transaction and recognizes each by the
witness script that comes with it.  A script is matched against one template after the other; the
mismatch errors of the templates are dropped by the caller, so that a template either reads its
fields or fails.
-/

namespace ValidatingSigner

open Base

/-! ## Scripts -/

/-- The opcodes that the templates of commitment outputs name. -/
inductive Opcode where
  | ifOp
  | notIf
  | elseOp
  | endIf
  | drop
  | dup
  | ifDup
  | swap
  | size
  | equal
  | equalVerify
  | hash160
  | checkSig
  | checkSigVerify
  | checkMultiSig
  | cltv
  | csv
  | pushNum (number : Int)
  | other (byte : UInt8)
  deriving DecidableEq

/-- An instruction of a script. -/
inductive Instruction where
  | op (code : Opcode)
  | pushBytes (data : List UInt8)
  deriving DecidableEq

/-- The functions of the Bitcoin and secp256k1 libraries that scripts are read with. -/
structure ScriptLibrary where
  /-- The instructions of a script, up to and including the first one that cannot be read. -/
  instructions : Script → List (Except String Instruction)
  readScriptint : List UInt8 → Except String Int
  isV0P2wpkh : Script → Bool
  isV0P2wsh : Script → Bool
  toV0P2wsh : Script → Script
  /-- The address payload of an output script, as the script it stands for. -/
  payloadFromScript : Script → Option Script
  publicKeyFromSlice : List UInt8 → Except String PublicKey

/-- A script template: it takes instructions off the front of a script, or fails. -/
abbrev Template := StateT (List (Except String Instruction)) Option

namespace Template

/-- The next instruction. -/
def expectNext : Template Instruction := fun
  | .ok ins :: rest => some (ins, rest)
  | _ => none

/-- The opcode `code`. -/
def expectOp (code : Opcode) : Template Unit := do
  let ins ← expectNext
  if ins = .op code then pure () else failure

/-- The number an instruction pushes. -/
def numberOf (S : ScriptLibrary) : Instruction → Option Int
  | .op (.pushNum number) => some number
  | .op _ => none
  | .pushBytes data => (S.readScriptint data).toOption

/-- A number. -/
def expectNumber (S : ScriptLibrary) : Template Int := do
  let ins ← expectNext
  StateT.lift (numberOf S ins)

/-- Data. -/
def expectData : Template (List UInt8) := do
  match ← expectNext with
  | .pushBytes data => pure data
  | .op _ => failure

/-- The end of the script. -/
def expectScriptEnd : Template Unit := fun
  | [] => some ((), [])
  | _ :: _ => none

/-- The number `expected`. -/
def expectNumberEq (S : ScriptLibrary) (expected : Int) : Template Unit := do
  let number ← expectNumber S
  if number = expected then pure () else failure

/-- The opcodes `codes`, one after the other. -/
def expectOps (codes : List Opcode) : Template Unit := codes.forM expectOp

section Running

variable {α β : Type} {S : ScriptLibrary} {x : Template α} {f : α → Template β} {a : α}
  {s t : List (Except String Instruction)}

theorem run_bind_some (h : x.run s = some (a, t)) : (x >>= f).run s = (f a).run t := by
  rw [StateT.run_bind, h]
  rfl

theorem run_bind_none (h : x.run s = none) : (x >>= f).run s = none := by
  rw [StateT.run_bind, h]
  rfl

theorem run_expectNumber (ins : Instruction) :
    (expectNumber S).run (.ok ins :: s) = (numberOf S ins).map (·, s) := by
  change (StateT.lift (numberOf S ins) : Template Int).run s = _
  rcases numberOf S ins with _ | n <;> rfl

theorem run_expectNumberEq {ins : Instruction} {expected : Int}
    (h : numberOf S ins = some expected) :
    (expectNumberEq S expected).run (.ok ins :: s) = some ((), s) := by
  have hnumber : (expectNumber S).run (.ok ins :: s) = some (expected, s) := by
    rw [run_expectNumber, h]
    rfl
  rw [expectNumberEq, run_bind_some hnumber, if_pos rfl]
  rfl

end Running

end Template

open Template

/-- What a template reads off a script. -/
def ScriptLibrary.parse {α : Type} (S : ScriptLibrary) (template : Template α) (script : Script) :
    Option α :=
  (template.run (S.instructions script)).map Prod.fst

theorem ScriptLibrary.parse_of_run {α : Type} {S : ScriptLibrary} {template : Template α}
    {script : Script} {s t : List (Except String Instruction)} {a : α}
    (hins : S.instructions script = s) (hrun : template.run s = some (a, t)) :
    S.parse template script = some a := by
  rw [ScriptLibrary.parse, hins, hrun]
  rfl

theorem ScriptLibrary.parse_of_run_none {α : Type} {S : ScriptLibrary} {template : Template α}
    {script : Script} {s : List (Except String Instruction)} (hins : S.instructions script = s)
    (hrun : template.run s = none) : S.parse template script = none := by
  rw [ScriptLibrary.parse, hins, hrun]
  rfl

/-- The opcodes that close an HTLC script. -/
def htlcSuffix (isAnchors : Bool) : List Opcode :=
  if isAnchors then [.pushNum 1, .csv, .drop, .endIf] else [.endIf]

/-- The part in which the scripts of offered and received HTLCs agree: the hash of the revocation
key and the countersigner's HTLC key. -/
def htlcHead (S : ScriptLibrary) : Template (List UInt8 × List UInt8) := do
  expectOps [.dup, .hash160]
  let revocationHash ← expectData
  expectOps [.equal, .ifOp, .checkSig, .elseOp]
  let remoteHtlcPubkey ← expectData
  expectOps [.swap, .size]
  expectNumberEq S 32
  expectOp .equal
  return (revocationHash, remoteHtlcPubkey)

/-- The script of a received HTLC: hashes of the revocation key and the payment, both HTLC keys, and
the expiry. -/
def parseReceivedHtlcScript (S : ScriptLibrary) (isAnchors : Bool) :
    Template (List UInt8 × List UInt8 × List UInt8 × List UInt8 × Int) := do
  let (revocationHash, remoteHtlcPubkey) ← htlcHead S
  expectOps [.ifOp, .hash160]
  let paymentHash ← expectData
  expectOps [.equalVerify, .pushNum 2, .swap]
  let localHtlcPubkey ← expectData
  expectOps [.pushNum 2, .checkMultiSig, .elseOp, .drop]
  let cltvExpiry ← expectNumber S
  expectOps [.cltv, .drop, .checkSig, .endIf]
  expectOps (htlcSuffix isAnchors)
  expectScriptEnd
  return (revocationHash, remoteHtlcPubkey, paymentHash, localHtlcPubkey, cltvExpiry)

/-- The script of an offered HTLC: hash of the revocation key, both HTLC keys, and the hash of the
payment. -/
def parseOfferedHtlcScript (S : ScriptLibrary) (isAnchors : Bool) :
    Template (List UInt8 × List UInt8 × List UInt8 × List UInt8) := do
  let (revocationHash, remoteHtlcPubkey) ← htlcHead S
  expectOps [.notIf, .drop, .pushNum 2, .swap]
  let localHtlcPubkey ← expectData
  expectOps [.pushNum 2, .checkMultiSig, .elseOp, .hash160]
  let paymentHash ← expectData
  expectOps [.equalVerify, .checkSig, .endIf]
  expectOps (htlcSuffix isAnchors)
  expectScriptEnd
  return (revocationHash, remoteHtlcPubkey, localHtlcPubkey, paymentHash)

/-- The script of the broadcaster's output: the revocation key, the delay and the delayed key. -/
def parseToBroadcasterScript (S : ScriptLibrary) :
    Template (List UInt8 × Int × List UInt8) := do
  expectOp .ifOp
  let revocationPubkey ← expectData
  expectOp .elseOp
  let delay ← expectNumber S
  expectOps [.csv, .drop]
  let delayedPubkey ← expectData
  expectOps [.endIf, .checkSig]
  expectScriptEnd
  return (revocationPubkey, delay, delayedPubkey)

/-- The script of the countersigner's output when the commitment has anchors. -/
def parseToCountersignerDelayedScript : Template (List UInt8) := do
  let pubkey ← expectData
  expectOps [.checkSigVerify, .pushNum 1, .csv]
  expectScriptEnd
  return pubkey

/-- The script of an anchor. -/
def parseAnchorScript : Template (List UInt8) := do
  let toPubkey ← expectData
  expectOps [.checkSig, .ifDup, .notIf, .pushNum 16, .csv, .endIf]
  expectScriptEnd
  return toPubkey

/-! ## Outputs -/

/-- The greatest delay of the broadcaster's output. -/
def MAX_DELAY : Int := 2016

/-- The value of an anchor. -/
def ANCHOR_SAT : Nat := 330

/-- An HTLC as its output shows it. -/
structure HTLCInfo where
  valueSat : Nat
  paymentHashHash : List UInt8
  cltvExpiry : Nat
  deriving DecidableEq

/-- Everything read off the outputs of a commitment transaction. -/
structure DecodedCommitment extends CommitmentInfo where
  isCounterpartyBroadcaster : Bool
  toCountersignerAddress : Option Script
  toCountersignerPubkey : Option PublicKey
  toCountersignerAnchorCount : Nat
  revocationPubkey : Option PublicKey
  toBroadcasterDelayedPubkey : Option PublicKey
  toSelfDelay : Nat
  toBroadcasterAnchorCount : Nat
  offeredHtlcs : List HTLCInfo
  receivedHtlcs : List HTLCInfo
  deriving DecidableEq

/-- Refuse a transaction. -/
def transactionFormatError (message : String) : Refusal := .validation (.transactionFormat message)

/-- Refuse a script. -/
def scriptFormatError (message : String) : Refusal := .validation (.scriptFormat message)

/-- Refuse a script that does not match. -/
def mismatchError (message : String) : Refusal := .validation (.mismatch message)

/-- The key that `data` serializes. -/
def ScriptLibrary.pubkey (S : ScriptLibrary) (text : String) (data : List UInt8) :
    Result PublicKey :=
  match S.publicKeyFromSlice data with
  | .ok key => .ok key
  | .error e => .error (.refuse (mismatchError (text ++ " malformed: " ++ e)))

namespace DecodedCommitment

/-- Nothing read yet. -/
def new (isCounterpartyBroadcaster : Bool) : DecodedCommitment where
  toCountersignerValueSat := 0
  toBroadcasterValueSat := 0
  isCounterpartyBroadcaster := isCounterpartyBroadcaster
  toCountersignerAddress := none
  toCountersignerPubkey := none
  toCountersignerAnchorCount := 0
  revocationPubkey := none
  toBroadcasterDelayedPubkey := none
  toSelfDelay := 0
  toBroadcasterAnchorCount := 0
  offeredHtlcs := []
  receivedHtlcs := []

/-- Whether the broadcaster's output has been read. -/
def hasToBroadcaster (d : DecodedCommitment) : Bool := d.toBroadcasterDelayedPubkey.isSome

/-- Whether the countersigner's output has been read. -/
def hasToCountersigner (d : DecodedCommitment) : Bool :=
  d.toCountersignerAddress.isSome || d.toCountersignerPubkey.isSome

/-- Read the broadcaster's output. -/
def handleToBroadcasterOutput (S : ScriptLibrary) (d : DecodedCommitment) (out : TxOut)
    (vals : List UInt8 × Int × List UInt8) : Result DecodedCommitment := do
  let (revocationPubkey, delay, delayedPubkey) := vals
  refuseIf (d.hasToBroadcaster = true)
    (transactionFormatError "more than one to_broadcaster output")
  refuseIf (delay < 0) (scriptFormatError "negative delay")
  refuseIf (delay > MAX_DELAY) (scriptFormatError s!"delay too large: {delay} > {MAX_DELAY}")
  let delayed ← S.pubkey "delayed_pubkey" delayedPubkey
  let revocation ← S.pubkey "revocation_pubkey" revocationPubkey
  return { d with
    toSelfDelay := delay.toNat
    toBroadcasterValueSat := out.value
    toBroadcasterDelayedPubkey := some delayed
    revocationPubkey := some revocation }

/-- Read the countersigner's output of a commitment with anchors. -/
def handleToCountersignerDelayedOutput (S : ScriptLibrary) (d : DecodedCommitment) (out : TxOut)
    (pubkeyData : List UInt8) : Result DecodedCommitment := do
  refuseIf (d.hasToCountersigner = true)
    (transactionFormatError "more than one to_countersigner output")
  let pubkey ← S.pubkey "to_countersigner delayed pubkey" pubkeyData
  return { d with toCountersignerPubkey := some pubkey, toCountersignerValueSat := out.value }

/-- Read a received HTLC. -/
def handleReceivedHtlcOutput (d : DecodedCommitment) (out : TxOut)
    (vals : List UInt8 × List UInt8 × List UInt8 × List UInt8 × Int) :
    Result DecodedCommitment := do
  let (_, _, paymentHash, _, cltvExpiry) := vals
  refuseIf (paymentHash.length ≠ 20) (mismatchError "payment hash RIPEMD160 must be length 20")
  refuseIf (cltvExpiry < 0) (scriptFormatError "negative CLTV")
  return { d with receivedHtlcs := d.receivedHtlcs ++
    [⟨out.value, paymentHash, cltvExpiry.toNat % 2 ^ 32⟩] }

/-- Read an offered HTLC. -/
def handleOfferedHtlcOutput (d : DecodedCommitment) (out : TxOut)
    (vals : List UInt8 × List UInt8 × List UInt8 × List UInt8) : Result DecodedCommitment := do
  let (_, _, _, paymentHash) := vals
  refuseIf (paymentHash.length ≠ 20) (mismatchError "payment hash RIPEMD160 must be length 20")
  return { d with offeredHtlcs := d.offeredHtlcs ++ [⟨out.value, paymentHash, 0⟩] }

/-- Read an anchor. -/
def handleAnchorOutput (o : Overflow) (S : ScriptLibrary) (keys : InMemorySigner)
    (d : DecodedCommitment) (out : TxOut) (toPubkeyData : List UInt8) :
    Result DecodedCommitment := do
  let toPubkey ← S.pubkey "anchor to_pubkey" toPubkeyData
  let (toBroadcasterFundingPubkey, toCountersignerFundingPubkey) :=
    if d.isCounterpartyBroadcaster then
      (keys.counterpartyPubkeys.fundingPubkey, keys.pubkeys.fundingPubkey)
    else (keys.pubkeys.fundingPubkey, keys.counterpartyPubkeys.fundingPubkey)
  refuseIf (out.value ≠ ANCHOR_SAT) (mismatchError s!"anchor wrong size: {out.value}")
  if toPubkey = toBroadcasterFundingPubkey then
    let count ← o.uint 16 (d.toBroadcasterAnchorCount + 1)
    return { d with toBroadcasterAnchorCount := count }
  else if toPubkey = toCountersignerFundingPubkey then
    let count ← o.uint 16 (d.toCountersignerAnchorCount + 1)
    return { d with toCountersignerAnchorCount := count }
  else
    .error (.refuse (mismatchError
      s!"anchor to_pubkey {bytesToHex toPubkeyData} doesn't match local or remote"))

/-- Read an output by the first template its witness script matches. -/
def handleWitscript (o : Overflow) (S : ScriptLibrary) (keys : InMemorySigner)
    (setup : ChannelSetup) (d : DecodedCommitment) (out : TxOut) (script : Script) :
    Result DecodedCommitment :=
  match S.parse (parseToBroadcasterScript S) script with
  | some vals => d.handleToBroadcasterOutput S out vals
  | none =>
  match S.parse (parseReceivedHtlcScript S setup.isAnchors) script with
  | some vals => d.handleReceivedHtlcOutput out vals
  | none =>
  match S.parse (parseOfferedHtlcScript S setup.isAnchors) script with
  | some vals => d.handleOfferedHtlcOutput out vals
  | none =>
  match S.parse parseAnchorScript script with
  | some vals => d.handleAnchorOutput o S keys out vals
  | none =>
  match if setup.isAnchors then S.parse parseToCountersignerDelayedScript script else none with
  | some vals => d.handleToCountersignerDelayedOutput S out vals
  | none => .error (.refuse (transactionFormatError "unknown p2wsh script"))

/-- Read an output that pays a witness script hash. -/
def handleP2wshOutput (o : Overflow) (S : ScriptLibrary) (keys : InMemorySigner)
    (setup : ChannelSetup) (d : DecodedCommitment) (out : TxOut) (script : Script) :
    Result DecodedCommitment := do
  refuseIf (script = []) (transactionFormatError "missing witscript for p2wsh")
  refuseIf (out.scriptPubkey ≠ S.toV0P2wsh script)
    (transactionFormatError "script pubkey doesn't match inner script")
  d.handleWitscript o S keys setup out script

/-- Read an output with the witness script that comes with it. -/
def handleOutput (o : Overflow) (S : ScriptLibrary) (keys : InMemorySigner) (setup : ChannelSetup)
    (d : DecodedCommitment) (out : TxOut) (scriptBytes : Script) : Result DecodedCommitment :=
  if S.isV0P2wpkh out.scriptPubkey then do
    refuseIf (setup.isAnchors = true)
      (transactionFormatError "p2wpkh to_countersigner not valid with anchors")
    refuseIf (d.hasToCountersigner = true)
      (transactionFormatError "more than one to_countersigner output")
    return { d with
      toCountersignerAddress := S.payloadFromScript out.scriptPubkey
      toCountersignerValueSat := out.value }
  else if S.isV0P2wsh out.scriptPubkey then
    d.handleP2wshOutput o S keys setup out scriptBytes
  else .error (.refuse (transactionFormatError "unknown output type"))

/-- Read the outputs from number `ind` on. -/
def handleOutputs (o : Overflow) (S : ScriptLibrary) (keys : InMemorySigner)
    (setup : ChannelSetup) : Nat → DecodedCommitment → List TxOut → List Script →
    Result DecodedCommitment
  | _, d, [], _ => .ok d
  | _, _, _ :: _, [] => .error (.abort "index out of bounds")
  | ind, d, out :: outs, script :: scripts => do
    let d ← withFunction s!"decode_commitment_tx: tx output[{ind}]"
      (d.handleOutput o S keys setup out script)
    handleOutputs o S keys setup (ind + 1) d outs scripts

end DecodedCommitment

/-- Read a commitment off its transaction. -/
def decodeCommitmentTx (filter : PolicyFilter) (o : Overflow) (S : ScriptLibrary)
    (keys : InMemorySigner) (setup : ChannelSetup) (isCounterparty : Bool) (tx : Transaction)
    (outputWitscripts : List Script) : Result CommitmentInfo := do
  filter.policyErr (tx.version ≠ 2) "policy-commitment-version" "decode_commitment_tx"
    s!"bad commitment version: {tx.version}"
  let info ← DecodedCommitment.handleOutputs o S keys setup 0 (.new isCounterparty) tx.output
    outputWitscripts
  return info.toCommitmentInfo

end ValidatingSigner
