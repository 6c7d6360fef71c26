import Vls.Policy.Fees
import Vls.Policy.Wallet
import Vls.Node.Restore

/-!
# What a checked wallet transaction spends

A transaction that passes the check pays known destinations only, and what it spends without benefit
is exactly what its inputs exceed its outputs by.  A transaction whose unknown destinations are
approved is signed without these checks: its fee is neither bounded nor recorded.
-/

namespace ValidatingSigner

open Base Effect SimpleValidator Sample

/-! ## Wallet transactions -/

/-- The maximum size of a wallet transaction. -/
def MAX_ONCHAIN_TX_SIZE : Nat := 32 * 1024

/-- The functions of the Bitcoin library that wallet transactions are checked with. -/
structure OnchainLibrary where
  size : Transaction → Nat
  weight : Transaction → Nat
  isWitnessProgram : Script → Bool
  /-- The script that pays to a witness script. -/
  payloadForP2wsh : Script → Script
  /-- The text of a script. -/
  display : Script → String

/-- A channel as a funding transaction is checked against it. -/
inductive FundingSlot where
  | stub
  | ready (keys : InMemorySigner) (setup : ChannelSetup) (estate : EnforcementState)

/-- Whether all inputs spend native segwit outputs of the given transactions.  Of several
transactions with the same identifier the last one is looked at. -/
def isTxNonMalleable (library : Library) (L : OnchainLibrary) (tx : Transaction)
    (inputTxs : List Transaction) : Bool :=
  tx.input.all fun inp =>
    match (inputTxs.filter fun inTx => library.txid inTx = inp.previousOutput.txid).getLast? with
    | none => false
    | some inTx =>
      match inTx.output[inp.previousOutput.vout]? with
      | none => false
      | some txout => L.isWitnessProgram txout.scriptPubkey

/-- The sum of the input values. -/
def sumInputs : Nat → List Nat → Result Nat
  | sum, [] => .ok sum
  | sum, value :: values => do
    let sum ← checkedAdd sum value "funding sum inputs overflow"
    sumInputs sum values

namespace SimpleValidator

variable (v : SimpleValidator) (L : OnchainLibrary) (wallet : Wallet)

/-- Add the value of a beneficial output. -/
def addBeneficialOutput (sum value : Nat) (which : String) : Result Nat :=
  checkedAdd sum value s!"beneficial outputs overflow: sum {sum} + {which} {value}"

/-- Add the value of an output that comes with a wallet path. -/
def addPathOutput (outndx : Nat) (output : TxOut) (opath : List Nat) (sum : Nat) : Result Nat := do
  let spendable ← orWalletError s!"output[{outndx}]: wallet_can_spend error: "
    (wallet.canSpend opath output.scriptPubkey)
  if spendable then addBeneficialOutput sum output.value "to wallet"
  else do
    let allowed ← Asserted.lift (wallet.allowlistContains output.scriptPubkey opath)
    if allowed then addBeneficialOutput sum output.value "to allowlisted xpub"
    else do
      v.policy.filter.policyErr True "policy-onchain-no-unknown-outputs" "validate_onchain_tx"
        s!"output[{outndx}] is unknown"
      return sum

/-- The script of the funding output of a channel. -/
def fundingScript (keys : InMemorySigner) : Script :=
  L.payloadForP2wsh (v.library.makeFundingRedeemscript keys.pubkeys.fundingPubkey
    keys.counterpartyPubkeys.fundingPubkey)

/-- Add the value of an output that funds a channel. -/
def addFundingOutput (output : TxOut) (keys : InMemorySigner) (setup : ChannelSetup)
    (estate : EnforcementState) (sum : Nat) : Result Nat := do
  v.policy.filter.policyErr (output.value ≠ setup.channelValueSat)
    "policy-onchain-output-match-commitment" "validate_onchain_tx"
    (s!"funding output amount mismatch w/ channel: {output.value} != " ++
      s!"{setup.channelValueSat}")
  v.policy.filter.policyErr (output.scriptPubkey ≠ v.fundingScript L keys)
    "policy-onchain-output-scriptpubkey" "validate_onchain_tx"
    ("funding script_pubkey mismatch w/ channel: " ++ L.display output.scriptPubkey ++ " != " ++
      L.display (v.fundingScript L keys))
  v.policy.filter.policyErr (estate.nextHolderCommitNum ≠ 1)
    "policy-onchain-initial-commitment-countersigned" "validate_onchain_tx"
    "initial holder commitment not validated"
  v.policy.filter.policyErr (setup.isOutbound = false) "policy-onchain-no-fund-inbound"
    "validate_onchain_tx" "can't sign for inbound channel: dual-funding not supported yet"
  v.policy.filter.policyErr (setup.pushValueMsat / 1000 > 0) "policy-onchain-no-channel-push"
    "validate_onchain_tx" "channel push not allowed: dual-funding not supported yet"
  assert (setup.pushValueMsat / 1000 ≤ setup.channelValueSat)
    "push value underflow checked in ready_channel"
  addBeneficialOutput sum (setup.channelValueSat - setup.pushValueMsat / 1000) "channel value"

/-- Add the value of an output, or find that its destination is not known. -/
def addOutput (outndx : Nat) (output : TxOut) (opath : List Nat) (slot : Option FundingSlot)
    (sum : Nat) : Result (Option Nat) :=
  if opath ≠ [] then do
    let sum ← v.addPathOutput wallet outndx output opath sum
    return some sum
  else do
    let allowed ← Asserted.lift (wallet.allowlistContains output.scriptPubkey [])
    if allowed then do
      let sum ← addBeneficialOutput sum output.value "allowlisted"
      return some sum
    else match slot with
      | none => .ok none
      | some .stub => .error (.abort "this can't happen")
      | some (.ready keys setup estate) => do
        let sum ← v.addFundingOutput L output keys setup estate sum
        return some sum

/-- The sum of the beneficial outputs from an index on, and the indices of the unknown ones. -/
def addOutputs (channels : List (Option FundingSlot)) (opaths : List (List Nat)) :
    Nat → Nat → List TxOut → Result (Nat × List Nat)
  | _, sum, [] => .ok (sum, [])
  | outndx, sum, output :: outputs => do
    let opath ← expect "index out of bounds" opaths[outndx]?
    let slot ← expect "index out of bounds" channels[outndx]?
    match ← v.addOutput L wallet outndx output opath slot sum with
    | some sum => addOutputs channels opaths (outndx + 1) sum outputs
    | none => do
      let (sum, unknowns) ← addOutputs channels opaths (outndx + 1) sum outputs
      return (sum, outndx :: unknowns)

/-- The checks on a wallet transaction; the result is what it spends without benefit. -/
def validateOnchainTx (channels : List (Option FundingSlot)) (tx : Transaction)
    (inputTxs : List Transaction) (valuesSat : List Nat) (opaths : List (List Nat))
    (weightLowerBound : Nat) : Result Nat := do
  v.policy.filter.policyErr (tx.version ≠ 2) "policy-onchain-format-standard"
    "validate_onchain_tx" s!"invalid version: {tx.version}"
  v.policy.filter.policyErr (L.size tx > MAX_ONCHAIN_TX_SIZE) "policy-onchain-max-size"
    "validate_onchain_tx" s!"tx too large: {L.size tx} > {MAX_ONCHAIN_TX_SIZE}"
  v.policy.filter.policyErr
    (channels.any Option.isSome ∧ isTxNonMalleable v.library L tx inputTxs = false)
    "policy-onchain-funding-non-malleable" "validate_onchain_tx"
    "funding tx has non-segwit-native input"
  let (beneficialSum, unknowns) ← v.addOutputs L wallet channels opaths 0 0 tx.output
  refuseIf (unknowns ≠ []) (.validation (.unknownDestinations "" unknowns))
  let sum ← sumInputs 0 valuesSat
  withFunction "validate_onchain_tx"
    (v.validateBeneficialValue sum beneficialSum weightLowerBound)

/-! ## What the checks establish -/

/-- The destination of an output is known: the wallet, the allowlist, or a channel it funds. -/
inductive KnownDestination (output : TxOut) (opath : List Nat) : Option FundingSlot → Prop where
  | wallet {slot} (h : wallet.canSpend opath output.scriptPubkey = .ok true) :
    KnownDestination output opath slot
  | allowlist {slot} (h : wallet.allowlistContains output.scriptPubkey opath = .ok true) :
    KnownDestination output opath slot
  | channel {keys setup estate} (value : output.value = setup.channelValueSat)
      (script : output.scriptPubkey = v.fundingScript L keys)
      (initial : estate.nextHolderCommitNum = 1) (outbound : setup.isOutbound = true)
      (push : setup.pushValueMsat / 1000 = 0) :
    KnownDestination output opath (some (.ready keys setup estate))

section DefaultFilter

variable {v L wallet} {output : TxOut} {opath : List Nat} {slot : Option FundingSlot}
  {outndx sum sum' : Nat}

theorem addBeneficialOutput_ok {value : Nat} {which : String}
    (h : addBeneficialOutput sum value which = .ok sum') : sum' = sum + value :=
  (checkedAdd_eq_ok.mp h).2.symm

variable (hfilter : v.policy.filter = .default)

include hfilter

/-- Under the default filter an output with a path goes to the wallet or the allowlist. -/
theorem addPathOutput_ok (h : v.addPathOutput wallet outndx output opath sum = .ok sum') :
    sum' = sum + output.value ∧ KnownDestination v L wallet output opath slot := by
  obtain ⟨spendable, hspendable, h⟩ := bind_ok h
  rw [orWalletError_eq_ok] at hspendable
  cases spendable with
  | true => exact ⟨addBeneficialOutput_ok h, .wallet hspendable⟩
  | false =>
    obtain ⟨allowed, hallowed, h⟩ := bind_ok h
    rw [Asserted.lift_eq_ok] at hallowed
    cases allowed with
    | true => exact ⟨addBeneficialOutput_ok h, .allowlist hallowed⟩
    | false =>
      obtain ⟨u, hknown, -⟩ := bind_ok h
      rw [hfilter, PolicyFilter.default_policyErr_eq_ok] at hknown
      exact absurd trivial hknown

/-- Under the default filter an output that funds a channel matches it. -/
theorem addFundingOutput_ok {keys : InMemorySigner} {setup : ChannelSetup}
    {estate : EnforcementState} (h : v.addFundingOutput L output keys setup estate sum = .ok sum') :
    sum' = sum + output.value ∧
      KnownDestination v L wallet output opath (some (.ready keys setup estate)) := by
  obtain ⟨u, hvalue, h⟩ := bind_ok h
  obtain ⟨u, hscript, h⟩ := bind_ok h
  obtain ⟨u, hinitial, h⟩ := bind_ok h
  obtain ⟨u, hout, h⟩ := bind_ok h
  obtain ⟨u, hpush, h⟩ := bind_ok h
  obtain ⟨u, -, h⟩ := bind_ok h
  rw [hfilter, PolicyFilter.default_policyErr_eq_ok] at hvalue hscript hinitial hout hpush
  rw [not_not] at hvalue hscript hinitial
  rw [Bool.not_eq_false] at hout
  have hpush : setup.pushValueMsat / 1000 = 0 := by omega
  rw [hpush, Nat.sub_zero] at h
  exact ⟨hvalue ▸ addBeneficialOutput_ok h, .channel hvalue hscript hinitial hout hpush⟩

/-- Under the default filter an output that is counted has a known destination, and is counted in
full. -/
theorem addOutput_ok (h : v.addOutput L wallet outndx output opath slot sum = .ok (some sum')) :
    sum' = sum + output.value ∧ KnownDestination v L wallet output opath slot := by
  unfold addOutput at h
  split_ifs at h with hpath
  · obtain ⟨next, hnext, h⟩ := bind_ok h
    obtain rfl := Option.some.inj (pure_eq_ok.mp h)
    exact addPathOutput_ok hfilter hnext
  · rw [not_not] at hpath
    subst hpath
    obtain ⟨allowed, hallowed, h⟩ := bind_ok h
    rw [Asserted.lift_eq_ok] at hallowed
    cases allowed with
    | true =>
      obtain ⟨next, hnext, h⟩ := bind_ok h
      obtain rfl := Option.some.inj (pure_eq_ok.mp h)
      exact ⟨addBeneficialOutput_ok hnext, .allowlist hallowed⟩
    | false =>
      rw [if_neg Bool.false_ne_true] at h
      match slot, h with
      | some (.ready keys setup estate), h =>
        obtain ⟨next, hnext, h⟩ := bind_ok h
        obtain rfl := Option.some.inj (pure_eq_ok.mp h)
        exact addFundingOutput_ok hfilter hnext

/-- Under the default filter the outputs that are not reported have known destinations, and the sum
is theirs. -/
theorem addOutputs_ok {channels : List (Option FundingSlot)} {opaths : List (List Nat)}
    {outputs : List TxOut}
    (h : v.addOutputs L wallet channels opaths outndx sum outputs = .ok (sum', [])) :
    sum' = sum + (outputs.map TxOut.value).sum ∧
      ∀ i output, outputs[i]? = some output →
        ∃ opath slot, opaths[outndx + i]? = some opath ∧ channels[outndx + i]? = some slot ∧
          KnownDestination v L wallet output opath slot := by
  induction outputs generalizing outndx sum with
  | nil =>
    obtain ⟨rfl, -⟩ := Prod.mk.inj (Except.ok.inj h)
    exact ⟨rfl, fun i output hi => by simp at hi⟩
  | cons out outputs ih =>
    obtain ⟨opath, hopath, h⟩ := bind_ok h
    obtain ⟨slot, hslot, h⟩ := bind_ok h
    obtain ⟨next, hnext, h⟩ := bind_ok h
    rw [expect_eq_ok] at hopath hslot
    cases next with
    | none =>
      obtain ⟨⟨sum'', unknowns⟩, -, h⟩ := bind_ok h
      cases pure_eq_ok.mp h
    | some next =>
      obtain ⟨rfl, hknown⟩ := addOutput_ok hfilter hnext
      obtain ⟨rfl, hrest⟩ := ih h
      refine ⟨by rw [List.map_cons, List.sum_cons, Nat.add_assoc], fun i output hi => ?_⟩
      cases i with
      | zero =>
        cases hi
        exact ⟨opath, slot, hopath, hslot, hknown⟩
      | succ i =>
        obtain ⟨opath', slot', hopath', hslot', hknown'⟩ := hrest i output hi
        rw [Nat.add_right_comm] at hopath' hslot'
        exact ⟨opath', slot', hopath', hslot', hknown'⟩

end DefaultFilter

end SimpleValidator

theorem sumInputs_ok {sum sum' : Nat} {values : List Nat} (h : sumInputs sum values = .ok sum') :
    sum' = sum + values.sum := by
  induction values generalizing sum with
  | nil => exact (Except.ok.inj h).symm
  | cons value values ih =>
    obtain ⟨next, hnext, h⟩ := bind_ok h
    obtain ⟨-, rfl⟩ := checkedAdd_eq_ok.mp hnext
    rw [ih h, List.sum_cons, Nat.add_assoc]

/-- The inputs of a transaction that is not malleable spend native segwit outputs. -/
theorem isTxNonMalleable_eq_true {library : Library} {L : OnchainLibrary} {tx : Transaction}
    {inputTxs : List Transaction} (h : isTxNonMalleable library L tx inputTxs = true) :
    ∀ inp ∈ tx.input, ∃ inTx ∈ inputTxs, library.txid inTx = inp.previousOutput.txid ∧
      ∃ txout, inTx.output[inp.previousOutput.vout]? = some txout ∧
        L.isWitnessProgram txout.scriptPubkey = true := by
  intro inp hinp
  have h := List.all_eq_true.mp h inp hinp
  split at h
  · cases h
  · rename_i inTx hlast
    have hmem := List.mem_of_getLast? hlast
    rw [List.mem_filter, decide_eq_true_eq] at hmem
    split at h
    · cases h
    · rename_i txout hout
      exact ⟨inTx, hmem.1, hmem.2, txout, hout, h⟩

/-- How an input is spent. -/
inductive SpendType where
  | invalid
  | p2pkh
  | p2wpkh
  | p2shP2wpkh
  | p2wsh
  deriving DecidableEq

/-- A wallet transaction to be signed.  A key of a unilateral close comes with the end of its
witness stack. -/
structure OnchainRequest where
  tx : Transaction
  inputTxs : List Transaction
  valuesSat : List Nat
  spendtypes : List SpendType
  uniclosekeys : List (Option (List (List UInt8)))
  opaths : List (List Nat)

/-- The weight that signing an input adds at least. -/
def witnessWeight : SpendType → Option (List (List UInt8)) → Nat
  | .invalid, _ => 0
  | _, some stack => 2 + 1 + 1 + 72 + 1 + (stack.map fun element => 1 + element.length).sum
  | _, none => 2 + 1 + 1 + 72 + 1 + 33

/-- Add the weight of the witnesses from an index on. -/
def addWitnessWeights (spendtypes : List SpendType) :
    Nat → Nat → List (Option (List (List UInt8))) → Result Nat
  | _, weight, [] => .ok weight
  | idx, weight, uck :: ucks => do
    let spendtype ← expect "index out of bounds" spendtypes[idx]?
    addWitnessWeights spendtypes (idx + 1) (weight + witnessWeight spendtype uck) ucks

/-- The ready channel with a funding outpoint. -/
def findChannelWithFundingOutpoint (slots : List FundingSlot) (outpoint : OutPoint) :
    Option FundingSlot :=
  slots.find? fun
    | .ready _ setup _ => setup.fundingOutpoint = outpoint
    | .stub => false

/-- The text a validation error is passed on with. -/
def ValidationError.display : ValidationError → String
  | .transactionFormat s => "TransactionFormat(\"" ++ s ++ "\")"
  | .scriptFormat s => "ScriptFormat(\"" ++ s ++ "\")"
  | .mismatch s => "Mismatch(\"" ++ s ++ "\")"
  | .policy s => "Policy(\"" ++ s ++ "\")"
  | .temporaryPolicy s => "TemporaryPolicy(\"" ++ s ++ "\")"
  | .unknownDestinations s indices =>
    "UnknownDestinations(\"" ++ s ++ "\", " ++ toString indices ++ ")"

namespace SimpleValidator

variable (v : SimpleValidator) (L : OnchainLibrary) (wallet : Wallet) (slots : List FundingSlot)
  (req : OnchainRequest)

/-- The channels that the outputs of a transaction fund. -/
def fundedChannels : List (Option FundingSlot) :=
  (List.range req.tx.output.length).map fun ndx =>
    findChannelWithFundingOutpoint slots ⟨v.library.txid req.tx, ndx⟩

/-- A lower bound of the weight of the signed transaction. -/
def weightLowerBound : Result Nat :=
  addWitnessWeights req.spendtypes 0 (L.weight req.tx) req.uniclosekeys

/-- The check of a wallet transaction against the channels of the node. -/
def checkDestinations (weight : Nat) : Result Nat :=
  v.validateOnchainTx L wallet (v.fundedChannels slots req) req.tx req.inputTxs req.valuesSat
    req.opaths weight

/-- Check a wallet transaction and record what it spends without benefit. -/
def checkOnchainTx (now : Nat) : Effect NodeState Refusal Unit := do
  let weight ← lift (weightLowerBound L req)
  let nonBeneficial ← lift (v.checkDestinations L wallet slots req weight)
  NodeState.checkOnchainFee v.overflow v.toValidator now nonBeneficial

/-- What the caller makes of the result of a check: unknown destinations are put to the approver. -/
def approveUnknown (approve : Transaction → List Nat → List Nat → Bool) :
    Result Unit → Result Bool
  | .ok () => .ok true
  | .error (.refuse (.validation (.unknownDestinations _ indices))) =>
    .ok (approve req.tx req.valuesSat indices)
  | .error (.refuse (.validation e)) => .error (.refuse (failedPrecondition e.display))
  | .error fault => .error fault

/-- Check a wallet transaction, with unknown destinations put to the approver. -/
def handleProposedOnchain (approve : Transaction → List Nat → List Nat → Bool) (now : Nat) :
    Effect NodeState Refusal Bool :=
  ExceptT.mk fun s =>
    match exec (v.checkOnchainTx L wallet slots req now) s with
    | (r, t) => (approveUnknown req approve r, t)

end SimpleValidator

/-! ## Known destinations -/

/-- A wallet transaction that passes the check pays the wallet, the allowlist and channels it funds
only; the result is the exact difference of inputs and outputs; and when it funds a channel all its
inputs spend native segwit outputs. -/
theorem onchain_known_destinations {v : SimpleValidator} {L : OnchainLibrary} {wallet : Wallet}
    (hfilter : v.policy.filter = .default) (hflags : v.policy.devFlags = none)
    {channels : List (Option FundingSlot)} {tx : Transaction} {inputTxs : List Transaction}
    {valuesSat : List Nat} {opaths : List (List Nat)} {weight nonBeneficial : Nat}
    (h : v.validateOnchainTx L wallet channels tx inputTxs valuesSat opaths weight =
      .ok nonBeneficial) :
    (∀ (i : Nat) output, tx.output[i]? = some output →
      ∃ opath slot, opaths[i]? = some opath ∧ channels[i]? = some slot ∧
        KnownDestination v L wallet output opath slot) ∧
      (nonBeneficial : Int) = valuesSat.sum - (tx.output.map TxOut.value).sum ∧
      ((∃ slot ∈ channels, slot ≠ none) →
        ∀ inp ∈ tx.input, ∃ inTx ∈ inputTxs, v.library.txid inTx = inp.previousOutput.txid ∧
          ∃ txout, inTx.output[inp.previousOutput.vout]? = some txout ∧
            L.isWitnessProgram txout.scriptPubkey = true) := by
  obtain ⟨u, -, h⟩ := bind_ok h
  obtain ⟨u, -, h⟩ := bind_ok h
  obtain ⟨u, hmalleable, h⟩ := bind_ok h
  obtain ⟨⟨beneficialSum, unknowns⟩, houtputs, h⟩ := bind_ok h
  obtain ⟨u, hunknowns, h⟩ := bind_ok h
  obtain ⟨sum, hsum, h⟩ := bind_ok h
  rw [refuseIf_eq_ok, not_not] at hunknowns
  subst hunknowns
  obtain ⟨rfl, hknown⟩ := addOutputs_ok hfilter houtputs
  obtain rfl := sumInputs_ok hsum
  obtain ⟨hcovered, rfl, -⟩ := validateBeneficialValue_ok hfilter hflags (withFunction_eq_ok.mp h)
  rw [hfilter, PolicyFilter.default_policyErr_eq_ok] at hmalleable
  refine ⟨fun i output hi => ?_, by omega, fun ⟨slot, hslot, hsome⟩ => ?_⟩
  · obtain ⟨opath, slot, hopath, hslot, hdestination⟩ := hknown i output hi
    rw [Nat.zero_add] at hopath hslot
    exact ⟨opath, slot, hopath, hslot, hdestination⟩
  · refine isTxNonMalleable_eq_true ?_
    by_contra hfalse
    refine hmalleable ⟨List.any_eq_true.mpr ⟨slot, hslot, ?_⟩, Bool.not_eq_true _ ▸ hfalse⟩
    exact Option.isSome_iff_ne_none.mpr hsome

namespace Sample

/-- A library in which every output is native segwit. -/
def onchainLibrary : OnchainLibrary where
  size := fun _ => 200
  weight := fun _ => 600
  isWitnessProgram := fun _ => true
  payloadForP2wsh := fun script => 0 :: script
  display := fun _ => ""

/-- A wallet with nothing in it. -/
def emptyWallet : Wallet := ⟨fun _ _ => .ok false, fun _ _ => .ok false⟩

/-- The channel after its first commitment has been accepted. -/
def fundingSlot : FundingSlot := .ready keys setup { EnforcementState.new 0 with
  nextHolderCommitNum := 1 }

/-- A transaction that spends the only output of another. -/
def onchainTx (output : List TxOut) : Transaction := ⟨2, 0, [⟨⟨0, 0⟩, [], 0, []⟩], output⟩

/-- The transaction whose output is spent. -/
def previousTx : Transaction := ⟨2, 0, [], [⟨1001000, []⟩]⟩

end Sample

/-- A transaction that funds the channel. -/
theorem onchain_known_destinations_funding :
    (validator .wrapping).validateOnchainTx onchainLibrary emptyWallet
        [some fundingSlot] (onchainTx [⟨1000000, [0]⟩]) [previousTx] [1001000]
        [[]] 710 = .ok 1000 ∧
      KnownDestination (validator .wrapping) onchainLibrary emptyWallet
        ⟨1000000, [0]⟩ [] (some fundingSlot) := by
  have h : (validator .wrapping).validateOnchainTx onchainLibrary emptyWallet
      [some fundingSlot] (onchainTx [⟨1000000, [0]⟩]) [previousTx] [1001000]
      [[]] 710 = .ok 1000 := by
    decide +kernel
  obtain ⟨opath, slot, hopath, hslot, hknown⟩ :=
    (onchain_known_destinations rfl rfl h).1 0 ⟨1000000, [0]⟩ rfl
  cases hopath
  cases hslot
  exact ⟨h, hknown⟩

/-! ## Approved destinations -/

section Approval

variable (v : SimpleValidator) (L : OnchainLibrary) (wallet : Wallet) (slots : List FundingSlot)
  (approve : Transaction → List Nat → List Nat → Bool) (now : Nat) (s : NodeState)
  (req : OnchainRequest)

/-- The check reports unknown destinations, and the approver approves them. -/
def ApprovesUnknown (weight : Nat) : Prop :=
  weightLowerBound L req = .ok weight ∧
    ∃ message indices, v.checkDestinations L wallet slots req weight =
        .error (.refuse (.validation (.unknownDestinations message indices))) ∧
      approve req.tx req.valuesSat indices = true

/-- What a transaction spends beyond its outputs is within the highest feerate, and recording it
turns the velocity control for fees into `control`. -/
def FeeCharged (weight : Nat) (control : VelocityControl) : Prop :=
  ∃ excess, req.valuesSat.sum = (req.tx.output.map TxOut.value).sum + excess ∧
    feeratePerKw excess weight ≤ v.policy.maxFeeratePerKw ∧
    s.feeVelocityControl.insert v.overflow (durationAsSecs now) (excess * 1000) =
      .ok (true, control)

variable {v L wallet slots approve now s req}

/-- Approved unknown destinations end the request: nothing is recorded. -/
theorem exec_handleProposedOnchain {weight : Nat}
    (h : ApprovesUnknown v L wallet slots approve req weight) :
    exec (v.handleProposedOnchain L wallet slots req approve now) s = (.ok true, s) := by
  obtain ⟨hweight, message, indices, hcheck, happrove⟩ := h
  have hexec : exec (v.checkOnchainTx L wallet slots req now) s =
      (.error (.refuse (.validation (.unknownDestinations message indices))), s) := by
    rw [checkOnchainTx, hweight, exec_bind, exec_lift]
    simp only [hcheck]
    rw [exec_bind, exec_lift]
  change (approveUnknown req approve (exec (v.checkOnchainTx L wallet slots req now) s).1,
    (exec (v.checkOnchainTx L wallet slots req now) s).2) = _
  rw [hexec]
  exact congrArg (fun b => (Except.ok b, s)) happrove

end Approval

/-- The fee of an approved transaction is bounded and recorded iff recording it leaves the velocity
control as it is: the approval of unknown destinations waives the checks on the fee. -/
theorem approval_charges_fee_iff (v : SimpleValidator) (L : OnchainLibrary) (wallet : Wallet)
    (slots : List FundingSlot) (approve : Transaction → List Nat → List Nat → Bool) (now : Nat)
    (s : NodeState) (req : OnchainRequest) :
    (∀ weight t, ApprovesUnknown v L wallet slots approve req weight →
      exec (v.handleProposedOnchain L wallet slots req approve now) s = (.ok true, t) →
      FeeCharged v now s req weight t.feeVelocityControl) ↔
    ∀ weight, ApprovesUnknown v L wallet slots approve req weight →
      FeeCharged v now s req weight s.feeVelocityControl := by
  constructor
  · intro h weight happroves
    exact h weight s happroves (exec_handleProposedOnchain happroves)
  · intro h weight t happroves hexec
    obtain ⟨-, rfl⟩ := Prod.mk.inj ((exec_handleProposedOnchain happroves).symm.trans hexec)
    exact h weight happroves

namespace Sample

/-- A transaction that pays one satoshi to an unknown destination and a bitcoin in fees. -/
def unknownRequest : OnchainRequest where
  tx := onchainTx [⟨1, [9]⟩]
  inputTxs := []
  valuesSat := [100000001]
  spendtypes := [.p2wpkh]
  uniclosekeys := [none]
  opaths := [[]]

end Sample

/-- A bitcoin in fees is signed away with one approved satoshi: the feerate is far above the maximum
and nothing is recorded. -/
theorem approval_waives_fee :
    let v := validator .wrapping
    let req := unknownRequest
    v.checkDestinations onchainLibrary emptyWallet [] req 710 =
        .error (.refuse (.validation (.unknownDestinations "" [0]))) ∧
      (exec (v.handleProposedOnchain onchainLibrary emptyWallet [] req
        (fun _ _ _ => true) 0) node).1 = .ok true ∧
      (exec (v.handleProposedOnchain onchainLibrary emptyWallet [] req
        (fun _ _ _ => true) 0) node).2.feeVelocityControl =
          node.feeVelocityControl ∧
      v.policy.maxFeeratePerKw < feeratePerKw 100000000 710 := by
  decide +kernel

end ValidatingSigner
