import Vls.Channel.Machine
import Vls.Policy.MutualClose

/-!
# What a signed close pays

A close is signed only when neither commitment has HTLCs, the side that does not pay the fee gets
its share of both commitments, and the holder's output goes to the wallet or the allowlist.  This
does not depend on which of the two assignments of the outputs was found.
-/

namespace ValidatingSigner

open Base Effect SimpleValidator Sample

/-- The channel checks closes with a simple validator, whatever wraps it. -/
structure ClosesWith (ch : Channel) (v : SimpleValidator) (L : ClosingLibrary) (wallet : Wallet) :
    Prop where
  decode : ch.validator.decodeAndValidateMutualCloseTx = v.decodeAndValidateMutualCloseTx L wallet
  validate : ∀ setup e toHolder toCounterparty holderScript counterpartyScript path,
    ch.validator.validateMutualCloseTx setup e toHolder toCounterparty holderScript
        counterpartyScript path =
      v.validateMutualCloseTx L wallet setup e
        ⟨toHolder, toCounterparty, holderScript, counterpartyScript, path⟩

/-- Both a simple validator and the on-chain validator around it check closes as it does. -/
theorem closesWith_of_eq {ch : Channel} {v : SimpleValidator} {L : ClosingLibrary} {wallet : Wallet}
    (h : ch.validator = (v.withCloses L wallet).toValidator ∨
      ch.validator = (v.withCloses L wallet).onchain.toValidator) : ClosesWith ch v L wallet := by
  rcases h with h | h
  · exact ⟨by rw [h]; rfl, fun _ _ _ _ _ _ _ => by rw [h]; rfl⟩
  · exact ⟨by rw [h]; rfl, fun _ _ _ _ _ _ _ => by rw [h]; rfl⟩

/-- A close that leaves the holder what the commitments give it, up to the fee. -/
structure ProtectsHolder (policy : SimplePolicy) (L : ClosingLibrary) (wallet : Wallet)
    (setup : ChannelSetup) (e : EnforcementState) (closing : ClosingTransaction)
    (path : List Nat) : Prop where
  commitments : ∃ holderInfo counterpartyInfo, e.currentHolderCommitInfo = some holderInfo ∧
    e.currentCounterpartyCommitInfo = some counterpartyInfo ∧
    holderInfo.htlcsIsEmpty ∧ counterpartyInfo.htlcsIsEmpty ∧
    (setup.isOutbound = false →
      Near policy.epsilonSat closing.toHolderValueSat holderInfo.toBroadcasterValueSat ∧
        Near policy.epsilonSat closing.toHolderValueSat
          counterpartyInfo.toCountersignerValueSat) ∧
    (setup.isOutbound = true →
      Near policy.epsilonSat closing.toCounterpartyValueSat
          counterpartyInfo.toBroadcasterValueSat ∧
        Near policy.epsilonSat closing.toCounterpartyValueSat holderInfo.toCountersignerValueSat)
  fee : setup.isOutbound = true →
    setup.channelValueSat ≤ closing.toHolderValueSat + closing.toCounterpartyValueSat +
      maxFee policy.maxFeeratePerKw (mutualCloseTxWeight L (L.builtTransaction closing))
  destination : 0 < closing.toHolderValueSat →
    wallet.canSpend path closing.toHolderScript = .ok true ∨
      wallet.allowlistContains closing.toHolderScript path = .ok true
  shutdown : 0 < closing.toHolderValueSat → setup.holderShutdownScript ≠ none →
    setup.holderShutdownScript = some closing.toHolderScript
  outputs : (L.builtTransaction closing).output.Perm closing.outputs

section Protection

variable {v : SimpleValidator} {L : ClosingLibrary} {wallet : Wallet} {setup : ChannelSetup}
  {e : EnforcementState} {args : ValidateArgs}

/-- The fee of an accepted close is at most that of the highest feerate. -/
theorem fee_le_of_terms (hpolicy : v.policy = makeSimplePolicy .bitcoin) (hL : L.Lawful)
    (hvalue : setup.channelValueSat ≤ v.policy.maxChannelSizeSat)
    {holderInfo counterpartyInfo : CommitmentInfo2}
    (h : CloseTerms v L setup e args holderInfo counterpartyInfo) :
    setup.channelValueSat ≤ args.toHolderValueSat + args.toCounterpartyValueSat +
      maxFee v.policy.maxFeeratePerKw
        (mutualCloseTxWeight L (L.builtTransaction (args.closing setup.fundingOutpoint))) := by
  have hfilter : v.policy.filter = .default := by rw [hpolicy]; rfl
  have hvalue : setup.channelValueSat ≤ 1000000001 := by rwa [hpolicy] at hvalue
  obtain ⟨hcovered, r, hr, -, hmax⟩ := validateFee_ok hfilter h.fee
  have hbuilt := hL.weight_built (args.closing setup.fundingOutpoint)
  have hweight : 426 ≤ mutualCloseTxWeight L
      (L.builtTransaction (args.closing setup.fundingOutpoint)) := by
    unfold mutualCloseTxWeight EXPECTED_MUTUAL_CLOSE_WITNESS_WEIGHT
    omega
  have hexact := (estimable_of_le (o := v.overflow) ((Nat.sub_le _ _).trans hvalue)
    (le_trans (by decide) hweight)).eq_of_estimate hr
  have hpos : 1000 ≤ (v.policy.maxFeeratePerKw + 1) * mutualCloseTxWeight L
      (L.builtTransaction (args.closing setup.fundingOutpoint)) := by
    rw [hpolicy]
    change 1000 ≤ 25001 * _
    omega
  rw [hexact, feeratePerKw_le_iff (by omega) hpos] at hmax
  omega

/-- A close that passes the checks protects the holder. -/
theorem protectsHolder (hpolicy : v.policy = makeSimplePolicy .bitcoin) (hL : L.Lawful)
    (hvalue : setup.channelValueSat ≤ v.policy.maxChannelSizeSat)
    (h : v.validateMutualCloseTx L wallet setup e args = .ok ()) :
    ProtectsHolder v.policy L wallet setup e (args.closing setup.fundingOutpoint)
      args.walletPath := by
  have hfilter : v.policy.filter = .default := by rw [hpolicy]; rfl
  obtain ⟨u, hterms, hdestination⟩ := bind_ok h
  obtain ⟨holderInfo, counterpartyInfo, hterms⟩ := (validateCloseTerms_eq_ok hfilter).mp hterms
  have hscript : 0 < args.toHolderValueSat → ∃ script, args.holderScript = some script ∧
      (args.closing setup.fundingOutpoint).toHolderScript = script := by
    intro hpos
    obtain ⟨script, hscript⟩ := Option.ne_none_iff_exists'.mp (hterms.holderScript hpos)
    refine ⟨script, hscript, ?_⟩
    change args.holderScript.getD [] = script
    rw [hscript]
    rfl
  exact {
    commitments := ⟨holderInfo, counterpartyInfo, hterms.holder, hterms.counterparty,
      hterms.holderHtlcs, hterms.counterpartyHtlcs, hterms.inbound, hterms.outbound⟩
    fee := fun _ => fee_le_of_terms hpolicy hL hvalue hterms
    destination := fun hpos => by
      obtain ⟨script, hsome, rfl⟩ := hscript hpos
      exact validateCloseDestination_ok hfilter hsome hdestination
    shutdown := fun hpos hupfront => by
      obtain ⟨script, hsome, rfl⟩ := hscript hpos
      rw [← hterms.shutdown hupfront hpos, hsome]
    outputs := hL.outputs _ }

end Protection

/-! ## Signing -/

section Signing

variable (ch : Channel) (call : Call) (s : Session)

/-- The end of a request that has signed a close: the state is stored. -/
def closeStored (signed : SignedClose) : Result SignedClose := do
  refuseIf (call.persistOk = false) (internalError "persist failed")
  return signed

theorem fst_exec_closeWith (signed : SignedClose) :
    (exec (Channel.closeWith call signed) s).1 = closeStored call signed := by
  rw [Channel.closeWith, exec_modify_bind, persist, closeStored, exec_bind]
  cases call.persistOk <;> rfl

/-- The answer to a request to sign a transaction as a close. -/
theorem fst_exec_signMutualCloseTx (tx : Transaction) (opaths : List (List Nat)) :
    (exec (ch.signMutualCloseTx call tx opaths) s).1 =
      (refuseIf (opaths.length ≠ tx.output.length)
        (invalidArgument (s!"sign_mutual_close_tx: bad opath len {opaths.length} " ++
          s!"with tx.output len {tx.output.length}")) >>= fun _ =>
        ch.validator.decodeAndValidateMutualCloseTx ch.setup s.estate tx opaths >>= fun closing =>
        orFailed "failed to sign" (ch.keys.signClosingTransaction closing) >>= fun sig =>
        closeStored call ⟨closing, sig⟩) := by
  rw [Channel.signMutualCloseTx, exec_get_bind, fst_exec_lift_bind]
  simp only [fst_exec_lift_bind, fst_exec_closeWith]

variable {call}

theorem closeStored_eq_ok {signed signed' : SignedClose} :
    closeStored call signed = .ok signed' ↔ call.persistOk = true ∧ signed = signed' := by
  rw [closeStored]
  cases call.persistOk <;> simp [refuseIf]

end Signing

/-- Every close that is signed protects the holder, whether it was given as a transaction or by its
values. -/
theorem mutual_close_protects {ch : Channel} {v : SimpleValidator} {L : ClosingLibrary}
    {wallet : Wallet} (hcloses : ClosesWith ch v L wallet)
    (hpolicy : v.policy = makeSimplePolicy .bitcoin) (hL : L.Lawful)
    (hvalue : ch.setup.channelValueSat ≤ v.policy.maxChannelSizeSat) (call : Call)
    (s t : Session) (signed : SignedClose) :
    (∀ tx opaths, exec (ch.signMutualCloseTx call tx opaths) s = (.ok signed, t) →
      L.builtTransaction signed.tx = tx ∧
        ∃ path ∈ [] :: opaths,
          (signed.tx.toHolderValueSat = 0 ∨
            (⟨signed.tx.toHolderValueSat, signed.tx.toHolderScript⟩, path) ∈
              tx.output.zip opaths) ∧
          ProtectsHolder v.policy L wallet ch.setup s.estate signed.tx path) ∧
      ∀ toHolder toCounterparty holderScript counterpartyScript path,
        exec (ch.signMutualCloseTxPhase2 call toHolder toCounterparty holderScript
          counterpartyScript path) s = (.ok signed, t) →
        signed.tx = ⟨toHolder, toCounterparty, holderScript.getD [], counterpartyScript.getD [],
          ch.setup.fundingOutpoint⟩ ∧
          ProtectsHolder v.policy L wallet ch.setup s.estate signed.tx path := by
  have hfilter : v.policy.filter = .default := by rw [hpolicy]; rfl
  constructor
  · intro tx opaths h
    have h := congrArg Prod.fst h
    rw [fst_exec_signMutualCloseTx, hcloses.decode] at h
    obtain ⟨u, -, h⟩ := bind_ok h
    obtain ⟨closing, hdecode, h⟩ := bind_ok h
    obtain ⟨sig, -, h⟩ := bind_ok h
    obtain ⟨-, rfl⟩ := closeStored_eq_ok.mp h
    obtain ⟨likely, unlikely, args, hassign, hargs, hvalid, rfl, hbuilt⟩ :=
      decodeAndValidateMutualCloseTx_ok hfilter hdecode
    obtain ⟨houtput, hpath⟩ := assignments_ok hassign args hargs
    refine ⟨hbuilt, args.walletPath, hpath, ?_, protectsHolder hpolicy hL hvalue hvalid⟩
    refine houtput.imp id fun ⟨script, hscript, hmem⟩ => ?_
    change ((⟨args.toHolderValueSat, args.holderScript.getD []⟩ : TxOut), args.walletPath) ∈ _
    rwa [hscript]
  · intro toHolder toCounterparty holderScript counterpartyScript path h
    have h := congrArg Prod.fst h
    rw [Channel.signMutualCloseTxPhase2, exec_get_bind, fst_exec_lift_bind, hcloses.validate] at h
    simp only [fst_exec_lift_bind, fst_exec_closeWith] at h
    obtain ⟨u, hvalid, h⟩ := bind_ok h
    obtain ⟨sig, -, h⟩ := bind_ok h
    obtain ⟨-, rfl⟩ := closeStored_eq_ok.mp h
    exact ⟨rfl, protectsHolder hpolicy hL hvalue hvalid⟩

namespace Sample

/-- A library that sorts outputs and gives every transaction the same weight. -/
def closingLibrary : ClosingLibrary where
  weight := fun _ => 600
  builtTransaction := fun tx => ⟨2, 0, [⟨tx.fundingOutpoint, [], 2 ^ 32 - 1, []⟩],
    tx.outputs.insertionSort OutputBefore⟩

theorem closingLibrary_lawful : closingLibrary.Lawful where
  outputs := fun tx => List.perm_insertionSort _ tx.outputs
  canonical := by
    intro tx tx' hfunding hperm
    simp only [closingLibrary, hfunding, insertionSort_eq_of_perm hperm]
  weight_built := fun _ => show 204 ≤ 600 by decide

/-- A wallet whose keys are at paths of one step, and pay every script. -/
def wallet : Wallet := ⟨fun path _ => .ok (path.length = 1), fun _ _ => .ok false⟩

/-- The channel with the checks on closes. -/
def closingChannel (o : Overflow) : Channel :=
  { channel o with validator := ((validator o).withCloses closingLibrary wallet).toValidator }

/-- A session in which both commitments pay the holder all but a fee. -/
def closingSession : Session :=
  let e : EnforcementState := { EnforcementState.new 0 with
    currentHolderCommitInfo := some (.new false ⟨22⟩ 0 ⟨21⟩ ⟨13⟩ 999000 144 [] [] 1000)
    currentCounterpartyCommitInfo := some (.new true ⟨12⟩ 999000 ⟨11⟩ ⟨23⟩ 0 144 [] [] 1000) }
  ⟨e, node, e⟩

end Sample

/-- A close that pays the holder is signed, and protects it. -/
theorem mutual_close_protects_sample :
    (exec ((Sample.closingChannel .wrapping).signMutualCloseTxPhase2 ⟨Sample.chain, true⟩ 999000 0
        (some [1]) none [7]) Sample.closingSession).1 =
      .ok ⟨⟨999000, 0, [1], [], ⟨0, 0⟩⟩, ⟨1⟩⟩ ∧
    ProtectsHolder (makeSimplePolicy .bitcoin) Sample.closingLibrary Sample.wallet Sample.setup
      Sample.closingSession.estate ⟨999000, 0, [1], [], ⟨0, 0⟩⟩ [7] := by
  have h : (exec ((closingChannel .wrapping).signMutualCloseTxPhase2 ⟨chain, true⟩
      999000 0 (some [1]) none [7]) closingSession).1 =
        .ok ⟨⟨999000, 0, [1], [], ⟨0, 0⟩⟩, ⟨1⟩⟩ := by
    decide +kernel
  refine ⟨h, ?_⟩
  exact ((mutual_close_protects (closesWith_of_eq (.inl rfl)) rfl closingLibrary_lawful
    (by decide) ⟨chain, true⟩ closingSession _ _).2 999000 0 (some [1]) none [7]
      (Prod.ext h rfl)).2

end ValidatingSigner
