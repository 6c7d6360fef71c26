import Vls.Basic

/-!
# Errors, filters and policies

The errors a request can be refused with, the filter that may demote a policy violation to a
warning, and the policy a `SimpleValidator` is configured with.
-/

namespace ValidatingSigner

open Base

/-- Why a validator refuses a transaction or a step. -/
inductive ValidationError where
  | transactionFormat (message : String)
  | scriptFormat (message : String)
  | mismatch (message : String)
  | policy (message : String)
  | temporaryPolicy (message : String)
  | unknownDestinations (message : String) (indices : List Nat)
  deriving DecidableEq

/-- The status code a refused request is answered with. -/
inductive Code where
  | invalidArgument
  | failedPrecondition
  | internal
  | temporary
  deriving DecidableEq

/-- The status a refused request is answered with. -/
structure Status where
  code : Code
  message : String
  deriving DecidableEq

/-- The text of a validation error. -/
def ValidationError.text : ValidationError → String
  | .transactionFormat s => "transaction format: " ++ s
  | .scriptFormat s => "script format: " ++ s
  | .mismatch s => "script template mismatch: " ++ s
  | .policy s => "policy failure: " ++ s
  | .temporaryPolicy s => "temporary policy failure: " ++ s
  | .unknownDestinations s indices => s!"unknown destinations: {s} {indices}"

/-- The status a validation error is answered with. -/
def ValidationError.toStatus : ValidationError → Status
  | .temporaryPolicy s => ⟨.temporary, s⟩
  | e => ⟨.failedPrecondition, e.text⟩

/-- What a request is refused with: a validation error, or a status of its own. -/
inductive Refusal where
  | validation (error : ValidationError)
  | status (status : Status)
  deriving DecidableEq

/-- The status a refusal is answered with. -/
def Refusal.toStatus : Refusal → Status
  | .validation e => e.toStatus
  | .status s => s

/-- The result of a step of the signer. -/
abbrev Result := Except (Fault Refusal)

/-- Refuse with a policy error that no filter can demote. -/
def policyError (message : String) : Refusal := .validation (.policy message)

/-- What the holder of a channel begins with in millisatoshi, which must not be negative. -/
def ChannelSetup.toHolderMsat (setup : ChannelSetup) (o : Overflow) : Result Nat :=
  if setup.isOutbound then do
    let value ← o.u64 (setup.channelValueSat * 1000)
    let push := setup.pushValueMsat
    refuseIf (value < push) (policyError s!"beneficial channel value underflow: {value} - {push}")
    return value - push
  else .ok setup.pushValueMsat

/-- Refuse an argument. -/
def invalidArgument (message : String) : Refusal := .status ⟨.invalidArgument, message⟩

/-- Report an internal error. -/
def internalError (message : String) : Refusal := .status ⟨.internal, message⟩

/-- Report that the node is not in a state to serve the request. -/
def failedPrecondition (message : String) : Refusal := .status ⟨.failedPrecondition, message⟩

/-- What a filter makes of a policy violation. -/
inductive FilterResult where
  | error
  | warn
  deriving DecidableEq

/-- A rule of a policy filter. -/
structure FilterRule where
  tag : String
  isPrefix : Bool
  action : FilterResult
  deriving DecidableEq

/-- A policy filter: its first matching rule decides. -/
structure PolicyFilter where
  rules : List FilterRule
  deriving DecidableEq

namespace PolicyFilter

variable {function message : String} {c : Prop} {tag : String}

/-- The filter without rules. -/
def default : PolicyFilter := ⟨[]⟩

/-- What the filter makes of a violation with tag `tag`. -/
def filter (f : PolicyFilter) (tag : String) : FilterResult :=
  match f.rules.find? fun rule => if rule.isPrefix then rule.tag.isPrefixOf tag else tag == rule.tag
  with
  | some rule => rule.action
  | none => .error

/-- Report a policy violation, as an error or a warning. -/
def policyError (f : PolicyFilter) (tag message : String) : Result Unit :=
  if f.filter tag = .error then .error (.refuse (.validation (.policy message))) else .ok ()

/-- Report a temporary policy violation, as an error or a warning. -/
def temporaryPolicyError (f : PolicyFilter) (tag message : String) : Result Unit :=
  if f.filter tag = .error then .error (.refuse (.validation (.temporaryPolicy message)))
  else .ok ()

/-- Report a policy violation in `function` when `c` holds. -/
def policyErr (f : PolicyFilter) (c : Prop) [Decidable c] (tag function message : String) :
    Result Unit :=
  if c then f.policyError tag (function ++ ": " ++ message) else .ok ()

/-- Report a temporary policy violation in `function` when `c` holds. -/
def temporaryPolicyErr (f : PolicyFilter) (c : Prop) [Decidable c]
    (tag function message : String) : Result Unit :=
  if c then f.temporaryPolicyError tag (function ++ ": " ++ message) else .ok ()

@[simp] theorem default_filter (tag : String) : default.filter tag = .error := rfl

/-- Under the default filter a check passes exactly when it finds no violation. -/
@[simp] theorem default_policyErr_eq_ok [Decidable c] {u : Unit} :
    default.policyErr c tag function message = .ok u ↔ ¬ c := by
  by_cases h : c <;> simp [policyErr, policyError, h]

theorem policyErr_of_not {f : PolicyFilter} [Decidable c] (h : ¬ c) :
    f.policyErr c tag function message = .ok () := by
  rw [policyErr, if_neg h]

/-- Under the default filter a check that does not refuse finds no violation. -/
theorem not_of_noRefusal [Decidable c] (h : NoRefusal (default.policyErr c tag function message)) :
    ¬ c :=
  fun hc => h _ (if_pos hc)

theorem policyErr_ne_abort {f : PolicyFilter} [Decidable c] {tag m : String} :
    f.policyErr c tag function message ≠ .error (.abort m) := by
  unfold policyErr policyError
  split_ifs <;> simp

end PolicyFilter

/-- The span over which a velocity limit applies. -/
inductive VelocityControlIntervalType where
  | hourly
  | daily
  | unlimited
  deriving DecidableEq

/-- A velocity limit as configured. -/
structure VelocityControlSpec where
  limitMsat : Nat
  intervalType : VelocityControlIntervalType
  deriving DecidableEq

/-- The configuration of a `SimpleValidator`. -/
structure SimplePolicy where
  minDelay : Nat
  maxDelay : Nat
  maxChannelSizeSat : Nat
  epsilonSat : Nat
  maxHtlcs : Nat
  maxHtlcValueSat : Nat
  useChainState : Bool
  minFeeratePerKw : Nat
  maxFeeratePerKw : Nat
  enforceBalance : Bool
  maxRoutingFeeMsat : Nat
  /-- The developer flag `disable_beneficial_balance_checks`, when flags are given. -/
  devFlags : Option Bool
  filter : PolicyFilter
  globalVelocityControl : VelocityControlSpec
  maxChannels : Nat
  maxInvoices : Nat
  feeVelocityControl : VelocityControlSpec
  deriving DecidableEq

/-- The networks a node runs on. -/
inductive Network where
  | bitcoin
  | testnet
  | signet
  | regtest
  deriving DecidableEq

/-- The policy a node uses unless it is configured with another. -/
def makeSimplePolicy : Network → SimplePolicy
  | .bitcoin =>
    { minDelay := 144
      maxDelay := 2016
      maxChannelSizeSat := 1000000001
      epsilonSat := 10000
      maxHtlcs := 1000
      maxHtlcValueSat := 16777216
      useChainState := false
      minFeeratePerKw := 253
      maxFeeratePerKw := 25000
      enforceBalance := false
      maxRoutingFeeMsat := 10000
      devFlags := none
      filter := .default
      globalVelocityControl := ⟨0, .unlimited⟩
      maxChannels := 1000
      maxInvoices := 1000
      feeVelocityControl := ⟨1000000000, .daily⟩ }
  | _ =>
    { minDelay := 4
      maxDelay := 2016
      maxChannelSizeSat := 1000000001
      epsilonSat := 10000
      maxHtlcs := 1000
      maxHtlcValueSat := 16777216
      useChainState := false
      minFeeratePerKw := 253
      maxFeeratePerKw := 151000
      enforceBalance := false
      maxRoutingFeeMsat := 120000
      devFlags := none
      filter := .default
      globalVelocityControl := ⟨0, .unlimited⟩
      maxChannels := 1000
      maxInvoices := 1000
      feeVelocityControl := ⟨1000000000, .daily⟩ }

end ValidatingSigner
