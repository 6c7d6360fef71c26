import Vls.Keys.Manager

/-!
# The wallet of a node

A validator asks the wallet whether it can spend a script with the key at a derivation path, and
whether the script is on the allowlist.  The paths come with the request.  A path of the wrong
length is refused, and a path with an index that only a hardened step can have aborts.
-/

namespace ValidatingSigner

open Base

/-- The name of a status code. -/
def Code.name : Code → String
  | .invalidArgument => "InvalidArgument"
  | .failedPrecondition => "FailedPrecondition"
  | .internal => "Internal"
  | .temporary => "Temporary"

/-- The text of a status. -/
def Status.text (s : Status) : String :=
  "status: " ++ s.code.name ++ ", message: \"" ++ s.message ++ "\""

/-- What a validator asks the wallet. -/
structure Wallet where
  /-- Whether the key at a path can spend a script. -/
  canSpend : List Nat → Script → Result Bool
  /-- Whether a script, or a key derived at a path from an allowed key, is on the allowlist. -/
  allowlistContains : Script → List Nat → Asserted Bool

/-- The answer of the wallet, with its error as a policy error. -/
def orWalletError (text : String) : Result Bool → Result Bool
  | .error (.refuse e) => .error (.refuse (policyError (text ++ e.toStatus.text)))
  | r => r

theorem orWalletError_eq_ok {text : String} {r : Result Bool} {b : Bool} :
    orWalletError text r = .ok b ↔ r = .ok b := by
  rcases r with (_ | _) | _ <;> simp [orWalletError]

/-- The functions of the Bitcoin library a wallet calls, for extended private keys of type `ξ` and
extended public keys of type `χ`. -/
structure WalletLibrary (ξ χ : Type) where
  ckdPriv : ξ → ChildNumber → Except String ξ
  publicKey : ξ → PublicKey
  derivePub : χ → List ChildNumber → Except String PublicKey
  p2wpkh : PublicKey → Script
  p2shwpkh : PublicKey → Script
  p2pkh : PublicKey → Script

/-- An entry of the allowlist. -/
inductive Allowable (χ : Type) where
  | script (script : Script)
  | xpub (key : χ)
  | payee (key : PublicKey)

/-- The number of steps from the account key of a wallet to its keys. -/
def KeyDerivationStyle.getKeyPathLen : KeyDerivationStyle → Nat
  | .native => 1
  | .ldk => 1
  | .lnd => 2

/-- The layer-1 wallet of a node. -/
structure NodeWallet (ξ χ : Type) where
  library : WalletLibrary ξ χ
  style : KeyDerivationStyle
  accountKey : ξ
  allowlist : List (Allowable χ)

namespace NodeWallet

variable {ξ χ : Type} (W : NodeWallet ξ χ)

/-- The key a path leads to. -/
def deriveChildPath : ξ → List Nat → Result ξ
  | key, [] => .ok key
  | key, elem :: path => do
    let number ← expect unwrapMessage (ChildNumber.fromNormalIdx elem)
    match W.library.ckdPriv key number with
    | .ok child => deriveChildPath child path
    | .error e => .error (.refuse (internalError ("derive child_path failed: " ++ e)))

/-- The public key of the wallet at a path. -/
def getWalletPubkey (childPath : List Nat) : Result PublicKey := do
  refuseIf (childPath.length ≠ W.style.getKeyPathLen)
    (invalidArgument s!"get_wallet_key: bad child_path len : {childPath.length}")
  let xkey ← W.deriveChildPath W.accountKey childPath
  return W.library.publicKey xkey

/-- Whether the key at a path can spend a script. -/
def canSpend (childPath : List Nat) (scriptPubkey : Script) : Result Bool :=
  if childPath = [] then .ok false
  else do
    let pubkey ← W.getWalletPubkey childPath
    return scriptPubkey == W.library.p2wpkh pubkey || scriptPubkey == W.library.p2shwpkh pubkey

/-- Whether an entry is a script. -/
def isScript (scriptPubkey : Script) : Allowable χ → Bool
  | .script script => script == scriptPubkey
  | _ => false

/-- Whether a script pays the key that a path derives from one of the allowed extended keys. -/
def derivedFromAllowed (scriptPubkey : Script) (childPath : List ChildNumber) :
    List (Allowable χ) → Asserted Bool
  | [] => .ok false
  | .xpub xp :: allowlist => do
    let pubkey ← expect unwrapMessage (W.library.derivePub xp childPath).toOption
    if scriptPubkey = W.library.p2wpkh pubkey ∨ scriptPubkey = W.library.p2pkh pubkey then .ok true
    else derivedFromAllowed scriptPubkey childPath allowlist
  | _ :: allowlist => derivedFromAllowed scriptPubkey childPath allowlist

/-- Whether a script, or a key derived at a path from an allowed key, is on the allowlist. -/
def allowlistContains (scriptPubkey : Script) (path : List Nat) : Asserted Bool :=
  if W.allowlist.any (isScript scriptPubkey) then .ok true
  else if path = [] then .ok false
  else do
    let childPath ← path.mapM fun i => expect unwrapMessage (ChildNumber.fromNormalIdx i)
    W.derivedFromAllowed scriptPubkey childPath W.allowlist

/-- The wallet a validator is given. -/
def toWallet : Wallet := ⟨W.canSpend, W.allowlistContains⟩

end NodeWallet

/-! ## Paths on which the wallet aborts -/

/-- A path of plain steps. -/
def NormalPath (path : List Nat) : Prop := ∀ i ∈ path, i < 2 ^ 31

instance (path : List Nat) : Decidable (NormalPath path) := List.decidableBAll (· < 2 ^ 31) path

/-- What is assumed of the Bitcoin library: a plain step always leads to a key. -/
structure WalletLibrary.Derives {ξ χ : Type} (L : WalletLibrary ξ χ) : Prop where
  ckdPriv : ∀ key i, ∃ child, L.ckdPriv key (.normal i) = .ok child
  derivePub : ∀ xp (path : List Nat), ∃ key, L.derivePub xp (path.map .normal) = .ok key

namespace NodeWallet

variable {ξ χ : Type} {W : NodeWallet ξ χ} {path : List Nat} {scriptPubkey : Script}

theorem fromNormalIdx_of_lt {i : Nat} (h : i < 2 ^ 31) :
    ChildNumber.fromNormalIdx i = some (.normal i) := if_pos h

/-- A plain path leads to a key. -/
theorem exists_deriveChildPath (hW : W.library.Derives) (hpath : NormalPath path) (key : ξ) :
    ∃ child, W.deriveChildPath key path = .ok child := by
  induction path generalizing key with
  | nil => exact ⟨key, rfl⟩
  | cons i path ih =>
    obtain ⟨child, hchild⟩ := hW.ckdPriv key i
    obtain ⟨last, hlast⟩ := ih (fun j hj => hpath j (List.mem_cons_of_mem i hj)) child
    refine ⟨last, ?_⟩
    rw [deriveChildPath, fromNormalIdx_of_lt (hpath i List.mem_cons_self)]
    simp only [expect, ok_bind, hchild, hlast]

/-- Any other path aborts. -/
theorem deriveChildPath_abort (hW : W.library.Derives) (hpath : ¬ NormalPath path) (key : ξ) :
    W.deriveChildPath key path = .error (.abort unwrapMessage) := by
  induction path generalizing key with
  | nil => exact absurd (fun i hi => absurd hi List.not_mem_nil) hpath
  | cons i path ih =>
    rw [deriveChildPath]
    by_cases hi : i < 2 ^ 31
    · obtain ⟨child, hchild⟩ := hW.ckdPriv key i
      have hrest : ¬ NormalPath path := by
        intro hrest
        refine hpath fun j hj => ?_
        rcases List.mem_cons.mp hj with rfl | hj
        · exact hi
        · exact hrest j hj
      rw [fromNormalIdx_of_lt hi]
      simp only [expect, ok_bind, hchild]
      exact ih hrest child
    · rw [ChildNumber.fromNormalIdx, if_neg hi]
      rfl

/-- The wallet aborts on a path iff it is of the right length and has a hardened index. -/
theorem canSpend_abort_iff (hW : W.library.Derives) :
    (∃ m, W.canSpend path scriptPubkey = .error (.abort m)) ↔
      path.length = W.style.getKeyPathLen ∧ ¬ NormalPath path := by
  have hlen : 0 < W.style.getKeyPathLen := by cases W.style <;> decide
  unfold canSpend
  by_cases hnil : path = []
  · subst hnil
    simp only [if_true, reduceCtorEq, exists_false, List.length_nil, false_iff, not_and]
    intro h
    omega
  rw [if_neg hnil, getWalletPubkey]
  by_cases hlength : path.length = W.style.getKeyPathLen
  · rw [refuseIf_of_not (not_not.mpr hlength), ok_bind]
    by_cases hpath : NormalPath path
    · obtain ⟨child, hchild⟩ := exists_deriveChildPath hW hpath W.accountKey
      simp [hchild, hpath, pure, Except.pure]
    · rw [deriveChildPath_abort hW hpath W.accountKey]
      exact ⟨fun _ => ⟨hlength, hpath⟩, fun _ => ⟨unwrapMessage, rfl⟩⟩
  · have hne := hlength
    rw [refuseIf, if_pos hne]
    constructor
    · rintro ⟨m, h⟩
      cases h
    · exact fun h => absurd h.1 hlength

/-- A path the wallet answers on is plain. -/
theorem normalPath_of_canSpend (hW : W.library.Derives) {b : Bool}
    (h : W.canSpend path scriptPubkey = .ok b) : NormalPath path := by
  by_contra hpath
  unfold canSpend at h
  by_cases hnil : path = []
  · subst hnil
    exact hpath fun i hi => absurd hi List.not_mem_nil
  · rw [if_neg hnil] at h
    obtain ⟨pubkey, hpubkey, -⟩ := bind_ok h
    obtain ⟨u, -, hpubkey⟩ := bind_ok hpubkey
    rw [deriveChildPath_abort hW hpath] at hpubkey
    cases hpubkey

theorem mapM_fromNormalIdx (hpath : NormalPath path) :
    (path.mapM fun i => (expect unwrapMessage (ChildNumber.fromNormalIdx i) : Asserted ChildNumber))
      = .ok (path.map .normal) :=
  mapM_eq_ok fun i hi => by rw [fromNormalIdx_of_lt (hpath i hi)]; rfl

/-- On a plain path the allowlist can be read. -/
theorem exists_allowlistContains (hW : W.library.Derives) (hpath : NormalPath path) :
    ∃ b, W.allowlistContains scriptPubkey path = .ok b := by
  have hderived : ∀ allowlist, ∃ b,
      W.derivedFromAllowed scriptPubkey (path.map .normal) allowlist = .ok b := by
    intro allowlist
    induction allowlist with
    | nil => exact ⟨false, rfl⟩
    | cons a allowlist ih =>
      cases a with
      | script s => exact ih
      | payee k => exact ih
      | xpub xp =>
        obtain ⟨key, hkey⟩ := hW.derivePub xp path
        rw [derivedFromAllowed, hkey]
        simp only [Except.toOption, expect, ok_bind]
        split_ifs
        · exact ⟨true, rfl⟩
        · exact ih
  unfold allowlistContains
  split_ifs
  · exact ⟨true, rfl⟩
  · exact ⟨false, rfl⟩
  · rw [mapM_fromNormalIdx hpath, ok_bind]
    exact hderived W.allowlist

end NodeWallet

end ValidatingSigner
