import Vls.Base.Bytes
import Vls.Base.Text
import Vls.Policy.Policy

/-!
# The keys manager

The manager of a running node holds the master key and two counters: one for the identifiers it
makes up, and one that advances with every derivation of channel keys.  The counters start at zero
whenever the manager is made.
-/

namespace ValidatingSigner

open Base

/-!
## Key derivation

Secrets are 32-byte values, extended keys are those of the Bitcoin library, and an `expect` or
`unwrap` of the source aborts.
-/

/-- One step of a derivation path. -/
inductive ChildNumber where
  | normal (index : Nat)
  | hardened (index : Nat)
  deriving DecidableEq

namespace ChildNumber

/-- The hardened step with an index, which must be less than `2 ^ 31`. -/
def fromHardenedIdx (index : Nat) : Option ChildNumber :=
  if index < 2 ^ 31 then some (.hardened index) else none

/-- The plain step with an index, which must be less than `2 ^ 31`. -/
def fromNormalIdx (index : Nat) : Option ChildNumber :=
  if index < 2 ^ 31 then some (.normal index) else none

end ChildNumber

/-- The functions of the Bitcoin library that keys are derived with, for extended private keys of
type `ξ`. -/
structure KeyLibrary (ξ : Type) where
  sha256 : List UInt8 → Bytes32
  /-- The code that authenticates a message under a key. -/
  hmac : List UInt8 → List UInt8 → Bytes32
  newMaster : Network → List UInt8 → Option ξ
  ckdPriv : ξ → ChildNumber → Option ξ
  privateKey : ξ → Bytes32
  /-- Whether the bytes are a secret key. -/
  isSecretKey : Bytes32 → Bool

/-- The bytes of a 32-byte value. -/
def Bytes32.bytes (value : Bytes32) : List UInt8 := beBytes 32 value.toNat

/-- The bytes of a label. -/
def labelBytes (label : String) : List UInt8 := Text.utf8 label.toList

/-- The secrets of one channel. -/
structure ChannelKeys where
  fundingKey : Bytes32
  revocationBaseKey : Bytes32
  htlcBaseKey : Bytes32
  paymentKey : Bytes32
  delayedPaymentBaseKey : Bytes32
  commitmentSeed : Bytes32
  deriving DecidableEq

namespace KeyLibrary

variable {ξ : Type} (K : KeyLibrary ξ)

/-- The blocks `n + 1, n + 2, …` of an expansion, each computed from the one before it. -/
def hkdfExpand (prk info : List UInt8) : Nat → Nat → List UInt8 → List Bytes32
  | 0, _, _ => []
  | blocks + 1, n, previous =>
    let block := K.hmac prk (previous ++ info ++ [UInt8.ofNat (n + 1)])
    block :: hkdfExpand prk info blocks (n + 1) block.bytes

/-- The first blocks derived from a secret. -/
def hkdfExtractExpand (salt secret info : List UInt8) (blocks : Nat) : List Bytes32 :=
  K.hkdfExpand (K.hmac salt secret).bytes info blocks 0 []

/-- A secret derived from another. -/
def hkdfSha256 (secret info salt : List UInt8) : Bytes32 :=
  (K.hkdfExtractExpand salt secret info 1).getD 0 0

/-- The six secrets derived from another. -/
def hkdfSha256Keys (secret info salt : List UInt8) : List Bytes32 :=
  K.hkdfExtractExpand salt secret info 6

/-- The bytes as a secret key. -/
def secretKey (message : String) (bytes : Bytes32) : Result Bytes32 :=
  expect message (if K.isSecretKey bytes then some bytes else none)

/-- The child of an extended key, with the messages of the two ways there is none. -/
def child (noNumber noKey : String) (key : ξ) (number : Option ChildNumber) : Result ξ := do
  let number ← expect noNumber number
  expect noKey (K.ckdPriv key number)

end KeyLibrary

/-- How keys are derived for nodes and channels. -/
structure KeyDerive (ξ : Type) where
  masterKey : List UInt8 → Result ξ
  keysId : ChannelId → Bytes32 → Bytes32
  channelKeys : List UInt8 → Bytes32 → Nat → ξ → Result ChannelKeys

/-- The message of an abort at an `unwrap`. -/
def unwrapMessage : String := "called `Result::unwrap()` on an `Err` value"

/-- The message of an abort at a derivation that must not fail. -/
def rngMessage : String := "Your RNG is busted"

/-- The key derivation style. -/
inductive KeyDerivationStyle where
  | native
  | ldk
  | lnd
  deriving DecidableEq

section Styles

variable {ξ : Type} (K : KeyLibrary ξ) (network : Network)

/-- The identifier of a channel's keys, from the identifier of the channel. -/
def defaultKeysId (channelId : ChannelId) (channelSeedBase : Bytes32) : Bytes32 :=
  K.hkdfSha256 channelSeedBase.bytes (labelBytes "per-peer seed") channelId.bytes

/-- A base for the keys of the channels. -/
def channelsSeed (seed : List UInt8) : Bytes32 := K.hkdfSha256 seed (labelBytes "peer seed") []

/-! ## The style of Core Lightning -/

/-- All six secrets are expanded from the identifier of the keys. -/
def nativeChannelKeys (keysId : Bytes32) : Result ChannelKeys := do
  let keysBuf := K.hkdfSha256Keys keysId.bytes (labelBytes "c-lightning") []
  let fundingKey ← K.secretKey unwrapMessage (keysBuf.getD 0 0)
  let revocationBaseKey ← K.secretKey unwrapMessage (keysBuf.getD 1 0)
  let htlcBaseKey ← K.secretKey unwrapMessage (keysBuf.getD 2 0)
  let paymentKey ← K.secretKey unwrapMessage (keysBuf.getD 3 0)
  let delayedPaymentBaseKey ← K.secretKey unwrapMessage (keysBuf.getD 4 0)
  return ⟨fundingKey, revocationBaseKey, htlcBaseKey, paymentKey, delayedPaymentBaseKey,
    keysBuf.getD 5 0⟩

/-- Derivation compatible with Core Lightning. -/
def nativeKeyDerive : KeyDerive ξ where
  masterKey seed := expect rngMessage
    (K.newMaster network (K.hkdfSha256 seed (labelBytes "bip32 seed") []).bytes)
  keysId := defaultKeysId K
  channelKeys _ keysId _ _ := nativeChannelKeys K keysId

/-! ## The style of LDK -/

/-- The identifier of a channel's keys with its first 33 bits cleared, so that its first eight bytes
are a derivation index. -/
def ldkKeysId (channelId : ChannelId) (channelSeedBase : Bytes32) : Bytes32 :=
  defaultKeysId K channelId channelSeedBase &&& BitVec.ofNat 256 (2 ^ 223 - 1)

/-- The next secret of a channel, from the one before it. -/
def ldkKeyStep (channelSeed : Bytes32) (info : String) (prevKey : Bytes32) : Result Bytes32 :=
  K.secretKey "SHA-256 is busted" (K.sha256 (channelSeed.bytes ++ prevKey.bytes ++ labelBytes info))

/-- The secrets are hashed one from the other, beginning with the identifier of the keys, the seed
and a child of the master key. -/
def ldkChannelKeys (seed : List UInt8) (keysId : Bytes32) (masterKey : ξ) : Result ChannelKeys := do
  let chanId := keysId.toNat / 2 ^ 192
  assert (chanId ≤ 2 ^ 32 - 1) "assertion failed: chan_id <= core::u32::MAX as u64"
  let channelMasterKey ← K.child unwrapMessage rngMessage masterKey (ChildNumber.fromHardenedIdx 3)
  let childPrivkey ←
    K.child "key space exhausted" rngMessage channelMasterKey (ChildNumber.fromHardenedIdx chanId)
  let channelSeed := K.sha256 (keysId.bytes ++ seed ++ (K.privateKey childPrivkey).bytes)
  let commitmentSeed := K.sha256 (channelSeed.bytes ++ labelBytes "commitment seed")
  let fundingKey ← ldkKeyStep K channelSeed "funding key" commitmentSeed
  let revocationBaseKey ← ldkKeyStep K channelSeed "revocation base key" fundingKey
  let paymentKey ← ldkKeyStep K channelSeed "payment key" revocationBaseKey
  let delayedPaymentBaseKey ← ldkKeyStep K channelSeed "delayed payment base key" paymentKey
  let htlcBaseKey ← ldkKeyStep K channelSeed "HTLC base key" delayedPaymentBaseKey
  return ⟨fundingKey, revocationBaseKey, htlcBaseKey, paymentKey, delayedPaymentBaseKey,
    commitmentSeed⟩

/-- Derivation compatible with LDK. -/
def ldkKeyDerive : KeyDerive ξ where
  masterKey seed := expect rngMessage (K.newMaster network seed)
  keysId := ldkKeysId K
  channelKeys seed keysId _ masterKey := ldkChannelKeys K seed keysId masterKey

/-! ## The style of LND -/

/-- The key of a family with an index. -/
def deriveKeyLnd (master : ξ) (keyFamily index : Nat) : Result Bytes32 := do
  let coinType := match network with
    | .bitcoin => 0
    | .testnet => 1
    | .regtest => 1
    | .signet => 1
  let purposeKey ← K.child unwrapMessage unwrapMessage master (ChildNumber.fromHardenedIdx 1017)
  let coinKey ←
    K.child unwrapMessage unwrapMessage purposeKey (ChildNumber.fromHardenedIdx coinType)
  let familyKey ←
    K.child unwrapMessage unwrapMessage coinKey (ChildNumber.fromHardenedIdx keyFamily)
  let branchKey ← K.child unwrapMessage unwrapMessage familyKey (ChildNumber.fromNormalIdx 0)
  let nodeExtPrv ← K.child unwrapMessage unwrapMessage branchKey (ChildNumber.fromNormalIdx index)
  return K.privateKey nodeExtPrv

/-- The commitment seed is expanded from the identifier of the keys; the other secrets are the keys
of five families with an index. -/
def lndChannelKeys (keysId : Bytes32) (basepointIndex : Nat) (masterKey : ξ) :
    Result ChannelKeys := do
  let keysBuf := K.hkdfSha256Keys keysId.bytes (labelBytes "c-lightning") []
  let fundingKey ← deriveKeyLnd K network masterKey 0 basepointIndex
  let revocationBaseKey ← deriveKeyLnd K network masterKey 1 basepointIndex
  let htlcBaseKey ← deriveKeyLnd K network masterKey 2 basepointIndex
  let paymentKey ← deriveKeyLnd K network masterKey 3 basepointIndex
  let delayedPaymentBaseKey ← deriveKeyLnd K network masterKey 4 basepointIndex
  return ⟨fundingKey, revocationBaseKey, htlcBaseKey, paymentKey, delayedPaymentBaseKey,
    keysBuf.getD 5 0⟩

/-- Derivation compatible with LND. -/
def lndKeyDerive : KeyDerive ξ where
  masterKey seed := expect rngMessage (K.newMaster network seed)
  keysId := defaultKeysId K
  channelKeys _ keysId basepointIndex masterKey :=
    lndChannelKeys K network keysId basepointIndex masterKey

/-! ## Choice of a style -/

/-- The key deriver of a style. -/
def keyDerive : KeyDerivationStyle → KeyDerive ξ
  | .native => nativeKeyDerive K network
  | .ldk => ldkKeyDerive K network
  | .lnd => lndKeyDerive K network

end Styles

/-- The keys of a channel as its signer holds them. -/
structure KeyedSigner where
  keys : ChannelKeys
  channelValueSat : Nat
  channelKeysId : Bytes32
  deriving DecidableEq

/-- The keys manager of a running node. -/
structure KeysManager (ξ : Type) where
  masterKey : ξ
  channelSeedBase : Bytes32
  channelIdMasterKey : ξ
  channelIdChildIndex : Nat
  lndBasepointIndex : Nat
  /-- What the hash of a new channel identifier begins with. -/
  uniqueStart : List UInt8

/-- Count a channel identifier. -/
def KeysManager.incrementChannelIdChildIndex {ξ : Type} (manager : KeysManager ξ) : KeysManager ξ :=
  { manager with channelIdChildIndex := (manager.channelIdChildIndex + 1) % 2 ^ 64 }

/-- The money supply in millisatoshi. -/
def MAX_VALUE_MSAT : Nat := 21000000_0000_0000_000

/-- An output of a closed channel that can be spent. -/
inductive SpendableOutputDescriptor where
  | staticPaymentOutput (outpoint : OutPoint) (value : Nat) (channelKeysId : Bytes32)
      (channelValueSatoshis : Nat)
  | delayedPaymentOutput (outpoint : OutPoint) (value : Nat) (channelKeysId : Bytes32)
      (channelValueSatoshis : Nat)
  | staticOutput (outpoint : OutPoint) (value : Nat)
  deriving DecidableEq

namespace SpendableOutputDescriptor

/-- The output that is spent. -/
def outpoint : SpendableOutputDescriptor → OutPoint
  | staticPaymentOutput outpoint _ _ _ => outpoint
  | delayedPaymentOutput outpoint _ _ _ => outpoint
  | staticOutput outpoint _ => outpoint

/-- The value of the output in satoshi. -/
def value : SpendableOutputDescriptor → Nat
  | staticPaymentOutput _ value _ _ => value
  | delayedPaymentOutput _ value _ _ => value
  | staticOutput _ value => value

/-- The channel keys that the output is spent with: their identifier and the value of the channel.
-/
def channelKeys : SpendableOutputDescriptor → Option (Bytes32 × Nat)
  | staticPaymentOutput _ _ keysId value => some (keysId, value)
  | delayedPaymentOutput _ _ keysId value => some (keysId, value)
  | staticOutput _ _ => none

end SpendableOutputDescriptor

/-- A node as its channel keys depend on it: how it derives keys, how many channels it may have, and
what it checks elsewhere. -/
structure KeyNode (ξ : Type) where
  library : KeyLibrary ξ
  style : KeyDerivationStyle
  network : Network
  seed : List UInt8
  overflow : Overflow
  maxChannels : Nat
  /-- Whether the setup and the shutdown path of a channel are acceptable. -/
  validateReadyChannel : ChannelSetup → List Nat → Result Unit

/-- The error of a call that gives no reason. -/
def noReason : Refusal := internalError ""

namespace KeyNode

variable {ξ : Type} (N : KeyNode ξ)

/-- How the node derives keys. -/
def derive : KeyDerive ξ := keyDerive N.library N.network N.style

/-- The base of the identifiers of the channel keys. -/
def channelSeedBase : Bytes32 := channelsSeed N.library N.seed

/-- The identifier of the keys of a channel. -/
def keysId (channelId : ChannelId) : Bytes32 := N.derive.keysId channelId N.channelSeedBase

/-- A new manager, with the time it is made at. -/
def newManager (startingTimeSecs startingTimeNanos : Nat) : Result (KeysManager ξ) := do
  let masterKey ← N.derive.masterKey N.seed
  let channelIdMasterKey ←
    N.library.child unwrapMessage rngMessage masterKey (ChildNumber.fromHardenedIdx 5)
  return {
    masterKey := masterKey
    channelSeedBase := channelsSeed N.library N.seed
    channelIdMasterKey := channelIdMasterKey
    channelIdChildIndex := 0
    lndBasepointIndex := 0
    uniqueStart := beBytes 8 startingTimeSecs ++ beBytes 4 startingTimeNanos ++ N.seed }

/-- Derive the keys with an identifier, at the index the manager has reached. -/
def getChannelKeysWithKeysId (manager : KeysManager ξ) (keysId : Bytes32) (channelValueSat : Nat) :
    Result (KeyedSigner × KeysManager ξ) := do
  let basepointIndex := manager.lndBasepointIndex
  let keys ← N.derive.channelKeys N.seed keysId basepointIndex manager.masterKey
  return (⟨keys, channelValueSat, keysId⟩,
    { manager with lndBasepointIndex := (basepointIndex + 1) % 2 ^ 32 })

/-- Derive the keys of a channel. -/
def getChannelKeysWithId (manager : KeysManager ξ) (channelId : ChannelId) (channelValueSat : Nat) :
    Result (KeyedSigner × KeysManager ξ) :=
  N.getChannelKeysWithKeysId manager (N.derive.keysId channelId manager.channelSeedBase)
    channelValueSat

/-- Derive existing channel keys again. -/
def deriveChannelKeys (manager : KeysManager ξ) (channelValueSat : Nat) (keysId : Bytes32) :
    Result (KeyedSigner × KeysManager ξ) :=
  N.getChannelKeysWithKeysId manager keysId channelValueSat

/-- A new channel identifier. -/
def getChannelId (manager : KeysManager ξ) : Result (ChannelId × KeysManager ξ) := do
  let childIx := manager.channelIdChildIndex
  let childPrivkey ← N.library.child "key space exhausted" rngMessage manager.channelIdMasterKey
    (ChildNumber.fromHardenedIdx (childIx % 2 ^ 32))
  let randomBytes :=
    N.library.sha256 (manager.uniqueStart ++ (N.library.privateKey childPrivkey).bytes)
  return (⟨randomBytes.bytes⟩, manager.incrementChannelIdChildIndex)

/-! ## Spending -/

/-- The total value of the inputs, which are distinct and do not exceed the money supply. -/
def sumInputs : List SpendableOutputDescriptor → List OutPoint → Nat → Result Nat
  | [], _, inputValue => .ok inputValue
  | descriptor :: descriptors, outputSet, inputValue => do
    let inputValue ← N.overflow.u64 (inputValue + descriptor.value)
    refuseIf (descriptor.outpoint ∈ outputSet) noReason
    refuseIf (inputValue > MAX_VALUE_MSAT / 1000) noReason
    sumInputs descriptors (descriptor.outpoint :: outputSet) inputValue

/-- The cached signer if it has the keys that are needed, and a derived one otherwise. -/
def cachedChannelKeys (keysCache : Option KeyedSigner) (manager : KeysManager ξ)
    (channelValueSat : Nat) (keysId : Bytes32) : Result (KeyedSigner × KeysManager ξ) :=
  match keysCache with
  | some cached =>
    if cached.channelKeysId = keysId then .ok (cached, manager)
    else N.deriveChannelKeys manager channelValueSat keysId
  | none => N.deriveChannelKeys manager channelValueSat keysId

/-- The signers of the inputs in turn; the cache holds the signer of the last input that needed
one. -/
def signInputs : List SpendableOutputDescriptor → Option KeyedSigner → KeysManager ξ →
    Result (List (Option KeyedSigner) × KeysManager ξ)
  | [], _, manager => .ok ([], manager)
  | descriptor :: descriptors, keysCache, manager => match descriptor.channelKeys with
    | none => do
      let (signers, manager) ← signInputs descriptors keysCache manager
      return (none :: signers, manager)
    | some (keysId, channelValueSat) => do
      let (signer, manager) ← N.cachedChannelKeys keysCache manager channelValueSat keysId
      let (signers, manager) ← signInputs descriptors (some signer) manager
      return (some signer :: signers, manager)

/-- The signers of a transaction that spends outputs; `affordable` says whether the inputs pay for
the outputs, the fee and the change. -/
def spendSpendableOutputs (manager : KeysManager ξ) (descriptors : List SpendableOutputDescriptor)
    (affordable : Bool) : Result (List (Option KeyedSigner) × KeysManager ξ) := do
  let _ ← N.sumInputs descriptors [] 0
  refuseIf (affordable = false) noReason
  N.signInputs descriptors none manager

/-! ## What is derived -/

/-- The keys with an identifier and an index, under a master key. -/
def keysAt (masterKey : ξ) (keysId : Bytes32) (index : Nat) : Result ChannelKeys :=
  N.derive.channelKeys N.seed keysId index masterKey

/-- Where the manager derives keys to sign inputs: the identifiers and the indices. -/
def inputDerivations : List SpendableOutputDescriptor → Option Bytes32 → Nat → List (Bytes32 × Nat)
  | [], _, _ => []
  | descriptor :: descriptors, cached, index => match descriptor.channelKeys with
    | none => inputDerivations descriptors cached index
    | some (keysId, _) =>
      if cached = some keysId then inputDerivations descriptors cached index
      else (keysId, index) :: inputDerivations descriptors (some keysId) ((index + 1) % 2 ^ 32)

variable {N} {manager manager' : KeysManager ξ} {keysCache : Option KeyedSigner}

/-- A derivation gives the keys with the identifier at the index of the manager, and advances the
index. -/
theorem getChannelKeysWithKeysId_eq_ok {keysId : Bytes32} {channelValueSat : Nat}
    {signer : KeyedSigner} :
    N.getChannelKeysWithKeysId manager keysId channelValueSat = .ok (signer, manager') ↔
      N.keysAt manager.masterKey keysId manager.lndBasepointIndex = .ok signer.keys ∧
        signer.channelValueSat = channelValueSat ∧ signer.channelKeysId = keysId ∧
        manager' = { manager with lndBasepointIndex :=
          (manager.lndBasepointIndex + 1) % 2 ^ 32 } := by
  rw [getChannelKeysWithKeysId, bind_eq_ok]
  constructor
  · rintro ⟨keys, hkeys, h⟩
    obtain ⟨rfl, rfl⟩ := Prod.mk.inj (pure_eq_ok.mp h)
    exact ⟨hkeys, rfl, rfl, rfl⟩
  · rintro ⟨hkeys, rfl, rfl, rfl⟩
    exact ⟨signer.keys, hkeys, rfl⟩

/-- A new manager has the master key of the seed and has derived nothing. -/
theorem newManager_ok {secs nanos : Nat} (h : N.newManager secs nanos = .ok manager) :
    N.derive.masterKey N.seed = .ok manager.masterKey ∧
      manager.channelSeedBase = N.channelSeedBase ∧ manager.lndBasepointIndex = 0 := by
  obtain ⟨masterKey, hmaster, h⟩ := bind_ok h
  obtain ⟨channelIdMasterKey, -, h⟩ := bind_ok h
  cases h
  exact ⟨hmaster, rfl, rfl⟩

theorem newManager_total {secs nanos : Nat} (h : N.newManager secs nanos = .ok manager)
    (secs' nanos' : Nat) : ∃ manager', N.newManager secs' nanos' = .ok manager' := by
  obtain ⟨masterKey, hmaster, h⟩ := bind_ok h
  obtain ⟨channelIdMasterKey, hid, -⟩ := bind_ok h
  exact ⟨_, bind_eq_ok.mpr ⟨masterKey, hmaster, bind_eq_ok.mpr ⟨channelIdMasterKey, hid, rfl⟩⟩⟩

theorem getChannelId_ok {channelId : ChannelId}
    (h : N.getChannelId manager = .ok (channelId, manager')) :
    manager' = manager.incrementChannelIdChildIndex := by
  obtain ⟨childPrivkey, -, h⟩ := bind_ok h
  exact (Prod.mk.inj (pure_eq_ok.mp h)).2.symm

/-- The signer of an input is the cached one, or it is derived because the cached one does not
serve. -/
theorem cachedChannelKeys_ok {channelValueSat : Nat} {keysId : Bytes32} {signer : KeyedSigner}
    (h : N.cachedChannelKeys keysCache manager channelValueSat keysId = .ok (signer, manager')) :
    (keysCache = some signer ∧ signer.channelKeysId = keysId ∧ manager' = manager) ∨
      keysCache.map KeyedSigner.channelKeysId ≠ some keysId ∧
        N.getChannelKeysWithKeysId manager keysId channelValueSat = .ok (signer, manager') := by
  cases keysCache with
  | none => exact .inr ⟨nofun, h⟩
  | some cached =>
    rw [cachedChannelKeys] at h
    by_cases hid : cached.channelKeysId = keysId
    · rw [if_pos hid] at h
      obtain ⟨rfl, rfl⟩ := Prod.mk.inj (Except.ok.inj h)
      exact .inl ⟨rfl, hid, rfl⟩
    · rw [if_neg hid] at h
      exact .inr ⟨fun hsome => hid (Option.some.inj hsome), h⟩

/-- A property of the cached signer and of the signers that are derived holds of every signer of the
inputs.  The manager has only advanced its index. -/
theorem signInputs_ok {P : KeyedSigner → Prop} {descriptors : List SpendableOutputDescriptor}
    {signers : List (Option KeyedSigner)} (hcache : ∀ signer ∈ keysCache, P signer)
    (hderived : ∀ signer : KeyedSigner, ∀ index,
      (signer.channelKeysId, index) ∈ inputDerivations descriptors
      (keysCache.map KeyedSigner.channelKeysId) manager.lndBasepointIndex →
      N.keysAt manager.masterKey signer.channelKeysId index = .ok signer.keys → P signer)
    (h : N.signInputs descriptors keysCache manager = .ok (signers, manager')) :
    (∀ signer, some signer ∈ signers → P signer) ∧
      ∃ index, manager' = { manager with lndBasepointIndex := index } := by
  induction descriptors generalizing keysCache manager signers with
  | nil =>
    obtain ⟨rfl, rfl⟩ := Prod.mk.inj (Except.ok.inj h)
    exact ⟨fun _ hmem => absurd hmem List.not_mem_nil, _, rfl⟩
  | cons descriptor descriptors ih =>
    rw [signInputs] at h
    rw [inputDerivations] at hderived
    cases hkeys : descriptor.channelKeys with
    | none =>
      simp only [hkeys] at h hderived
      obtain ⟨⟨rest, manager₁⟩, hrest, h⟩ := bind_ok h
      obtain ⟨rfl, rfl⟩ := Prod.mk.inj (pure_eq_ok.mp h)
      obtain ⟨hsigners, hmanager⟩ := ih hcache hderived hrest
      refine ⟨fun signer hmem => ?_, hmanager⟩
      exact hsigners signer ((List.mem_cons.mp hmem).resolve_left fun hnone => nomatch hnone)
    | some needed =>
      obtain ⟨keysId, channelValueSat⟩ := needed
      simp only [hkeys] at h hderived
      obtain ⟨⟨signer, manager₁⟩, hsigner, h⟩ := bind_ok h
      obtain ⟨⟨rest, manager₂⟩, hrest, h⟩ := bind_ok h
      obtain ⟨rfl, rfl⟩ := Prod.mk.inj (pure_eq_ok.mp h)
      have hhead (hP : P signer) (hall : ∀ other, some other ∈ rest → P other) (other : KeyedSigner)
          (hmem : some other ∈ some signer :: rest) : P other := by
        rcases List.mem_cons.mp hmem with heq | hmem
        · rw [Option.some.inj heq]
          exact hP
        · exact hall other hmem
      rcases cachedChannelKeys_ok hsigner with ⟨hcached, hid, rfl⟩ | ⟨hne, hderive⟩
      · have hsame : keysCache.map KeyedSigner.channelKeysId = some keysId := by
          rw [hcached, Option.map_some, hid]
        rw [if_pos hsame] at hderived
        have hP : P signer := hcache signer hcached
        rw [hcached] at hderived
        obtain ⟨hsigners, hmanager⟩ := ih (fun _ hmem => Option.some.inj hmem ▸ hP) hderived hrest
        exact ⟨hhead hP hsigners, hmanager⟩
      · rw [if_neg hne] at hderived
        obtain ⟨hkeysAt, -, hid, hadvanced⟩ := getChannelKeysWithKeysId_eq_ok.mp hderive
        have hP : P signer :=
          hderived signer manager.lndBasepointIndex (hid ▸ List.mem_cons_self) (hid ▸ hkeysAt)
        have hlater : ∀ other : KeyedSigner, ∀ index,
            (other.channelKeysId, index) ∈ inputDerivations descriptors
              ((some signer).map KeyedSigner.channelKeysId) manager₁.lndBasepointIndex →
            N.keysAt manager₁.masterKey other.channelKeysId index = .ok other.keys → P other := by
          intro other index hmem hother
          rw [Option.map_some, hid, hadvanced] at hmem
          rw [hadvanced] at hother
          exact hderived other index (List.mem_cons_of_mem _ hmem) hother
        obtain ⟨hsigners, index, hmanager⟩ :=
          ih (fun _ hmem => Option.some.inj hmem ▸ hP) hlater hrest
        refine ⟨hhead hP hsigners, index, ?_⟩
        rw [hmanager, hadvanced]

end KeyNode

end ValidatingSigner
