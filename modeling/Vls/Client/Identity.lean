import Vls.Base.Bytes
import Vls.Base.Machine
import Vls.Basic

/-!
# Channel identifiers of the client

The client numbers its channels with a counter in memory and names them to the signer by these
numbers.  The number stands in the first eight bytes of a channel's keys identifier, with the most
significant byte first where the identifier is generated and a signer is derived from it, and with
the least significant byte first where a signer and a spendable output are asked for it.
-/

namespace ValidatingSigner

open Base

namespace Client

/-- The least significant byte comes first. -/
def dbidToChannelId (dbid : UInt64) : List UInt8 :=
  (beBytes 8 dbid.toNat).reverse ++ List.replicate 24 0

def channelIdToDbid (slice : List UInt8) : UInt64 := .ofNat (readBe (slice.take 8).reverse)

/-- The client's side of a channel. -/
structure SignerClient where
  dbid : UInt64
  channelValue : Nat
  deriving DecidableEq

def SignerClient.channelKeysId (s : SignerClient) : List UInt8 := dbidToChannelId s.dbid

/-- The client with the number of its next channel. -/
structure KeysManagerClient where
  nextDbid : UInt64

/-- A client that has just been created. -/
def KeysManagerClient.new : KeysManagerClient := ⟨1⟩

/-- The most significant byte comes first. -/
def KeysManagerClient.generateChannelKeysId (k : KeysManagerClient) :
    List UInt8 × KeysManagerClient :=
  (beBytes 8 k.nextDbid.toNat ++ List.replicate 24 0, ⟨k.nextDbid + 1⟩)

/-- The signer for which the client creates a channel with the number in the identifier. -/
def deriveChannelSigner (channelValue : Nat) (channelKeysId : List UInt8) : SignerClient :=
  ⟨.ofNat (readBe (channelKeysId.take 8)), channelValue⟩

/-- An output that can be spent after a close. -/
inductive SpendableOutputDescriptor where
  | staticOutput (value : Nat)
  | delayedPaymentOutput (value : Nat) (channelKeysId : List UInt8)
      (perCommitmentPoint : PublicKey) (toSelfDelay : Nat)
  | staticPaymentOutput (value : Nat) (channelKeysId : List UInt8)

structure CloseInfo where
  channelId : UInt64
  commitmentPoint : Option PublicKey
  csv : Nat

structure Utxo where
  amount : Nat
  keyindex : Nat
  closeInfo : Option CloseInfo

def descriptorToUtxo : SpendableOutputDescriptor → Utxo
  | .staticOutput value => ⟨value, 1, none⟩
  | .delayedPaymentOutput value channelKeysId point delay =>
    ⟨value, 0, some ⟨channelIdToDbid channelKeysId, some point, delay⟩⟩
  | .staticPaymentOutput value channelKeysId =>
    ⟨value, 0, some ⟨channelIdToDbid channelKeysId, none, 0⟩⟩

/-! ## Runs -/

/-- A call of the client, or its creation anew. -/
inductive Event where
  | new
  | generateChannelKeysId
  | deriveChannelSigner (channelValue : Nat) (channelKeysId : List UInt8)
  deriving DecidableEq

inductive Reply where
  | created
  | channelKeysId (id : List UInt8)
  | signer (s : SignerClient)

/-- The client as a machine. -/
def machine : Machine KeysManagerClient Event Reply where
  step k
    | .new => (.new, .created)
    | .generateChannelKeysId =>
      (k.generateChannelKeysId.2, .channelKeysId k.generateChannelKeysId.1)
    | .deriveChannelSigner value id => (k, .signer (deriveChannelSigner value id))

/-- The number of the channel that a step creates an identifier for. -/
def newDbid (x : Entry KeysManagerClient Event Reply) : Option UInt64 :=
  match x.answer with
  | .channelKeysId id => some (deriveChannelSigner 0 id).dbid
  | _ => none

/-- The numbers given to the channels of a run. -/
def newDbids (log : List (Entry KeysManagerClient Event Reply)) : List UInt64 :=
  log.filterMap newDbid

/-! ## Encodings -/

theorem ofNat_readBe_beBytes (dbid : UInt64) : .ofNat (readBe (beBytes 8 dbid.toNat)) = dbid := by
  have hlt : dbid.toNat < 256 ^ 8 := dbid.toNat_lt
  rw [readBe_beBytes, Nat.mod_eq_of_lt hlt, UInt64.ofNat_toNat]

theorem dbid_generated (value : Nat) (k : KeysManagerClient) :
    (deriveChannelSigner value k.generateChannelKeysId.1).dbid = k.nextDbid := by
  rw [KeysManagerClient.generateChannelKeysId, deriveChannelSigner,
    List.take_left' (length_beBytes 8 _), ofNat_readBe_beBytes]

theorem channelIdToDbid_dbidToChannelId (dbid : UInt64) :
    channelIdToDbid (dbidToChannelId dbid) = dbid := by
  have hlength : (beBytes 8 dbid.toNat).reverse.length = 8 := by
    rw [List.length_reverse, length_beBytes]
  rw [channelIdToDbid, dbidToChannelId, List.take_left' hlength, List.reverse_reverse,
    ofNat_readBe_beBytes]

/-- A number is found again by all signers derived from its identifier iff its bytes read the same
in both orders. -/
theorem dbid_channelKeysId_iff (s : SignerClient) :
    (∀ value, (deriveChannelSigner value s.channelKeysId).dbid = s.dbid) ↔
      (beBytes 8 s.dbid.toNat).reverse = beBytes 8 s.dbid.toNat := by
  have hlength : (beBytes 8 s.dbid.toNat).reverse.length = 8 := by
    rw [List.length_reverse, length_beBytes]
  have hread (value : Nat) : (deriveChannelSigner value s.channelKeysId).dbid =
      .ofNat (readBe (beBytes 8 s.dbid.toNat).reverse) := by
    rw [SignerClient.channelKeysId, dbidToChannelId, deriveChannelSigner, List.take_left' hlength]
  constructor
  · intro h
    have hsame := congrArg UInt64.toNat ((hread 0).symm.trans (h 0))
    have hlt := readBe_lt (beBytes 8 s.dbid.toNat).reverse
    rw [hlength] at hlt
    rw [UInt64.toNat_ofNat_of_lt' hlt] at hsame
    refine readBe_inj (by rw [hlength, length_beBytes]) ?_
    rw [hsame, readBe_beBytes]
    exact (Nat.mod_eq_of_lt s.dbid.toNat_lt).symm
  · intro h value
    rw [hread, h, ofNat_readBe_beBytes]

/-! ## Numbers -/

/-- The numbers given start with that of the next channel. -/
theorem newDbids_generate (k : KeysManagerClient) (events : List Event) :
    newDbids (machine.trace k (.generateChannelKeysId :: events)) =
      k.nextDbid :: newDbids (machine.trace ⟨k.nextDbid + 1⟩ events) :=
  List.filterMap_cons_some (congrArg some (dbid_generated 0 k))

variable {events : List Event}

theorem newDbids_of_not_mem (k : KeysManagerClient) (h : .generateChannelKeysId ∉ events) :
    newDbids (machine.trace k events) = [] := by
  induction events generalizing k with
  | nil => rfl
  | cons event events ih =>
    rw [List.mem_cons, not_or] at h
    cases event with
    | new => exact ih .new h.2
    | deriveChannelSigner value id => exact ih k h.2
    | generateChannelKeysId => exact absurd rfl h.1

/-- A client that has just been created gives number 1 to its first channel. -/
theorem one_mem_newDbids (h : .generateChannelKeysId ∈ events) :
    1 ∈ newDbids (machine.trace .new events) := by
  induction events with
  | nil => cases h
  | cons event events ih =>
    cases event with
    | new => exact ih ((List.mem_cons.mp h).resolve_left nofun)
    | deriveChannelSigner value id => exact ih ((List.mem_cons.mp h).resolve_left nofun)
    | generateChannelKeysId =>
      rw [newDbids_generate]
      exact List.mem_cons_self

/-- No channel is created after the client is created anew, once one was created before. -/
def CreatedOnce (events : List Event) : Prop :=
  ∀ before after, events = before ++ .new :: after → .generateChannelKeysId ∈ before →
    .generateChannelKeysId ∉ after

theorem CreatedOnce.tail {event : Event} (h : CreatedOnce (event :: events)) :
    CreatedOnce events := by
  rintro before after rfl hbefore
  exact h (event :: before) after rfl (List.mem_cons_of_mem _ hbefore)

/-- As long as the client is not created anew, the numbers given are different and not below the
next one. -/
theorem newDbids_trace {k : KeysManagerClient} (h : CreatedOnce (.generateChannelKeysId :: events))
    (hcalls : k.nextDbid.toNat + events.length < 2 ^ 64) :
    (newDbids (machine.trace k events)).Nodup ∧
      ∀ dbid ∈ newDbids (machine.trace k events), k.nextDbid.toNat ≤ dbid.toNat := by
  induction events generalizing k with
  | nil => exact ⟨List.nodup_nil, nofun⟩
  | cons event events ih =>
    rw [List.length_cons] at hcalls
    have hskip : CreatedOnce (.generateChannelKeysId :: events) := by
      rintro (_ | ⟨_, before⟩) after he hbefore
      · cases he
      · cases he
        exact h (.generateChannelKeysId :: event :: before) after rfl List.mem_cons_self
    cases event with
    | new =>
      -- A channel was created before, so none is created after the counter starts over.
      have hnone := newDbids_of_not_mem .new (h [.generateChannelKeysId] events rfl (by decide))
      change (newDbids (machine.trace .new events)).Nodup ∧
        ∀ dbid ∈ newDbids (machine.trace .new events), _
      rw [hnone]
      exact ⟨List.nodup_nil, nofun⟩
    | deriveChannelSigner value id => exact ih (k := k) hskip (by omega)
    | generateChannelKeysId =>
      have hafter : (k.nextDbid + 1).toNat = k.nextDbid.toNat + 1 := by
        rw [UInt64.toNat_add, UInt64.toNat_one]
        omega
      obtain ⟨hnodup, hbelow⟩ := ih (k := ⟨k.nextDbid + 1⟩) hskip (by rw [hafter]; omega)
      rw [hafter] at hbelow
      rw [newDbids_generate]
      refine ⟨List.nodup_cons.mpr ⟨fun hmem => ?_, hnodup⟩, List.forall_mem_cons.mpr
        ⟨Nat.le_refl _, fun dbid hmem => Nat.le_of_succ_le (hbelow dbid hmem)⟩⟩
      exact Nat.not_succ_le_self _ (hbelow _ hmem)

/-- The channels of a client have different numbers iff it is created once as far as they go. -/
theorem nodup_newDbids_iff (hcalls : events.length + 1 < 2 ^ 64) :
    (newDbids (machine.trace .new events)).Nodup ↔ CreatedOnce events := by
  constructor
  · rintro hnodup before after rfl hbefore hafter
    rw [machine.trace_append, newDbids, List.filterMap_append] at hnodup
    exact List.disjoint_of_nodup_append hnodup (one_mem_newDbids hbefore) (one_mem_newDbids hafter)
  · intro h
    induction events with
    | nil => exact List.nodup_nil
    | cons event events ih =>
      rw [List.length_cons] at hcalls
      cases event with
      | new => exact ih (by omega) h.tail
      | deriveChannelSigner value id => exact ih (by omega) h.tail
      | generateChannelKeysId =>
        rw [newDbids_generate, List.nodup_cons]
        obtain ⟨hnodup, hbelow⟩ := newDbids_trace (k := ⟨2⟩) h (by
          change 2 + _ < _
          omega)
        exact ⟨fun hmem => absurd (hbelow _ hmem) (by decide), hnodup⟩

end Client

open Client in
/-- In every run with fewer calls than there are numbers, the channels of the client have different
numbers iff none is created both before and after the client is created anew.  The signer derived
from the identifier a signer carries is for the same number iff the bytes of the number read the
same in both orders, and a close always names it. -/
theorem client_channel_identity (events : List Event) (hcalls : events.length + 1 < 2 ^ 64)
    (s : SignerClient) :
    ((newDbids (machine.trace .new events)).Nodup ↔
      ∀ before after, events = before ++ .new :: after → .generateChannelKeysId ∈ before →
        .generateChannelKeysId ∉ after) ∧
      ((∀ value, (deriveChannelSigner value s.channelKeysId).dbid = s.dbid) ↔
        (beBytes 8 s.dbid.toNat).reverse = beBytes 8 s.dbid.toNat) ∧
      (∀ value point delay, (descriptorToUtxo
        (.delayedPaymentOutput value s.channelKeysId point delay)).closeInfo =
          some ⟨s.dbid, some point, delay⟩) ∧
      ∀ value, (descriptorToUtxo (.staticPaymentOutput value s.channelKeysId)).closeInfo =
        some ⟨s.dbid, none, 0⟩ := by
  have hclose : channelIdToDbid s.channelKeysId = s.dbid := channelIdToDbid_dbidToChannelId s.dbid
  refine ⟨nodup_newDbids_iff hcalls, dbid_channelKeysId_iff s, ?_, ?_⟩
  · intro value point delay
    rw [descriptorToUtxo, hclose]
  · intro value
    rw [descriptorToUtxo, hclose]

open Client in
/-- A client that is created anew before its first channel gives its channels different numbers, and
a number with the same bytes in both orders is found again. -/
theorem client_channel_identity_sample :
    (newDbids (machine.trace .new [.new, .generateChannelKeysId, .generateChannelKeysId])).Nodup ∧
      ∀ value, (deriveChannelSigner value
        (SignerClient.channelKeysId ⟨0x0100000000000001, 5⟩)).dbid = 0x0100000000000001 := by
  have h := client_channel_identity [.new, .generateChannelKeysId, .generateChannelKeysId]
    (by decide) ⟨0x0100000000000001, 5⟩
  refine ⟨h.1.mpr ?_, h.2.1.mpr (by decide)⟩
  rintro (_ | ⟨_, before⟩) after he hbefore
  · cases hbefore
  · have hmem : Event.new ∈ before ++ .new :: after := by simp
    rw [List.cons_append, List.cons.injEq] at he
    rw [← he.2] at hmem
    exact absurd hmem (by decide)

open Client in
/-- A client that is created anew numbers its channels from the start, and the signer derived from
the identifier of channel 1 is one for another channel. -/
theorem client_channel_confused :
    newDbids (machine.trace .new [.generateChannelKeysId, .new, .generateChannelKeysId]) = [1, 1] ∧
      (deriveChannelSigner 5 (SignerClient.channelKeysId ⟨1, 5⟩)).dbid =
        0x0100000000000000 := by
  decide

end ValidatingSigner
