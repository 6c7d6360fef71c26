import Vls.Keys.Steps

/-!
# Channels keep their keys

An index is fixed for every identifier of channel keys.  As long as every derivation gives the keys
at that index, every signer has those keys, every stored channel is in memory under the identifier
it was created with, and a restart brings all stored channels back.
-/

namespace ValidatingSigner

open Base Table List AList

variable {ξ : Type}

/-- The channel is ready. -/
def ChannelSlot.IsReady : ChannelSlot → Prop
  | stub _ _ _ => False
  | ready _ _ _ _ => True

namespace KeyNode

/-- The signer has the keys at the index that is fixed for their identifier. -/
def Keyed (N : KeyNode ξ) (masterKey : ξ) (indexOf : Bytes32 → Nat) (signer : KeyedSigner) : Prop :=
  N.keysAt masterKey signer.channelKeysId (indexOf signer.channelKeysId) = .ok signer.keys

/-- The derivation gives the keys at the index that is fixed for their identifier. -/
def Agrees (N : KeyNode ξ) (masterKey : ξ) (indexOf : Bytes32 → Nat) (derivation : Bytes32 × Nat) :
    Prop :=
  N.keysAt masterKey derivation.1 derivation.2 = N.keysAt masterKey derivation.1
    (indexOf derivation.1)

/-- The memory of a node whose signers have their keys and that holds some stored channels. -/
structure Loaded (N : KeyNode ξ) (masterKey : ξ) (indexOf : Bytes32 → Nat)
    (Stored : ChannelId → StoredChannel → Prop) (memory : KeyMemory ξ) : Prop where
  master : memory.manager.masterKey = masterKey
  seedBase : memory.manager.channelSeedBase = N.channelSeedBase
  signers : ∀ id slot, memory.channels.lookup id = some slot → N.Keyed masterKey indexOf slot.signer
  channels : ∀ id0 entry, Stored id0 entry → ∃ slot, memory.channels.lookup id0 = some slot ∧
    slot.id0 = id0 ∧ slot.signer.channelKeysId = N.keysId id0
  aliases : ∀ id0 entry id, Stored id0 entry → entry.id = some id →
    ∃ slot, memory.channels.lookup id = some slot ∧ slot.IsReady

/-- A store from which a node can be started again: the keys of every channel can be derived, and no
permanent identifier is the first identifier of another channel. -/
structure Reloadable (N : KeyNode ξ) (masterKey : ξ) (indexOf : Bytes32 → Nat)
    (store : ChannelStore) : Prop where
  keys : ∀ id0 ∈ store, ∃ keys,
    N.keysAt masterKey (N.keysId id0) (indexOf (N.keysId id0)) = .ok keys
  aliases : ∀ id0 entry id, store.lookup id0 = some entry → entry.id = some id →
    id = id0 ∨ id ∉ store
  stubs : ∀ id0 entry, store.lookup id0 = some entry → entry.channelSetup = none → entry.id = none

/-- The state of a node that keeps the keys of its channels. -/
structure Sound (N : KeyNode ξ) (masterKey : ξ) (indexOf : Bytes32 → Nat) (s : KeyState ξ) :
    Prop where
  loaded : N.Loaded masterKey indexOf (fun id0 entry => s.store.lookup id0 = some entry) s.memory
  reloadable : N.Reloadable masterKey indexOf s.store

variable {N : KeyNode ξ} {masterKey : ξ} {indexOf : Bytes32 → Nat} {s s' : KeyState ξ}
  {manager : KeysManager ξ} {channelId : ChannelId} {signer : KeyedSigner}

theorem Sound.untouched (h : N.Sound masterKey indexOf s) (huntouched : Untouched s s') :
    N.Sound masterKey indexOf s' := by
  obtain ⟨hstore, hchannels, hmaster, hbase⟩ := huntouched
  obtain ⟨hloaded, hreloadable⟩ := h
  constructor
  · rw [hstore]
    constructor
    · rw [hmaster, hloaded.master]
    · rw [hbase, hloaded.seedBase]
    · rw [hchannels]
      exact hloaded.signers
    · rw [hchannels]
      exact hloaded.channels
    · rw [hchannels]
      exact hloaded.aliases
  · rw [hstore]
    exact hreloadable

/-! ## Creation -/

variable {memory : KeyMemory ξ} {id0 : ChannelId} {entry : StoredChannel} {store : ChannelStore}
  {blockheight : Nat}

/-- A stored channel is the one that was stored last, or was stored before. -/
theorem stored_insert {id : ChannelId} {entry' : StoredChannel}
    (h : (store.insert id0 entry).lookup id = some entry') :
    id = id0 ∧ entry' = entry ∨ id ≠ id0 ∧ store.lookup id = some entry' := by
  rw [lookup_insert_eq] at h
  split_ifs at h with hid
  · exact .inl ⟨hid, (Option.some.inj h).symm⟩
  · exact .inr ⟨hid, h⟩

/-- A permanent identifier is not that of a channel which is not in memory. -/
theorem Loaded.alias_ne {Stored : ChannelId → StoredChannel → Prop}
    (h : N.Loaded masterKey indexOf Stored memory) {id : ChannelId}
    (hnew : channelId ∉ memory.channels) (hstored : Stored id0 entry)
    (hentry : entry.id = some id) : id ≠ channelId := by
  rintro rfl
  obtain ⟨slot, hslot, -⟩ := h.aliases id0 entry id hstored hentry
  exact hnew (lookup_isSome.mp (hslot ▸ rfl))

/-- A channel with its keys is placed in memory under its identifiers, beside stored channels whose
first identifiers differ from them. -/
theorem Loaded.placed {Stored Stored' : ChannelId → StoredChannel → Prop} {memory' : KeyMemory ξ}
    (entry : StoredChannel) (slot : ChannelSlot) (h : N.Loaded masterKey indexOf Stored memory)
    (hmaster : memory'.manager.masterKey = masterKey)
    (hbase : memory'.manager.channelSeedBase = N.channelSeedBase)
    (hkeyed : N.Keyed masterKey indexOf slot.signer) (hfirst : slot.id0 = id0)
    (hid : slot.signer.channelKeysId = N.keysId id0)
    (hready : entry.id ≠ none ∨ id0 ∈ memory.channels → slot.IsReady)
    (hlookup : ∀ id, memory'.channels.lookup id =
      if id = id0 ∨ entry.id = some id then some slot else memory.channels.lookup id)
    (hstored : ∀ id entry', Stored' id entry' →
      id = id0 ∧ entry' = entry ∨ (id ≠ id0 ∧ entry.id ≠ some id) ∧ Stored id entry') :
    N.Loaded masterKey indexOf Stored' memory' := by
  constructor
  · exact hmaster
  · exact hbase
  · intro id found hfound
    rw [hlookup] at hfound
    split_ifs at hfound
    · cases hfound
      exact hkeyed
    · exact h.signers id found hfound
  · intro id entry' hentry
    rw [hlookup]
    rcases hstored id entry' hentry with ⟨rfl, rfl⟩ | ⟨hother, hold⟩
    · rw [if_pos (.inl rfl)]
      exact ⟨slot, rfl, hfirst, hid⟩
    · rw [if_neg (not_or.mpr hother)]
      exact h.channels id entry' hold
  · intro first entry' id hentry halias
    rw [hlookup]
    rcases hstored first entry' hentry with ⟨rfl, rfl⟩ | ⟨-, hold⟩
    · rw [if_pos (.inr halias)]
      exact ⟨slot, rfl, hready (.inl (halias ▸ Option.some_ne_none id))⟩
    · obtain ⟨found, hfound, hisReady⟩ := h.aliases first entry' id hold halias
      split_ifs with htouched
      · refine ⟨slot, rfl, hready (htouched.symm.imp (fun hsame => ?_) fun hsame => ?_)⟩
        · exact hsame ▸ Option.some_ne_none id
        · exact hsame ▸ lookup_isSome.mp (hfound ▸ rfl)
      · exact ⟨found, hfound, hisReady⟩

/-- A channel whose keys can be derived is stored beside the channels. -/
theorem Reloadable.insert (h : N.Reloadable masterKey indexOf store) (hkeys : ∃ keys,
      N.keysAt masterKey (N.keysId id0) (indexOf (N.keysId id0)) = .ok keys)
    (halias : ∀ id, entry.id = some id → id = id0 ∨ id ∉ store)
    (hother : ∀ first entry' id, store.lookup first = some entry' → entry'.id = some id →
      id ∉ store → id ≠ id0)
    (hstub : entry.channelSetup = none → entry.id = none) :
    N.Reloadable masterKey indexOf (store.insert id0 entry) := by
  constructor
  · intro first hfirst
    rcases (mem_insert _).mp hfirst with rfl | hfirst
    · exact hkeys
    · exact h.keys first hfirst
  · intro first entry' id hlookup hentry
    rw [mem_insert, not_or]
    rcases stored_insert hlookup with ⟨rfl, rfl⟩ | ⟨-, hold⟩
    · exact (em (id = first)).imp_right fun hne =>
        ⟨hne, (halias id hentry).resolve_left hne⟩
    · exact (h.aliases first entry' id hold hentry).imp_right fun hnot =>
        ⟨hother first entry' id hold hentry hnot, hnot⟩
  · intro first entry' hlookup hsetup
    rcases stored_insert hlookup with ⟨-, rfl⟩ | ⟨-, hold⟩
    · exact hstub hsetup
    · exact h.stubs first entry' hold hsetup

/-- A new stub with its keys is kept beside the channels. -/
theorem Sound.made (h : N.Sound masterKey indexOf s) (hmaster : manager.masterKey = masterKey)
    (hbase : manager.channelSeedBase = N.channelSeedBase)
    (hsigner : N.Keyed masterKey indexOf signer) (hid : signer.channelKeysId = N.keysId channelId)
    (hnew : channelId ∉ s.memory.channels) :
    N.Sound masterKey indexOf
      ⟨⟨manager, s.memory.channels.insert channelId (.stub channelId signer blockheight)⟩,
        s.store.insert channelId ⟨0, none, none, some blockheight⟩⟩ := by
  constructor
  · refine h.loaded.placed ⟨0, none, none, some blockheight⟩ (.stub channelId signer blockheight)
      hmaster hbase hsigner rfl hid (fun hready => ?_) (fun id => ?_) fun id entry hstored => ?_
    · exact absurd hready (not_or.mpr ⟨not_not.mpr rfl, hnew⟩)
    · simp only [lookup_insert_eq, ChannelSlot.id0, reduceCtorEq, or_false]
    · exact (stored_insert hstored).imp_right fun hold => ⟨⟨hold.1, nofun⟩, hold.2⟩
  · refine h.reloadable.insert ⟨signer.keys, hid ▸ hsigner⟩ (fun id halias => ?_)
      (fun first entry id hold halias _ => h.loaded.alias_ne hnew hold halias) fun _ => rfl
    cases halias

/-! ## Readiness -/

variable {channelId0 : ChannelId} {optChannelId : Option ChannelId}

theorem lookup_insertReady (channels : Table ChannelId ChannelSlot) (channelId0 : ChannelId)
    (optChannelId : Option ChannelId) (slot : ChannelSlot) (id : ChannelId) :
    (insertReady channels channelId0 optChannelId slot).lookup id =
      if id = channelId0 ∨ optChannelId = some id then some slot else channels.lookup id := by
  rw [insertReady]
  cases optChannelId with
  | none =>
    rw [Option.getD_none, if_neg (not_not_intro rfl), lookup_insert_eq]
    simp only [reduceCtorEq, or_false]
  | some permanent =>
    simp only [Option.getD_some, Option.some.injEq]
    by_cases hsame : channelId0 = permanent
    · subst hsame
      rw [if_neg (not_not_intro rfl), lookup_insert_eq]
      simp only [eq_comm, or_self]
    · rw [if_pos hsame, lookup_insert_eq, lookup_insert_eq]
      by_cases hfirst : id = channelId0
      · rw [if_pos hfirst, if_pos (.inl hfirst)]
      · simp only [hfirst, false_or, if_false, eq_comm]

/-- A stub that gets ready keeps its keys, no other channel loses its place, and without the first
identifier of another channel it can be brought back. -/
theorem Sound.ready (h : N.Sound masterKey indexOf s) {setup : ChannelSetup}
    (hold : s.memory.channels.lookup channelId0 = some (.stub id0 signer blockheight))
    (hstored : channelId0 ∈ s.store)
    (hpermanent : ∀ id, optChannelId = some id → id = channelId0 ∨ id ∉ s.store) :
    N.Sound masterKey indexOf ⟨{ s.memory with
        channels := insertReady s.memory.channels channelId0 optChannelId (.ready channelId0
          optChannelId (channelKeysWithChannelValue signer setup.channelValueSat) setup) },
      s.store.insert channelId0 ⟨setup.channelValueSat, some setup, optChannelId, none⟩⟩ := by
  obtain ⟨before, hbefore⟩ := Option.isSome_iff_exists.mp (lookup_isSome.mpr hstored)
  obtain ⟨slot, hslot, -, hid⟩ := h.loaded.channels channelId0 before hbefore
  obtain rfl := Option.some.inj (hslot.symm.trans hold)
  have hkeyed : N.Keyed masterKey indexOf signer := h.loaded.signers channelId0 _ hold
  constructor
  · refine h.loaded.placed ⟨setup.channelValueSat, some setup, optChannelId, none⟩
      (.ready channelId0 optChannelId (channelKeysWithChannelValue signer setup.channelValueSat)
        setup) h.loaded.master h.loaded.seedBase hkeyed rfl hid (fun _ => trivial)
      (lookup_insertReady s.memory.channels channelId0 optChannelId _) fun id entry hlookup => ?_
    refine (stored_insert hlookup).imp_right fun ⟨hne, hlookup⟩ => ⟨⟨hne, fun hsame => ?_⟩, hlookup⟩
    exact (hpermanent id hsame).elim hne fun hnot => hnot (lookup_isSome.mp (hlookup ▸ rfl))
  · exact h.reloadable.insert (h.reloadable.keys channelId0 hstored) hpermanent
      (fun _ _ id _ _ hnot heq => hnot (heq ▸ hstored)) nofun

/-! ## Pruning -/

theorem Sound.pruned (h : N.Sound masterKey indexOf s) (currentBlockheight : Nat) :
    N.Sound masterKey indexOf (pruneChannels currentBlockheight s) := by
  obtain ⟨hloaded, hreloadable⟩ := h
  have hstore {id : ChannelId} {entry : StoredChannel}
      (hlookup : (pruneChannels currentBlockheight s).store.lookup id = some entry) :
      s.store.lookup id = some entry ∧
        ¬ (s.memory.channels.lookup id).any (ChannelSlot.isPrunable currentBlockheight) := by
    rw [pruneChannels, lookup_retain_keys] at hlookup
    split_ifs at hlookup with hkept
    exact ⟨hlookup, by simpa using hkept⟩
  have hmem {id : ChannelId} (hid : id ∈ (pruneChannels currentBlockheight s).store) :
      id ∈ s.store ∧
        ¬ (s.memory.channels.lookup id).any (ChannelSlot.isPrunable currentBlockheight) := by
    obtain ⟨entry, hentry⟩ := Option.isSome_iff_exists.mp (lookup_isSome.mpr hid)
    obtain ⟨hlookup, hkept⟩ := hstore hentry
    exact ⟨lookup_isSome.mp (hlookup ▸ rfl), hkept⟩
  have hchannels (id : ChannelId) :
      (pruneChannels currentBlockheight s).memory.channels.lookup id =
        (s.memory.channels.lookup id).filter fun slot => !slot.isPrunable currentBlockheight :=
    lookup_retain _ _ id
  constructor
  · constructor
    · exact hloaded.master
    · exact hloaded.seedBase
    · intro id slot hslot
      rw [hchannels, Option.filter_eq_some_iff] at hslot
      exact hloaded.signers id slot hslot.1
    · intro id0 entry hlookup
      obtain ⟨hlookup, hkept⟩ := hstore hlookup
      obtain ⟨slot, hslot, hkeys⟩ := hloaded.channels id0 entry hlookup
      refine ⟨slot, ?_, hkeys⟩
      rw [hslot, Option.any_some] at hkept
      rw [hchannels, hslot, Option.filter_some, if_pos (by simpa using hkept)]
    · intro id0 entry id hlookup hentry
      obtain ⟨slot, hslot, hready⟩ := hloaded.aliases id0 entry id (hstore hlookup).1 hentry
      refine ⟨slot, ?_, hready⟩
      cases slot with
      | stub id0 signer blockheight => exact hready.elim
      | ready id0 id signer setup => rw [hchannels, hslot]; rfl
  · constructor
    · intro id0 hid0
      exact hreloadable.keys id0 (hmem hid0).1
    · intro id0 entry id hlookup hentry
      exact (hreloadable.aliases id0 entry id (hstore hlookup).1 hentry).imp_right
        fun hnot hid => hnot (hmem hid).1
    · intro id0 entry hlookup hsetup
      exact hreloadable.stubs id0 entry (hstore hlookup).1 hsetup

/-! ## Restarts -/

/-- A stored channel has been brought back into memory: it has its keys, and it is found under its
identifiers. -/
structure BroughtBack (N : KeyNode ξ) (masterKey : ξ) (indexOf : Bytes32 → Nat)
    (memory memory' : KeyMemory ξ) (id0 : ChannelId) (entry : StoredChannel) (slot : ChannelSlot) :
    Prop where
  manager : memory.manager.SameKeys memory'.manager
  index : memory'.manager.lndBasepointIndex = (memory.manager.lndBasepointIndex + 1) % 2 ^ 32
  keyed : N.Keyed masterKey indexOf slot.signer
  first : slot.id0 = id0
  keysId : slot.signer.channelKeysId = N.keysId id0
  ready : entry.id ≠ none → slot.IsReady
  lookup : ∀ id, memory'.channels.lookup id =
    if id = id0 ∨ entry.id = some id then some slot else memory.channels.lookup id

theorem signer_restoredSlot (blockheight : Nat) (id0 : ChannelId) (entry : StoredChannel)
    (signer : KeyedSigner) : (restoredSlot blockheight id0 entry signer).signer = signer := by
  rw [restoredSlot]
  cases entry.channelSetup with
  | none => rfl
  | some setup => rfl

/-- A stored channel that is not in memory comes back when its keys can be derived at the fixed
index. -/
theorem restoreChannel_total (blockheight : Nat) (hmaster : memory.manager.masterKey = masterKey)
    (hbase : memory.manager.channelSeedBase = N.channelSeedBase) (hnew : id0 ∉ memory.channels)
    (hagrees : N.Agrees masterKey indexOf (N.keysId id0, memory.manager.lndBasepointIndex))
    (hkeys : ∃ keys, N.keysAt masterKey (N.keysId id0) (indexOf (N.keysId id0)) = .ok keys)
    (hstub : entry.channelSetup = none → entry.id = none) :
    ∃ memory' slot, N.restoreChannel blockheight memory id0 entry = .ok memory' ∧
      N.BroughtBack masterKey indexOf memory memory' id0 entry slot := by
  obtain ⟨keys, hkeys⟩ := hkeys
  have hkeysAt : N.keysAt memory.manager.masterKey (N.keysId id0) memory.manager.lndBasepointIndex =
      .ok keys := by
    rw [hmaster]
    exact hagrees.trans hkeys
  have hderived : N.getChannelKeysWithId memory.manager id0 entry.channelValueSatoshis =
      .ok (⟨keys, entry.channelValueSatoshis, N.keysId id0⟩,
        { memory.manager with
          lndBasepointIndex := (memory.manager.lndBasepointIndex + 1) % 2 ^ 32 }) := by
    rw [getChannelKeysWithId, hbase, getChannelKeysWithKeysId_eq_ok]
    exact ⟨hkeysAt, rfl, rfl, rfl⟩
  have hassert : (assert (id0 ∉ memory.channels)
      "assertion failed: !channels.contains_key(&channel_id0)" : Result Unit) = .ok () :=
    assert_eq_ok.mpr hnew
  rw [restoreChannel, hassert, ok_bind, hderived, ok_bind]
  refine ⟨_, restoredSlot blockheight id0 entry ⟨keys, entry.channelValueSatoshis, N.keysId id0⟩,
    rfl, ⟨rfl, rfl⟩, rfl, ?_, ?_, ?_, ?_, ?_⟩
  · rw [Keyed, signer_restoredSlot]
    exact hkeys
  · rw [restoredSlot]
    cases entry.channelSetup with
    | none => rfl
    | some setup => rfl
  · rw [signer_restoredSlot]
  · intro hid
    rw [restoredSlot]
    cases hsetup : entry.channelSetup with
    | none => exact absurd (hstub hsetup) hid
    | some setup => trivial
  · intro id
    cases hid : entry.id with
    | none => simp only [lookup_insert_eq, reduceCtorEq, or_false]
    | some permanent =>
      simp only [lookup_insert_eq, Option.some.injEq]
      by_cases hsame : id = permanent
      · rw [if_pos hsame, if_pos (.inr hsame.symm)]
      · have hother : permanent ≠ id := fun heq => hsame heq.symm
        simp only [if_neg hsame, hother, or_false]

/-- Bringing one more channel back keeps those that are back, whose first identifiers differ from
the identifiers of the new one. -/
theorem Loaded.broughtBack {before : List (ChannelId × StoredChannel)} {memory' : KeyMemory ξ}
    {slot : ChannelSlot}
    (h : N.Loaded masterKey indexOf (fun id entry => (id, entry) ∈ before) memory)
    (hback : N.BroughtBack masterKey indexOf memory memory' id0 entry slot)
    (hnew : id0 ∉ memory.channels) (hseparate : ∀ x ∈ before, x.1 ≠ id0 ∧ entry.id ≠ some x.1) :
    N.Loaded masterKey indexOf (fun id entry' => (id, entry') ∈ before ++ [(id0, entry)])
      memory' := by
  refine h.placed entry slot (hback.manager.masterKey.trans h.master)
    (hback.manager.channelSeedBase.trans h.seedBase) hback.keyed hback.first hback.keysId
    (fun hready => hback.ready (hready.resolve_right hnew)) hback.lookup fun id entry' hmem => ?_
  rcases mem_append.mp hmem with hmem | hmem
  · exact .inr ⟨hseparate _ hmem, hmem⟩
  · exact .inl (Prod.mk.inj (mem_singleton.mp hmem))

/-- Stored channels that are not in memory all come back, one after the other. -/
theorem restoreChannels_total {before rest : List (ChannelId × StoredChannel)} (blockheight : Nat)
    (hreloadable : N.Reloadable masterKey indexOf store)
    (h : N.Loaded masterKey indexOf (fun id entry => (id, entry) ∈ before) memory)
    (hstored : ∀ x ∈ before ++ rest, store.lookup x.1 = some x.2)
    (hnodup : ((before ++ rest).map Prod.fst).Nodup) (hnew : ∀ x ∈ rest, x.1 ∉ memory.channels)
    (hagrees : ∀ d ∈ N.restoreDerivations rest memory.manager.lndBasepointIndex,
      N.Agrees masterKey indexOf d) :
    ∃ memory', N.restoreChannels blockheight rest memory = .ok memory' ∧
      N.Loaded masterKey indexOf (fun id entry => (id, entry) ∈ before ++ rest) memory' := by
  induction rest generalizing before memory with
  | nil =>
    rw [append_nil]
    exact ⟨memory, rfl, h⟩
  | cons x rest ih =>
    obtain ⟨id0, entry⟩ := x
    have hlookup : store.lookup id0 = some entry :=
      hstored _ (mem_append_right _ mem_cons_self)
    have hmem {x : ChannelId × StoredChannel} (hx : x ∈ before ++ (id0, entry) :: rest) :
        x.1 ∈ store := lookup_isSome.mp (hstored x hx ▸ rfl)
    have hdistinct : (id0, entry).1 ∉ (before ++ rest).map Prod.fst := by
      rw [map_append, map_cons, nodup_middle, nodup_cons,
        ← map_append] at hnodup
      exact hnodup.1
    have hseparate {x : ChannelId × StoredChannel} (hx : x ∈ before ++ rest) :
        x.1 ≠ id0 ∧ entry.id ≠ some x.1 := by
      have hne : x.1 ≠ id0 := fun heq => hdistinct (mem_map.mpr ⟨x, hx, heq⟩)
      refine ⟨hne, fun hentry => ?_⟩
      have hin : x.1 ∈ store := by
        rcases mem_append.mp hx with hx | hx
        · exact hmem (mem_append_left _ hx)
        · exact hmem (mem_append_right _ (mem_cons_of_mem _ hx))
      exact (hreloadable.aliases id0 entry x.1 hlookup hentry).elim hne fun hnot => hnot hin
    have hnew₀ : id0 ∉ memory.channels := hnew _ mem_cons_self
    obtain ⟨memory₁, slot, hrestore, hback⟩ := restoreChannel_total blockheight h.master h.seedBase
      hnew₀ (hagrees _ mem_cons_self)
      (hreloadable.keys id0 (hmem (mem_append_right _ mem_cons_self)))
      (hreloadable.stubs id0 entry hlookup)
    have hloaded := h.broughtBack hback hnew₀ fun x hx => hseparate (mem_append_left _ hx)
    have hnew₁ : ∀ x ∈ rest, x.1 ∉ memory₁.channels := by
      intro x hx
      rw [← lookup_eq_none, hback.lookup,
        if_neg (not_or.mpr (hseparate (mem_append_right _ hx))), lookup_eq_none]
      exact hnew x (mem_cons_of_mem _ hx)
    have hagrees₁ : ∀ d ∈ N.restoreDerivations rest memory₁.manager.lndBasepointIndex,
        N.Agrees masterKey indexOf d := by
      intro d hd
      rw [hback.index] at hd
      exact hagrees d (mem_cons_of_mem _ hd)
    rw [← singleton_append, ← append_assoc] at hstored hnodup ⊢
    obtain ⟨memory', hrest, hloaded'⟩ := ih hloaded hstored hnodup hnew₁ hagrees₁
    refine ⟨memory', ?_, hloaded'⟩
    rw [singleton_append, restoreChannels, hrestore, ok_bind, hrest]

/-- A node starts again from a store that allows it. -/
theorem restoreNode_total {secs nanos : Nat} (hstart : N.newManager secs nanos = .ok manager)
    (hreloadable : N.Reloadable manager.masterKey indexOf store) (secs' nanos' blockheight : Nat)
    (hagrees : ∀ d ∈ N.restoreDerivations store.getNodeChannels 0,
      N.Agrees manager.masterKey indexOf d) :
    ∃ memory, N.restoreNode secs' nanos' blockheight store = .ok memory ∧
      N.Loaded manager.masterKey indexOf (fun id0 entry => store.lookup id0 = some entry)
        memory := by
  obtain ⟨manager', hstart'⟩ := newManager_total hstart secs' nanos'
  obtain ⟨hmaster, -⟩ := newManager_ok hstart
  obtain ⟨hmaster', hbase', hindex'⟩ := newManager_ok hstart'
  have hloaded : N.Loaded manager.masterKey indexOf (fun id entry => (id, entry) ∈ [])
      ⟨manager', ∅⟩ :=
    ⟨Except.ok.inj (hmaster'.symm.trans hmaster), hbase', nofun, nofun, nofun⟩
  have hstored : ∀ x ∈ [] ++ store.getNodeChannels, store.lookup x.1 = some x.2 :=
    fun x hx => ChannelStore.mem_getNodeChannels.mp hx
  have hnew : ∀ x ∈ store.getNodeChannels, x.1 ∉ (∅ : Table ChannelId ChannelSlot) :=
    fun x _ => notMem_empty x.1
  rw [← hindex'] at hagrees
  obtain ⟨memory, hrestore, hmemory⟩ :=
    restoreChannels_total blockheight hreloadable hloaded hstored
    store.nodup_getNodeChannels hnew hagrees
  refine ⟨memory, ?_, ?_⟩
  · rw [restoreNode, hstart', ok_bind, hrestore]
  · simpa only [nil_append, ChannelStore.mem_getNodeChannels] using hmemory

end KeyNode

end ValidatingSigner
