import Vls.Keys.Channels

/-!
# What a step does to the keys

For every operation, the cases in which it ends, with the state it leaves; and for a restart, that
it succeeds and what it brings back.
-/

namespace ValidatingSigner

open Base Effect

variable {ξ : Type}

namespace Base.Table

variable {β : Type} {t : Table ChannelId β}

theorem mem_sorted {id : ChannelId} {b : β} :
    (id, b) ∈ (t.entries.map fun s => (s.1, s.2)).insertionSort (fun a b => a.1.bytes ≤ b.1.bytes) ↔
      t.lookup id = some b := by
  have hlookup : t.lookup id = some b ↔ (⟨id, b⟩ : Sigma fun _ => β) ∈ t.entries :=
    AList.mem_lookup_iff
  rw [List.mem_insertionSort, hlookup, List.mem_map]
  constructor
  · rintro ⟨s, hs, heq⟩
    cases heq
    exact hs
  · intro hs
    exact ⟨_, hs, rfl⟩

theorem nodup_sorted (t : Table ChannelId β) :
    (((t.entries.map fun s => (s.1, s.2)).insertionSort fun a b => a.1.bytes ≤ b.1.bytes).map
      Prod.fst).Nodup := by
  have hkeys := t.keys_nodup
  have hperm := (List.perm_insertionSort (fun a b => a.1.bytes ≤ b.1.bytes)
    (t.entries.map fun s => (s.1, s.2))).map Prod.fst
  rw [hperm.nodup_iff, List.map_map]
  exact hkeys

end Base.Table

namespace ChannelStore

variable {store store' : ChannelStore} {id0 : ChannelId}

theorem newChannel_ok {blockheight : Nat} (h : store.newChannel id0 blockheight = .ok store') :
    id0 ∉ store ∧ store' = store.insert id0 ⟨0, none, none, some blockheight⟩ := by
  obtain ⟨_, hnew, h⟩ := bind_ok h
  exact ⟨assert_eq_ok.mp hnew, (pure_eq_ok.mp h).symm⟩

theorem updateChannel_ok {id : Option ChannelId} {setup : ChannelSetup}
    (h : store.updateChannel id0 id setup = .ok store') :
    id0 ∈ store ∧ store' = store.insert id0 ⟨setup.channelValueSat, some setup, id, none⟩ := by
  obtain ⟨_, hold, h⟩ := bind_ok h
  exact ⟨assert_eq_ok.mp hold, (pure_eq_ok.mp h).symm⟩

theorem mem_getNodeChannels {entry : StoredChannel} :
    (id0, entry) ∈ store.getNodeChannels ↔ store.lookup id0 = some entry :=
  Table.mem_sorted

theorem nodup_getNodeChannels (store : ChannelStore) :
    (store.getNodeChannels.map Prod.fst).Nodup :=
  Table.nodup_sorted store

end ChannelStore

/-- The managers derive from the same keys. -/
structure KeysManager.SameKeys (manager manager' : KeysManager ξ) : Prop where
  masterKey : manager'.masterKey = manager.masterKey
  channelSeedBase : manager'.channelSeedBase = manager.channelSeedBase

namespace KeyNode

variable {N : KeyNode ξ} {s s' : KeyState ξ}

/-- What does not touch the channels: the store and the channels are as before, and the manager
derives from the same keys. -/
structure Untouched (s s' : KeyState ξ) : Prop where
  store : s'.store = s.store
  channels : s'.memory.channels = s.memory.channels
  manager : s.memory.manager.SameKeys s'.memory.manager

theorem Untouched.refl (s : KeyState ξ) : Untouched s s := ⟨rfl, rfl, rfl, rfl⟩

/-! ## Creation -/

variable {optChannelId : Option ChannelId}

/-- How the creation of a channel ends: it fails, it finds an old channel, or it makes a stub. -/
inductive NewChannel (N : KeyNode ξ) (s : KeyState ξ) (optChannelId : Option ChannelId)
    (s' : KeyState ξ) : Result (ChannelId × ChannelSlot) → Prop
  | failed {e : Fault Refusal} (untouched : Untouched s s') :
      NewChannel N s optChannelId s' (.error e)
  | found {channelId : ChannelId} {slot : ChannelSlot} (untouched : Untouched s s')
      (old : s.memory.channels.lookup channelId = some slot) :
      NewChannel N s optChannelId s' (.ok (channelId, slot))
  | made {channelId : ChannelId} {manager manager' : KeysManager ξ} {signer : KeyedSigner}
      {blockheight : Nat}
      (chosen : N.chooseChannelId s.memory.manager optChannelId = .ok (channelId, manager))
      (room : s.memory.channels.keys.length < N.maxChannels)
      (new : channelId ∉ s.memory.channels)
      (derived : N.getChannelKeysWithId manager channelId 0 = .ok (signer, manager'))
      (state : s' =
        ⟨⟨manager', s.memory.channels.insert channelId (.stub channelId signer blockheight)⟩,
          s.store.insert channelId ⟨0, none, none, some blockheight⟩⟩) :
      NewChannel N s optChannelId s' (.ok (channelId, .stub channelId signer blockheight))

/-- Choosing an identifier changes neither the keys nor the index. -/
theorem chooseChannelId_ok {manager manager' : KeysManager ξ} {channelId : ChannelId}
    (h : N.chooseChannelId manager optChannelId = .ok (channelId, manager')) :
    manager.SameKeys manager' ∧ manager'.lndBasepointIndex = manager.lndBasepointIndex := by
  cases optChannelId with
  | some id =>
    obtain ⟨-, rfl⟩ := Prod.mk.inj (Except.ok.inj h)
    exact ⟨⟨rfl, rfl⟩, rfl⟩
  | none =>
    rw [getChannelId_ok h]
    exact ⟨⟨rfl, rfl⟩, rfl⟩

/-- Creating a channel ends in one of these ways. -/
theorem exec_newChannel {blockheight : Nat} {r : Result (ChannelId × ChannelSlot)}
    (h : exec (N.newChannel optChannelId blockheight) s = (r, s')) :
    N.NewChannel s optChannelId s' r := by
  rw [newChannel, exec_get_bind, exec_lift_bind_iff] at h
  obtain ⟨e, -, rfl, rfl⟩ | ⟨⟨channelId, manager⟩, hchosen, h⟩ := h
  · exact .failed (.refl s')
  have hkeys := (chooseChannelId_ok hchosen).1
  rw [exec_set_bind, exec_lift_bind_iff] at h
  obtain ⟨e, -, rfl, rfl⟩ | ⟨_, hroom, h⟩ := h
  · exact .failed ⟨rfl, rfl, hkeys⟩
  have hroom := Nat.lt_of_not_le (refuseIf_eq_ok.mp hroom)
  cases hold : s.memory.channels.lookup channelId with
  | some slot =>
    simp only [hold, exec_pure, Prod.mk.injEq] at h
    obtain ⟨rfl, rfl⟩ := h
    exact .found ⟨rfl, rfl, hkeys⟩ hold
  | none =>
    simp only [hold] at h
    rw [exec_lift_bind_iff] at h
    obtain ⟨e, -, rfl, rfl⟩ | ⟨⟨signer, manager'⟩, hderived, h⟩ := h
    · exact .failed ⟨rfl, rfl, hkeys⟩
    rw [exec_lift_bind_iff] at h
    obtain ⟨e, -, rfl, rfl⟩ | ⟨store, hstore, h⟩ := h
    · exact .failed ⟨rfl, rfl, hkeys⟩
    simp only [exec_set_bind, exec_pure, Prod.mk.injEq] at h
    obtain ⟨rfl, rfl⟩ := h
    obtain ⟨-, rfl⟩ := ChannelStore.newChannel_ok hstore
    exact .made hchosen hroom (AList.lookup_eq_none.mp hold) hderived rfl

/-! ## Readiness -/

/-- How making a channel ready ends: nothing changes, or a stub gets ready. -/
inductive ReadyChannel (s : KeyState ξ) (channelId0 : ChannelId) (optChannelId : Option ChannelId)
    (s' : KeyState ξ) : Result ChannelSlot → Prop
  | failed {e : Fault Refusal} (untouched : Untouched s s') :
      ReadyChannel s channelId0 optChannelId s' (.error e)
  | found {slot : ChannelSlot} (untouched : Untouched s s')
      (old : s.memory.channels.lookup channelId0 = some slot) :
      ReadyChannel s channelId0 optChannelId s' (.ok slot)
  | made {id0 : ChannelId} {signer : KeyedSigner} {blockheight : Nat} {setup : ChannelSetup}
      (old : s.memory.channels.lookup channelId0 = some (.stub id0 signer blockheight))
      (stored : channelId0 ∈ s.store)
      (state : s' = ⟨{ s.memory with
          channels := insertReady s.memory.channels channelId0 optChannelId (.ready channelId0
            optChannelId (channelKeysWithChannelValue signer setup.channelValueSat) setup) },
        s.store.insert channelId0 ⟨setup.channelValueSat, some setup, optChannelId, none⟩⟩) :
      ReadyChannel s channelId0 optChannelId s' (.ok (.ready channelId0 optChannelId
        (channelKeysWithChannelValue signer setup.channelValueSat) setup))

/-- Making a channel ready ends in one of these ways. -/
theorem exec_readyChannel {channelId0 : ChannelId} {setup : ChannelSetup} {path : List Nat}
    {r : Result ChannelSlot}
    (h : exec (N.readyChannel channelId0 optChannelId setup path) s = (r, s')) :
    ReadyChannel s channelId0 optChannelId s' r := by
  rw [readyChannel, exec_get_bind] at h
  cases hold : s.memory.channels.lookup channelId0 with
  | none =>
    simp only [hold, exec_lift, Prod.mk.injEq] at h
    obtain ⟨rfl, rfl⟩ := h
    exact .failed (.refl s)
  | some slot =>
    cases slot with
    | ready id0 id signer oldSetup =>
      simp only [hold] at h
      rw [exec_lift_bind_iff] at h
      obtain ⟨e, -, rfl, rfl⟩ | ⟨_, -, h⟩ := h
      · exact .failed (.refl s')
      · cases h
        exact .found (.refl s) hold
    | stub id0 signer blockheight =>
      simp only [hold] at h
      rw [exec_lift_bind_iff] at h
      obtain ⟨e, -, rfl, rfl⟩ | ⟨_, -, h⟩ := h
      · exact .failed (.refl s')
      rw [exec_lift_bind_iff] at h
      obtain ⟨e, -, rfl, rfl⟩ | ⟨_, -, h⟩ := h
      · exact .failed (.refl s')
      rw [exec_lift_bind_iff] at h
      obtain ⟨e, -, rfl, rfl⟩ | ⟨store, hstore, h⟩ := h
      · exact .failed (.refl s')
      simp only [exec_set_bind, exec_pure, Prod.mk.injEq] at h
      obtain ⟨rfl, rfl⟩ := h
      obtain ⟨hstored, rfl⟩ := ChannelStore.updateChannel_ok hstore
      exact .made hold hstored rfl

end KeyNode

end ValidatingSigner
