import Vls.Persist.ThreadMemo

/-!
# What the shared map holds

The map of the thread-local persister holds the last entry of each channel of its node, and an empty
value for every channel that was deleted.  The list of all channels reads every value and aborts at
an empty one.
-/

namespace ValidatingSigner.ThreadMemo

open Base Persist

/-! ## Channels -/

/-- What was last written for each channel: nothing yet, an entry, or that it is deleted. -/
abbrev ChannelHistory := ChannelId → Option (Option Persist.ChannelEntry)

/-- The key of a channel. -/
def channelKey (nodeId : PublicKey) (id : ChannelId) : Text :=
  makeKey2 CHANNEL_PREFIX nodeId.serialize id.bytes

/-- The value of a channel. -/
def channelValue (J : Json) : Option Persist.ChannelEntry → List UInt8
  | some entry => J.channel.toVec entry
  | none => []

theorem channelKey_inj {nodeId : PublicKey} {a b : ChannelId} :
    channelKey nodeId a = channelKey nodeId b ↔ a = b := by
  rw [channelKey, channelKey, makeKey2_inj]
  constructor
  · intro h
    cases a
    cases b
    exact congrArg ChannelId.mk h
  · intro h
    rw [h]

/-- The map holds the channels of a history. -/
structure HoldsChannels (J : Json) (nodeId : PublicKey) (history : ChannelHistory)
    (store : MemoStore) : Prop where
  keys : ∀ key ∈ store, makeKey2 CHANNEL_PREFIX nodeId.serialize [] <+: key →
    ∃ id, key = channelKey nodeId id
  values : ∀ id, store.valueOf (channelKey nodeId id) = (history id).map (channelValue J)

/-- The list of all channels holds exactly the channels that were created and not deleted, each once
and with its last entry. -/
def ListsChannels (J : Json) (nodeId : PublicKey) (history : ChannelHistory) (t : MemoThread) :
    Prop :=
  ∃ channels, (getNodeChannels J nodeId).exec t = (.ok channels, t) ∧
    (channels.map Prod.fst).Nodup ∧
    ∀ id entry, (id, entry) ∈ channels ↔ history id = some (some entry)

section HoldsChannels

variable {J : Json} {nodeId : PublicKey} {history : ChannelHistory} {t : MemoThread}

variable (h : HoldsChannels J nodeId history t.store) {found : List (List UInt8 × Versioned UInt64)}

include h

theorem HoldsChannels.hex :
    ∀ key ∈ t.store, makeKey2 CHANNEL_PREFIX nodeId.serialize [] <+: key →
      ∃ bytes, key = makeKey2 CHANNEL_PREFIX nodeId.serialize [] ++ Text.hex bytes := by
  intro key hkey hstart
  obtain ⟨id, rfl⟩ := h.keys key hkey hstart
  exact ⟨id.bytes, makeKey2_eq _ _ _⟩

/-- The value in the map of a channel in the range of all channels. -/
theorem HoldsChannels.mem_getPrefix2
    (hfound : getPrefix2 t.store CHANNEL_PREFIX nodeId.serialize = .ok found) (id : ChannelId)
    (bytes : List UInt8) :
    (∃ value, (id.bytes, value) ∈ found ∧ value.value = bytes) ↔
      (history id).map (channelValue J) = some bytes := by
  rw [← h.values, MemoStore.valueOf, Option.map_eq_some_iff, channelKey, makeKey2_eq]
  exact exists_congr fun value => and_congr_left fun _ => mem_getRange h.hex hfound

/-- What is found is the last entry of its channel, when this was not deleted. -/
theorem HoldsChannels.readChannel_iff (hJ : J.channel.Lawful)
    (hfound : getPrefix2 t.store CHANNEL_PREFIX nodeId.serialize = .ok found) {id : ChannelId}
    {entry : Persist.ChannelEntry} :
    (∃ kv ∈ found, readChannel J kv = .ok (id, entry)) ↔ history id = some (some entry) := by
  constructor
  · rintro ⟨kv, hkv, hok⟩
    obtain ⟨rfl, hread⟩ := readChannel_eq_ok.mp hok
    obtain ⟨last, hlast, hvalue⟩ := Option.map_eq_some_iff.mp
      ((h.mem_getPrefix2 hfound ⟨kv.1⟩ kv.2.value).mp ⟨kv.2, hkv, rfl⟩)
    cases last with
    | none =>
      rw [← hvalue, channelValue, hJ.empty] at hread
      cases hread
    | some written =>
      rw [← hvalue, channelValue, hJ.reads] at hread
      rw [hlast, hread]
  · intro hlast
    obtain ⟨value, hmem, hvalue⟩ := (h.mem_getPrefix2 hfound id (J.channel.toVec entry)).mpr
      (by rw [hlast]; rfl)
    refine ⟨_, hmem, readChannel_eq_ok.mpr ⟨rfl, ?_⟩⟩
    rw [hvalue, hJ.reads]

/-- In a context the values of all channels are read one after the other. -/
theorem HoldsChannels.exec_getNodeChannels (ht : t.dirty.isSome) :
    ∃ found, getPrefix2 t.store CHANNEL_PREFIX nodeId.serialize = .ok found ∧
      (getNodeChannels J nodeId).exec t = (found.mapM (readChannel J), t) := by
  obtain ⟨dirty, hdirty⟩ := Option.isSome_iff_exists.mp ht
  obtain ⟨found, hfound⟩ : ∃ found, getPrefix2 t.store CHANNEL_PREFIX nodeId.serialize =
      .ok found := ⟨_, getRange_eq h.hex⟩
  refine ⟨found, hfound, ?_⟩
  rw [getNodeChannels, exec_read hdirty, hfound, ok_bind]

/-- Where the list of all channels is read, no channel was deleted last. -/
theorem HoldsChannels.ne_deleted (hJ : J.channel.Lawful) (ht : t.dirty.isSome)
    {channels : List (ChannelId × Persist.ChannelEntry)}
    (hchannels : (getNodeChannels J nodeId).exec t = (.ok channels, t)) (id : ChannelId) :
    history id ≠ some none := by
  intro hdeleted
  obtain ⟨found, hfound, hexec⟩ := h.exec_getNodeChannels ht
  rw [hexec] at hchannels
  obtain ⟨value, hmem, hempty⟩ := (h.mem_getPrefix2 hfound id []).mpr (by rw [hdeleted]; rfl)
  obtain ⟨⟨other, entry⟩, hread⟩ := exists_of_mapM (Prod.mk.inj hchannels).1 hmem
  obtain ⟨-, hread⟩ := readChannel_eq_ok.mp hread
  rw [hempty, hJ.empty] at hread
  cases hread

/-- The list of all channels is read in a context without an abort exactly when no channel was
deleted last. -/
theorem HoldsChannels.listsChannels_iff (hJ : J.channel.Lawful) (ht : t.dirty.isSome) :
    ListsChannels J nodeId history t ↔ ∀ id, history id ≠ some none := by
  constructor
  · rintro ⟨channels, hchannels, -, -⟩ id
    exact h.ne_deleted hJ ht hchannels id
  · intro hlive
    obtain ⟨found, hfound, hexec⟩ := h.exec_getNodeChannels ht
    rw [ListsChannels, hexec]
    obtain ⟨channels, hchannels⟩ : ∃ channels, found.mapM (readChannel J) = .ok channels := by
      rw [mapM_ok_iff]
      intro kv hkv
      obtain ⟨last, hlast, hvalue⟩ := Option.map_eq_some_iff.mp
        ((h.mem_getPrefix2 hfound ⟨kv.1⟩ kv.2.value).mp ⟨kv.2, hkv, rfl⟩)
      cases last with
      | none => exact absurd hlast (hlive _)
      | some entry =>
        refine ⟨(⟨kv.1⟩, entry), readChannel_eq_ok.mpr ⟨rfl, ?_⟩⟩
        rw [← hvalue, channelValue, hJ.reads]
    have hids : channels.map Prod.fst = found.map fun kv => (⟨kv.1⟩ : ChannelId) :=
      map_mapM_eq (fun kv _ _ hread => (readChannel_eq_ok.mp hread).1.symm) hchannels
    refine ⟨channels, congrArg (·, t) hchannels, ?_, ?_⟩
    · have hnodup := (nodup_getRange h.hex hfound).map
        (fun a b hab => congrArg ChannelId.bytes hab : Function.Injective ChannelId.mk)
      rw [List.map_map] at hnodup
      rw [hids]
      exact hnodup
    · intro id entry
      rw [mem_mapM_iff hchannels, h.readChannel_iff hJ hfound]

end HoldsChannels

end ValidatingSigner.ThreadMemo
