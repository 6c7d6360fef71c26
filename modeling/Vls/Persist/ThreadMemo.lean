import Vls.Base.PrefixRange
import Vls.Persist.Basic
import Vls.Proxy.Memo

/-!
# The thread-local persister

All entries live in one ordered map from texts, which the caller shares with the persister when it
enters a persist context.  A deleted entry leaves an empty value in its place.  Outside of a context
every call aborts, and a context that is dropped without being exited aborts too.
-/

namespace ValidatingSigner

open Base Text

/-- The shared map, and the keys written in the persist context of the thread if there is one. -/
structure MemoThread where
  store : MemoStore
  dirty : Option (List Text)

namespace ThreadMemo

/-! ## Keys -/

def NODE_ENTRY_PREFIX : Text := "node/entry".toList
def CHANNEL_PREFIX : Text := "channel".toList

/-- The key of an item of an item. -/
def makeKey2 (start : Text) (key1 key2 : List UInt8) : Text :=
  start ++ '/' :: (Text.hex key1 ++ '/' :: Text.hex key2)

/-! ## Contexts -/

/-- Enter a persist context. -/
def enter : PersistOp MemoThread Unit := do
  let t ← get
  Effect.lift (assert (t.dirty = none) "already entered a persist context")
  set { t with dirty := some [] }

/-- Leave the persist context with what was written in it. -/
def exit : PersistOp MemoThread Mutations := do
  let t ← get
  let dirty ← Effect.lift (expect "persist context was already cleared" t.dirty)
  set { t with dirty := none }
  return (Memo.mk t.store dirty).getDirty

/-- Drop a context; what was written in it must have been handled. -/
def drop : PersistOp MemoThread Unit := do
  let t ← get
  set { t with dirty := none }
  Effect.lift (assert (t.dirty = none) "must call exit() and handle the returned entries")

/-- Run a function on the state of the context. -/
def withState {α : Type} (f : Memo → Except (Fault PersistError) (α × Memo)) :
    PersistOp MemoThread α := do
  let t ← get
  let dirty ← Effect.lift (expect "not in persist context" t.dirty)
  let (a, memo) ← Effect.lift (f ⟨t.store, dirty⟩)
  set (⟨memo.store, some memo.dirty⟩ : MemoThread)
  return a

/-- The message of an abort at an entry that is missing. -/
def noneMessage : String := "called `Option::unwrap()` on a `None` value"

section Operations

variable (o : Overflow)

/-- Make a write, which succeeds or aborts. -/
def write (w : Write) : PersistOp MemoThread Unit :=
  withState fun memo => do
    let memo ← unwrapAs unwrapMessage (memo.write o w)
    return ((), memo)

/-- Read the map. -/
def read {α : Type} (f : MemoStore → Except (Fault PersistError) α) : PersistOp MemoThread α :=
  withState fun memo => do
    let a ← f memo.store
    return (a, memo)

def insert2 (start : Text) (key1 key2 value : List UInt8) : PersistOp MemoThread Unit :=
  write o (.insert (makeKey2 start key1 key2) value)

def remove2 (start : Text) (key1 key2 : List UInt8) : PersistOp MemoThread Unit :=
  write o (.remove (makeKey2 start key1 key2))

def get2 (store : MemoStore) (start : Text) (key1 key2 : List UInt8) : Option (List UInt8) :=
  store.valueOf (makeKey2 start key1 key2)

/-- The entries whose keys begin with a text, by the bytes that the rests of their keys write. -/
def getRange (store : MemoStore) (start : Text) :
    Except (Fault PersistError) (List (List UInt8 × Versioned UInt64)) :=
  (store.startsWith start).mapM fun kv => do
    let rest ← kv.1.splitOff start.utf8.length
    let key ← expect "key must be hex" (Text.unhex rest)
    return (key, kv.2)

def getPrefix2 (store : MemoStore) (start : Text) (key1 : List UInt8) :
    Except (Fault PersistError) (List (List UInt8 × Versioned UInt64)) :=
  getRange store (makeKey2 start key1 [])

/-! ## The persister -/

variable (J : Json) (nodeId : PublicKey)

def newChannel (stub : ChannelStub) : PersistOp MemoThread Unit :=
  insert2 o CHANNEL_PREFIX nodeId.serialize stub.id0.bytes (J.channel.toVec (.ofStub stub))

def deleteChannel (channelId : ChannelId) : PersistOp MemoThread Unit :=
  remove2 o CHANNEL_PREFIX nodeId.serialize channelId.bytes

def updateChannel (channel : ReadyChannel) : PersistOp MemoThread Unit :=
  insert2 o CHANNEL_PREFIX nodeId.serialize channel.id0.bytes
    (J.channel.toVec (.ofChannel channel))

/-- The entry of a channel; it is looked up among the node entries. -/
def getChannel (channelId : ChannelId) : PersistOp MemoThread Persist.ChannelEntry :=
  read fun store => do
    let value ← expect noneMessage
      (get2 store NODE_ENTRY_PREFIX nodeId.serialize channelId.bytes)
    expect unwrapMessage (J.channel.fromSlice value)

/-- A channel that was found. -/
def readChannel (kv : List UInt8 × Versioned UInt64) :
    Except (Fault PersistError) (ChannelId × Persist.ChannelEntry) := do
  let entry ← expect unwrapMessage (J.channel.fromSlice kv.2.value)
  return (⟨kv.1⟩, entry)

/-- All the channels of the node. -/
def getNodeChannels : PersistOp MemoThread (List (ChannelId × Persist.ChannelEntry)) :=
  read fun store => do
    let found ← getPrefix2 store CHANNEL_PREFIX nodeId.serialize
    found.mapM (readChannel J)

end Operations

theorem readChannel_eq_ok {J : Json} {kv : List UInt8 × Versioned UInt64} {id : ChannelId}
    {entry : Persist.ChannelEntry} : readChannel J kv = .ok (id, entry) ↔
      ⟨kv.1⟩ = id ∧ J.channel.fromSlice kv.2.value = some entry := by
  rw [readChannel, bind_eq_ok]
  simp only [expect_eq_ok, pure_eq_ok, Prod.mk.injEq]
  constructor
  · rintro ⟨read, hread, hid, rfl⟩
    exact ⟨hid, hread⟩
  · rintro ⟨hid, hread⟩
    exact ⟨entry, hread, hid, rfl⟩

/-! ## Contexts and the map -/

section Contexts

variable {α : Type} {t t' : MemoThread} {dirty : List Text}
  {f : Memo → Except (Fault PersistError) (α × Memo)}

theorem exec_withState_none (h : t.dirty = none) :
    (withState f).exec t = (.error (.abort "not in persist context"), t) := by
  rw [withState, Effect.exec_get_bind, h]
  rfl

/-- In a context a function is run on the map and the keys written so far. -/
theorem exec_withState_some (h : t.dirty = some dirty) :
    (withState f).exec t = match f ⟨t.store, dirty⟩ with
      | .ok (a, memo) => (.ok a, ⟨memo.store, some memo.dirty⟩)
      | .error e => (.error e, t) := by
  rw [withState, Effect.exec_get_bind, h]
  simp only [expect, Effect.exec_bind, Effect.exec_lift]
  cases f ⟨t.store, dirty⟩ with
  | error e => rfl
  | ok result => rfl

theorem exec_read {f : MemoStore → Except (Fault PersistError) α} (h : t.dirty = some dirty) :
    (read f).exec t = (f t.store, t) := by
  have ht : (⟨t.store, some dirty⟩ : MemoThread) = t := by rw [← h]
  rw [read, exec_withState_some h]
  cases hf : f t.store with
  | error e => rfl
  | ok a => exact congrArg (Prod.mk _) ht

end Contexts

/-! ## Writes -/

section Writes

variable {o : Overflow} {w : Write}

/-- A write leaves its value at its key, and all other values as they are. -/
theorem valueOf_write {memo memo' : Memo} (h : memo.write o w = .ok memo') (key : Text) :
    memo'.store.valueOf key = if key = w.key then some w.value else memo.store.valueOf key := by
  rw [Memo.write_eq h]
  split_ifs with hchanges hkey hkey
  · rw [Memo.put, MemoStore.valueOf_insert, if_pos hkey]
  · rw [Memo.put, MemoStore.valueOf_insert, if_neg hkey]
  · subst hkey
    cases w with
    | insert key value => simpa [Write.changes, Write.value] using hchanges
    | remove key => exact absurd rfl hchanges
  · rfl

/-- A write of the persister that succeeds is made in a context, and leaves its value at its key. -/
theorem exec_write_ok {t t' : MemoThread} (h : (write o w).exec t = (.ok (), t')) :
    t.dirty.isSome ∧ t'.dirty.isSome ∧ ∀ key, t'.store.valueOf key =
      if key = w.key then some w.value else t.store.valueOf key := by
  cases hdirty : t.dirty with
  | none =>
    rw [write, exec_withState_none hdirty] at h
    cases h
  | some dirty =>
    rw [write, exec_withState_some hdirty] at h
    cases hwrite : (⟨t.store, dirty⟩ : Memo).write o w with
    | error e =>
      rcases e with e | message <;>
        simp [hwrite, unwrapAs, Bind.bind, Except.bind] at h
    | ok memo =>
      simp only [hwrite, unwrapAs, ok_bind, pure, Except.pure, Prod.mk.injEq, true_and] at h
      subst h
      exact ⟨rfl, rfl, valueOf_write hwrite⟩

end Writes

/-! ## Ranges -/

theorem makeKey2_eq (start : Text) (key1 key2 : List UInt8) :
    makeKey2 start key1 key2 = makeKey2 start key1 [] ++ hex key2 := by
  simp [makeKey2, hex]

theorem makeKey2_inj {start : Text} {key1 a b : List UInt8} :
    makeKey2 start key1 a = makeKey2 start key1 b ↔ a = b := by
  rw [makeKey2_eq start key1 a, makeKey2_eq start key1 b, List.append_cancel_left_eq,
    hex_injective.eq_iff]

/-- The entry of a range for an entry of the map. -/
def stripStart (start : Text) (kv : Text × Versioned UInt64) : List UInt8 × Versioned UInt64 :=
  ((Text.unhex (kv.1.drop start.length)).getD [], kv.2)

@[simp] theorem stripStart_hex (start : Text) (bytes : List UInt8) (value : Versioned UInt64) :
    stripStart start (start ++ hex bytes, value) = (bytes, value) := by
  simp [stripStart, unhex_hex]

section Ranges

variable {store : MemoStore} {start : Text}
  (hhex : ∀ key ∈ store, start <+: key → ∃ bytes, key = start ++ Text.hex bytes)
  {l : List (List UInt8 × Versioned UInt64)}

include hhex

theorem exists_hex_of_mem {kv : Text × Versioned UInt64} (h : kv ∈ store.startsWith start) :
    ∃ bytes, kv.1 = start ++ hex bytes := by
  obtain ⟨hstart, hlookup⟩ := Table.mem_startsWith.mp h
  exact hhex kv.1 (AList.lookup_isSome.mp (Option.isSome_of_mem hlookup)) hstart

/-- A range of keys that go on in hexadecimal is read without an abort. -/
theorem getRange_eq :
    getRange store start = .ok ((store.startsWith start).map (stripStart start)) := by
  apply mapM_eq_ok
  rintro ⟨key, value⟩ hkv
  obtain ⟨bytes, rfl⟩ := exists_hex_of_mem hhex hkv
  rw [splitOff_append, stripStart_hex, ok_bind, unhex_hex]
  rfl

/-- A range holds the entries of the map whose keys go on in hexadecimal. -/
theorem mem_getRange (h : getRange store start = .ok l) {bytes : List UInt8}
    {value : Versioned UInt64} :
    (bytes, value) ∈ l ↔ store.lookup (start ++ hex bytes) = some value := by
  rw [getRange_eq hhex, Except.ok.injEq] at h
  subst h
  rw [List.mem_map]
  constructor
  · rintro ⟨⟨key, value'⟩, hkv, hstrip⟩
    obtain ⟨bytes', rfl⟩ := exists_hex_of_mem hhex hkv
    rw [stripStart_hex] at hstrip
    cases hstrip
    exact (Table.mem_startsWith.mp hkv).2
  · intro hlookup
    exact ⟨_, Table.mem_startsWith.mpr ⟨List.prefix_append _ _, hlookup⟩, stripStart_hex ..⟩

/-- A range holds each key once. -/
theorem nodup_getRange (h : getRange store start = .ok l) : (l.map Prod.fst).Nodup := by
  rw [getRange_eq hhex, Except.ok.injEq] at h
  subst h
  have hkeys := store.nodup_keys_startsWith start
  have hstrip : ((store.startsWith start).map (stripStart start)).map Prod.fst =
      ((store.startsWith start).map Prod.fst).map
        fun key => (unhex (key.drop start.length)).getD [] := by
    rw [List.map_map, List.map_map]
    rfl
  rw [hstrip]
  refine hkeys.map_on ?_
  intro key hkey key' hkey' heq
  obtain ⟨kv, hkv, rfl⟩ := List.mem_map.mp hkey
  obtain ⟨kv', hkv', rfl⟩ := List.mem_map.mp hkey'
  obtain ⟨bytes, hbytes⟩ := exists_hex_of_mem hhex hkv
  obtain ⟨bytes', hbytes'⟩ := exists_hex_of_mem hhex hkv'
  rw [hbytes, hbytes'] at heq ⊢
  simp only [List.drop_left, unhex_hex, Option.getD_some] at heq
  rw [heq]

end Ranges

end ThreadMemo

end ValidatingSigner
