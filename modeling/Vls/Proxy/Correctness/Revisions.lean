import Vls.Proxy.Memo
import Vls.Storage.Sled

/-!
# The revisions of mutations

A persist context gives a key a new revision each time it writes another value, and the storage
expects one new version for each batch.  The revision of a key after a context is the one before it
plus the number of its changes, so the storage accepts the batch when no key changes twice.
-/

namespace ValidatingSigner

open Base Storage MemoStore List Memo SledDatabase

namespace Write

/-- How many of the writes change a key that has a value. -/
def changesOf (key : Text) : Option (List UInt8) → List Write → Nat
  | _, [] => 0
  | current, w :: writes =>
    if w.key = key ∧ w.changes current then changesOf key (some w.value) writes + 1
    else changesOf key current writes

/-- The value that a key has after writes. -/
def lastOf (key : Text) : Option (List UInt8) → List Write → Option (List UInt8)
  | current, [] => current
  | current, w :: writes => lastOf key (if w.key = key then some w.value else current) writes

end Write

/-! ## The revisions in a context -/

namespace Memo

variable {o : Overflow} {memo memo' : Memo} {key : Text} {writes : List Write} {bound : Nat}

/-- What writes have made of a key: the number of its changes, its value and its next revision. -/
structure Revised (memo memo' : Memo) (key : Text) (writes : List Write) : Prop where
  value : memo'.store.valueOf key = Write.lastOf key (memo.store.valueOf key) writes
  next : memo'.store.nextOf key = memo.store.nextOf key +
    UInt64.ofNat (Write.changesOf key (memo.store.valueOf key) writes)
  dirty : key ∈ memo'.dirty ↔
    key ∈ memo.dirty ∨ Write.changesOf key (memo.store.valueOf key) writes ≠ 0

/-- Writes move the revision of a key by the number of its changes. -/
theorem revised_writeAll (h : writeAll o writes memo = .ok memo') (key : Text) :
    Revised memo memo' key writes := by
  induction writes generalizing memo with
  | nil =>
    cases h
    exact ⟨rfl, by simp [Write.changesOf], by simp [Write.changesOf]⟩
  | cons w writes ih =>
    obtain ⟨memo₁, hwrite, hrest⟩ := bind_ok h
    have hrevised := ih hrest
    have hmemo := write_eq hwrite
    by_cases hkey : w.key = key
    · subst hkey
      by_cases hchanges : w.changes (memo.store.valueOf w.key)
      · rw [if_pos hchanges] at hmemo
        have hvalue : memo₁.store.valueOf w.key = some w.value := by
          rw [hmemo, put, valueOf_insert, if_pos rfl]
        have hnext : memo₁.store.nextOf w.key = memo.store.nextOf w.key + 1 := by
          rw [hmemo, put, nextOf_insert, if_pos rfl]
        have hdirty : w.key ∈ memo₁.dirty := by
          rw [hmemo, put]
          exact mem_insert_self
        constructor
        · rw [hrevised.value, hvalue, Write.lastOf, if_pos rfl]
        · rw [hrevised.next, hvalue, hnext, Write.changesOf, if_pos ⟨rfl, hchanges⟩]
          rw [UInt64.ofNat_add, UInt64.add_assoc, UInt64.add_comm 1]
          rfl
        · rw [hrevised.dirty, Write.changesOf, if_pos ⟨rfl, hchanges⟩]
          simp [hdirty]
      · rw [if_neg hchanges] at hmemo
        obtain rfl := hmemo
        have hsame : memo₁.store.valueOf w.key = some w.value := by
          cases w with
          | insert key value => simpa [Write.changes, Write.value] using hchanges
          | remove key => simp [Write.changes] at hchanges
        constructor
        · rw [hrevised.value, Write.lastOf, if_pos rfl, hsame]
        · rw [hrevised.next, Write.changesOf, if_neg fun hw => hchanges hw.2]
        · rw [hrevised.dirty, Write.changesOf, if_neg fun hw => hchanges hw.2]
    · have hvalue : memo₁.store.valueOf key = memo.store.valueOf key := by
        rw [hmemo]
        split_ifs
        · rw [put, valueOf_insert, if_neg (Ne.symm hkey)]
        · rfl
      have hnext : memo₁.store.nextOf key = memo.store.nextOf key := by
        rw [hmemo]
        split_ifs
        · rw [put, nextOf_insert, if_neg (Ne.symm hkey)]
        · rfl
      have hdirty : key ∈ memo₁.dirty ↔ key ∈ memo.dirty := by
        rw [hmemo]
        split_ifs
        · rw [put, mem_insert_iff, or_iff_right (Ne.symm hkey)]
        · rfl
      constructor
      · rw [hrevised.value, hvalue, Write.lastOf, if_neg hkey]
      · rw [hrevised.next, hnext, hvalue, Write.changesOf, if_neg fun hw => hkey hw.1]
      · rw [hrevised.dirty, hdirty, hvalue, Write.changesOf, if_neg fun hw => hkey hw.1]

/-- Every key changes at most once in the writes, and then not from the last revision. -/
def ChangesOnce (store : MemoStore) (bound : Nat) (writes : List Write) : Prop :=
  ∀ key, Write.changesOf key (store.valueOf key) writes ≤ 1 ∧
    (Write.changesOf key (store.valueOf key) writes ≠ 0 →
      ∀ existing ∈ store.lookup key, existing.version.toNat + 1 < bound)

theorem changesOf_eq_zero (hkey : key ∉ writes.map Write.key) (current : Option (List UInt8)) :
    Write.changesOf key current writes = 0 := by
  induction writes with
  | nil => rfl
  | cons w writes ih =>
    rw [map_cons, mem_cons, not_or] at hkey
    rw [Write.changesOf, if_neg fun hw => hkey.1 hw.1.symm]
    exact ih hkey.2

theorem ChangesOnce.of_keys {store : MemoStore}
    (h : ∀ key ∈ writes.map Write.key, Write.changesOf key (store.valueOf key) writes ≤ 1 ∧
      ∀ existing ∈ store.lookup key, existing.version.toNat + 1 < bound) :
    ChangesOnce store bound writes := by
  intro key
  by_cases hkey : key ∈ writes.map Write.key
  · exact ⟨(h key hkey).1, fun _ => (h key hkey).2⟩
  · rw [changesOf_eq_zero hkey]
    exact ⟨Nat.zero_le 1, fun hne => absurd rfl hne⟩

/-- After the first of such writes the rest are such writes. -/
theorem ChangesOnce.tail {w : Write} (h : ChangesOnce memo.store bound (w :: writes))
    (hwrite : memo.write o w = .ok memo') : ChangesOnce memo'.store bound writes := by
  intro key
  have hkey := h key
  rw [Write.changesOf] at hkey
  rw [write_eq hwrite]
  by_cases hchanges : w.changes (memo.store.valueOf w.key)
  · rw [if_pos hchanges, put, valueOf_insert, Table.lookup_insert_eq]
    by_cases hsame : key = w.key
    · subst hsame
      rw [if_pos ⟨rfl, hchanges⟩] at hkey
      have hzero : Write.changesOf w.key (some w.value) writes = 0 := by omega
      rw [if_pos rfl, hzero]
      exact ⟨Nat.zero_le 1, fun hne => absurd rfl hne⟩
    · rw [if_neg fun hw => hsame hw.1.symm] at hkey
      rw [if_neg hsame, if_neg hsame]
      exact hkey
  · rw [if_neg hchanges]
    by_cases hsame : w.key = key
    · subst hsame
      rwa [if_neg fun hw => hchanges hw.2] at hkey
    · rwa [if_neg fun hw => hsame hw.1] at hkey

/-- Writes that change every key at most once go through. -/
theorem ChangesOnce.exists_writeAll {store : MemoStore} (h : ChangesOnce memo.store bound writes)
    (hbound : bound ≤ 2 ^ 64) (hcovers : memo.Covers store) :
    ∃ memo', writeAll o writes memo = .ok memo' := by
  induction writes generalizing memo with
  | nil => exact ⟨memo, rfl⟩
  | cons w writes ih =>
    have hroom (hchanges : w.changes (memo.store.valueOf w.key))
        (existing : Versioned UInt64) (hexisting : existing ∈ memo.store.lookup w.key) :
        existing.version.toNat + 1 < 2 ^ 64 := by
      have hkey := (h w.key).2
      rw [Write.changesOf, if_pos ⟨rfl, hchanges⟩] at hkey
      exact Nat.lt_of_lt_of_le (hkey (Nat.succ_ne_zero _) existing hexisting) hbound
    obtain ⟨memo₁, hwrite⟩ := exists_write (o := o) hcovers hroom
    have hone : writeAll o [w] memo = .ok memo₁ := bind_eq_ok.mpr ⟨memo₁, hwrite, rfl⟩
    obtain ⟨memo', hrest⟩ := ih (h.tail hwrite)
      (hcovers.writeAll hone)
    exact ⟨memo', bind_eq_ok.mpr ⟨memo₁, hwrite, hrest⟩⟩

end Memo

/-! ## Contexts and the storage -/

/-- A value as it is sent to the storage, whose versions are signed. -/
def lssValue (value : Versioned UInt64) : Value := ⟨value.version.toInt64, value.value⟩

/-- Mutations as they are sent to the storage. -/
def lssPut (muts : Mutations) : KeyValues Int64 := muts.map fun kv => (kv.1, lssValue kv.2)

/-- The map of the signer, and the tree of the storage. -/
structure PersistState where
  store : MemoStore
  database : SledDatabase

/-- The signer and its storage, with what they do on overflow, and the signer's identifier. -/
structure Persisting where
  signerOverflow : Overflow
  serverOverflow : Overflow
  clientId : List UInt8

namespace Persisting

variable (P : Persisting)

/-- Enter a context, make the writes, exit, and put the mutations.  Nothing is left when the signer
aborts. -/
def contextStep : Option PersistState → List Write →
    Option PersistState × Option (Mutations × Except (Fault DbError) Unit)
  | none, _ => (none, none)
  | some s, writes => match Memo.writeAll P.signerOverflow writes ⟨s.store, []⟩ with
    | .error _ => (none, none)
    | .ok memo =>
      let (result, database) :=
        (put P.serverOverflow P.clientId (lssPut memo.getDirty)).exec s.database
      (some ⟨memo.store, database⟩, some (memo.getDirty, result))

/-- Contexts one after the other. -/
def contextMachine : Machine (Option PersistState) (List Write)
    (Option (Mutations × Except (Fault DbError) Unit)) := ⟨P.contextStep⟩

/-- The storage has what the signer has. -/
def Synced (s : PersistState) : Prop :=
  ∀ key, s.database.lookup (sledKey P.clientId key) = (s.store.lookup key).map lssValue

end Persisting

/-- The mutations are the changed keys, each once, with the values written last and the revisions
that follow those before the writes. -/
structure Consecutive (store : MemoStore) (writes : List Write) (muts : Mutations) : Prop where
  keys : (muts.map Prod.fst).Nodup
  changed : ∀ key, key ∈ muts.map Prod.fst ↔ Write.changesOf key (store.valueOf key) writes ≠ 0
  value : ∀ kv ∈ muts, Write.lastOf kv.1 (store.valueOf kv.1) writes = some kv.2.value
  version : ∀ kv ∈ muts, kv.2.version = store.nextOf kv.1

namespace Memo

variable {o : Overflow} {memo memo' : Memo} {key : Text}

theorem nodup_dirty_put (h : memo.dirty.Nodup) (key : Text) (value : Versioned UInt64) :
    (memo.put key value).dirty.Nodup := h.insert

/-- The dirty keys of a context are listed once. -/
theorem nodup_dirty_writeAll {writes : List Write} (hnodup : memo.dirty.Nodup)
    (h : writeAll o writes memo = .ok memo') : memo'.dirty.Nodup := by
  induction writes generalizing memo with
  | nil =>
    cases h
    exact hnodup
  | cons w writes ih =>
    obtain ⟨memo₁, hwrite, hrest⟩ := bind_ok h
    refine ih ?_ hrest
    rcases write_ok hwrite with rfl | ⟨key, value, rfl⟩
    · exact hnodup
    · exact nodup_dirty_put hnodup key value

/-- The keys of the mutations are the dirty keys. -/
theorem mem_keys_getDirty {store : MemoStore} (h : memo.Covers store) :
    key ∈ memo.getDirty.map Prod.fst ↔ key ∈ memo.dirty := by
  constructor
  · intro hkey
    obtain ⟨⟨_, value⟩, hmem, rfl⟩ := mem_map.mp hkey
    exact (mem_getDirty.mp hmem).1
  · intro hkey
    obtain ⟨value, hvalue⟩ := Option.isSome_iff_exists.mp (h.dirty key hkey)
    exact mem_map.mpr ⟨(key, value), mem_getDirty.mpr ⟨hkey, hvalue⟩, rfl⟩

/-- The mutations list each key once. -/
theorem nodup_keys_getDirty (h : memo.dirty.Nodup) : (memo.getDirty.map Prod.fst).Nodup := by
  have hsorted : (memo.dirty.insertionSort Text.le).Nodup :=
    (perm_insertionSort _ _).nodup_iff.mpr h
  refine hsorted.sublist ?_
  rw [getDirty, map_filterMap]
  generalize memo.dirty.insertionSort Text.le = keys
  induction keys with
  | nil => exact Sublist.slnil
  | cons key keys ih =>
    rw [filterMap_cons]
    rcases hlookup : memo.store.lookup key with _ | value
    · exact ih.cons key
    · exact ih.cons_cons key

/-- A context that changes every key at most once has consecutive mutations. -/
theorem ChangesOnce.consecutive {store : MemoStore} {bound : Nat} {writes : List Write}
    (hchanges : ChangesOnce store bound writes)
    (h : writeAll o writes ⟨store, []⟩ = .ok memo') :
    Consecutive store writes memo'.getDirty := by
  have hcovers := (Covers.new store).writeAll h
  have hdirty (key : Text) : key ∈ memo'.dirty ↔
      Write.changesOf key (store.valueOf key) writes ≠ 0 := by
    simpa using (revised_writeAll h key).dirty
  constructor
  · exact nodup_keys_getDirty (nodup_dirty_writeAll nodup_nil h)
  · intro key
    rw [mem_keys_getDirty hcovers, hdirty]
  · intro kv hkv
    have hvalue := (revised_writeAll h kv.1).value
    rw [MemoStore.valueOf, (mem_getDirty.mp hkv).2] at hvalue
    exact hvalue.symm
  · intro kv hkv
    have hnext := (revised_writeAll h kv.1).next
    have hone : Write.changesOf kv.1 (store.valueOf kv.1) writes = 1 := by
      have hne := (hdirty kv.1).mp (mem_getDirty.mp hkv).1
      have hle := (hchanges kv.1).1
      omega
    rw [hone, nextOf, (mem_getDirty.mp hkv).2] at hnext
    exact UInt64.add_left_inj 1 |>.mp hnext

end Memo

/-! ## The storage accepts consecutive mutations -/

theorem toInt_toInt64_of_lt {revision : UInt64} (h : revision.toNat < 2 ^ 63) :
    revision.toInt64.toInt = revision.toNat := by
  have hbits : revision.toInt64.toInt = revision.toBitVec.toInt := rfl
  have hnat : revision.toBitVec.toNat = revision.toNat := rfl
  rw [hbits, BitVec.toInt_eq_toNat_of_lt (by omega), hnat]

namespace Persisting

variable {P : Persisting} {s : PersistState}

/-- Below the range of signed versions the storage expects the next revision. -/
theorem nextVersion_eq (o : Overflow) {existing : Option (Versioned UInt64)}
    (hsmall : ∀ e ∈ existing, e.version.toNat + 1 < 2 ^ 63) :
    nextVersion o (existing.map lssValue) =
      .ok ((existing.map fun e : Versioned UInt64 => e.version + 1).getD 0).toInt64 := by
  cases existing with
  | none => rfl
  | some e =>
    have hlt := hsmall e rfl
    have hnext : (e.version + 1).toNat = e.version.toNat + 1 := by
      have hone : (1 : UInt64).toNat = 1 := rfl
      rw [UInt64.toNat_add]
      omega
    have hversion : e.version.toInt64.toInt = e.version.toNat := toInt_toInt64_of_lt (by omega)
    have hsum : (e.version + 1).toInt64 = Int64.ofInt (e.version.toNat + 1) := by
      apply Int64.toInt_inj.mp
      rw [Int64.toInt_ofInt_of_le (by omega) (by omega), toInt_toInt64_of_lt (by omega), hnext]
      rfl
    simp only [Option.map_some, Option.getD_some, nextVersion, lssValue, hversion,
      Overflow.i64, hsum]
    rw [if_pos (by omega)]

/-- The storage accepts consecutive mutations of keys with small revisions. -/
theorem Synced.exec_put (hsynced : P.Synced s) {writes : List Write} {muts : Mutations}
    (hmuts : Consecutive s.store writes muts)
    (hsmall : ∀ kv ∈ muts, ∀ e ∈ s.store.lookup kv.1, e.version.toNat + 1 < 2 ^ 63) :
    (put P.serverOverflow P.clientId (lssPut muts)).exec s.database =
      (.ok (), insertAll P.clientId (lssPut muts) s.database) := by
  refine exec_put_eq_ok_iff.mpr ⟨?_, rfl⟩
  intro kv hkv
  obtain ⟨mutation, hmem, rfl⟩ := mem_map.mp hkv
  rw [hsynced mutation.1, nextVersion_eq P.serverOverflow (hsmall mutation hmem)]
  exact congrArg (fun version : UInt64 => Except.ok version.toInt64)
    (hmuts.version mutation hmem).symm

/-- After a put that was accepted the storage has what the signer has. -/
theorem Synced.put (hsynced : P.Synced s) {memo : Memo} (hcovers : memo.Covers s.store)
    (hnodup : memo.dirty.Nodup) :
    P.Synced ⟨memo.store,
      insertAll P.clientId (lssPut memo.getDirty) s.database⟩ := by
  intro key
  by_cases hkey : key ∈ memo.dirty
  · obtain ⟨value, hvalue⟩ := Option.isSome_iff_exists.mp (hcovers.dirty key hkey)
    have hmem : (key, lssValue value) ∈ lssPut memo.getDirty :=
      mem_map.mpr ⟨(key, value), mem_getDirty.mpr ⟨hkey, hvalue⟩, rfl⟩
    have hone : ∀ a ∈ lssPut memo.getDirty, ∀ b ∈ lssPut memo.getDirty, a.1 = b.1 → a = b := by
      intro a ha b hb
      have hkeys : ((lssPut memo.getDirty).map Prod.fst).Nodup := by
        rw [lssPut, map_map]
        exact nodup_keys_getDirty hnodup
      exact inj_on_of_nodup_map hkeys ha hb
    rw [hvalue]
    exact lookup_insertAll_of_mem hmem hone
  · rw [hcovers.clean key hkey, ← hsynced key]
    refine lookup_insertAll_of_ne ?_
    intro kv hkv heq
    obtain ⟨mutation, hmem, rfl⟩ := mem_map.mp hkv
    obtain rfl := (sledKey_inj.mp heq).2
    exact hkey (mem_getDirty.mp hmem).1

/-- A context that changes every key at most once ends with consecutive mutations, which the storage
accepts. -/
theorem Synced.context (hsynced : P.Synced s) {writes : List Write}
    (hchanges : ChangesOnce s.store (2 ^ 63) writes) :
    ∃ muts t, P.contextStep (some s) writes = (some t, some (muts, .ok ())) ∧
      Consecutive s.store writes muts ∧ P.Synced t := by
  obtain ⟨memo, hwrites⟩ : ∃ memo, writeAll P.signerOverflow writes ⟨s.store, []⟩ = .ok memo :=
    hchanges.exists_writeAll (by decide) (Covers.new s.store)
  have hmuts := hchanges.consecutive hwrites
  have hput := hsynced.exec_put hmuts fun kv hkv =>
    (hchanges kv.1).2 ((hmuts.changed kv.1).mp (mem_map_of_mem hkv))
  refine ⟨memo.getDirty, _, ?_, hmuts, hsynced.put ((Covers.new s.store).writeAll hwrites)
    (nodup_dirty_writeAll nodup_nil hwrites)⟩
  simp only [contextStep, hwrites, hput]

end Persisting

/-- A recorded context. -/
abbrev ContextEntry := Entry (Option PersistState) (List Write)
  (Option (Mutations × Except (Fault DbError) Unit))

/-- The context changes every key at most once, below the range of the storage's versions. -/
def ContextEntry.ChangesOnce (x : ContextEntry) : Prop :=
  ∀ s ∈ x.before, Memo.ChangesOnce s.store (2 ^ 63) x.event

/-- In every sequence of contexts that each change every key at most once, all contexts end with
consecutive mutations, and the storage accepts them. -/
theorem revisions_consecutive (P : Persisting) {s : PersistState} (hsynced : P.Synced s)
    (contexts : List (List Write))
    (hchanges : ∀ x ∈ P.contextMachine.trace (some s) contexts, ContextEntry.ChangesOnce x) :
    ∀ x ∈ P.contextMachine.trace (some s) contexts, ∃ before muts, x.before = some before ∧
      x.answer = some (muts, .ok ()) ∧ Consecutive before.store x.event muts := by
  refine P.contextMachine.trace_induction (P := fun state => ∃ t, state = some t ∧ P.Synced t)
    ⟨s, rfl, hsynced⟩ ?_ contexts hchanges
  rintro _ writes ⟨t, rfl, ht⟩ hstep
  obtain ⟨muts, u, hcontext, hmuts, hu⟩ := ht.context (hstep t rfl)
  have hentry : P.contextMachine.step (some t) writes = (some u, some (muts, .ok ())) := hcontext
  exact ⟨⟨u, by rw [hentry], hu⟩, t, muts, rfl, by rw [Machine.entry_answer, hentry], hmuts⟩

namespace Sample

/-- A signer and a storage that check overflow. -/
def persisting : Persisting := ⟨.checked, .checked, [3]⟩

/-- Nothing has been written. -/
def nothingStored : PersistState := ⟨∅, ∅⟩

/-- A key is inserted; then it gets another value twice, and another key is removed. -/
def contexts : List (List Write) :=
  [[.insert ['a'] [1]], [.insert ['a'] [2], .insert ['a'] [2], .remove ['b']]]

end Sample

/-- A context that inserts a key, and one that changes it and removes another, are accepted. -/
theorem revisions_consecutive_sample :
    Sample.persisting.Synced Sample.nothingStored ∧
      ∀ x ∈ Sample.persisting.contextMachine.trace (some Sample.nothingStored) Sample.contexts,
        ∃ before muts, x.before = some before ∧ x.answer = some (muts, .ok ()) ∧
          Consecutive before.store x.event muts := by
  have hsynced : Sample.persisting.Synced Sample.nothingStored := fun _ => rfl
  refine ⟨hsynced, revisions_consecutive Sample.persisting hsynced Sample.contexts ?_⟩
  refine forall_mem_cons.mpr ⟨?_, forall_mem_cons.mpr ⟨?_, ?_⟩⟩
  · rintro s ⟨⟩
    exact ChangesOnce.of_keys (by decide)
  · rintro s ⟨⟩
    exact ChangesOnce.of_keys (by decide)
  · exact fun _ hx => absurd hx not_mem_nil

/-- Two values that one context writes to a new key give it the revision 1, and two that it writes
to a key with the revision 0 give it the revision 2.  The storage accepts neither. -/
theorem revision_skipped :
    (Sample.persisting.contextMachine.trace (some Sample.nothingStored)
        [[.insert ['a'] [1], .insert ['a'] [2]]]).map (·.answer) =
      [some ([(['a'], ⟨1, [2]⟩)], .error (.refuse (.conflict [(['a'], none)])))] ∧
    (Sample.persisting.contextMachine.trace (some Sample.nothingStored)
        [[.insert ['a'] [1]], [.insert ['a'] [2], .insert ['a'] [3]]]).map (·.answer) =
      [some ([(['a'], ⟨0, [1]⟩)], .ok ()),
        some ([(['a'], ⟨2, [3]⟩)], .error (.refuse (.conflict [(['a'], some ⟨0, [1]⟩)])))] := by
  exact ⟨rfl, rfl⟩

end ValidatingSigner
