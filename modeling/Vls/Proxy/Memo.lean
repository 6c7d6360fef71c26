import Mathlib.Data.List.Sort
import Vls.Base.Table
import Vls.Policy.Policy
import Vls.Storage.Hmac

/-!
# What a request writes

While a request is handled, its writes go to a map in memory that all requests share.  The map gives
every key a revision, and the keys that were written are remembered.  When the request is done,
these keys with their new values are its mutations, which are to be sent to the external storage.
-/

namespace ValidatingSigner

open Base List

/-- Keys with the values written last and their revisions. -/
abbrev MemoStore := Table Text (Versioned UInt64)

/-- The shared map in a persist context, with the keys written in this context. -/
structure Memo where
  store : MemoStore
  dirty : List Text

/-- A write of the persister. -/
inductive Write where
  | insert (key : Text) (value : List UInt8)
  | remove (key : Text)
  deriving DecidableEq

namespace Memo

/-- The revision after another one. -/
def nextRevision (o : Overflow) (revision : UInt64) : Result UInt64 := do
  let next ← o.u64 (revision.toNat + 1)
  return UInt64.ofNat next

/-- The memo after a key has got a value with a revision. -/
def put (memo : Memo) (key : Text) (value : Versioned UInt64) : Memo :=
  ⟨memo.store.insert key value, memo.dirty.insert key⟩

/-- Insert a value, unless the key has it already. -/
def doInsert (o : Overflow) (memo : Memo) (value : List UInt8) (fullKey : Text) : Result Memo :=
  match memo.store.lookup fullKey with
  | some existing =>
    if existing.value = value then .ok memo
    else do
      let revision ← nextRevision o existing.version
      return memo.put fullKey ⟨revision, value⟩
  | none => do
    assert (fullKey ∉ memo.dirty) "assertion failed: !self.dirty.contains(&full_key)"
    return memo.put fullKey ⟨0, value⟩

/-- The revision of the empty value in the place of a value. -/
def removedRevision (o : Overflow) : Option (Versioned UInt64) → Result UInt64
  | some existing => nextRevision o existing.version
  | none => .ok 0

/-- Leave an empty value in the place of a value. -/
def doRemove (o : Overflow) (memo : Memo) (fullKey : Text) : Result Memo := do
  let revision ← removedRevision o (memo.store.lookup fullKey)
  return memo.put fullKey ⟨revision, []⟩

/-- Make a write. -/
def write (o : Overflow) (memo : Memo) : Write → Result Memo
  | .insert key value => memo.doInsert o value key
  | .remove key => memo.doRemove o key

/-- Make writes one after the other. -/
def writeAll (o : Overflow) : List Write → Memo → Result Memo
  | [], memo => .ok memo
  | w :: writes, memo => do
    let memo ← memo.write o w
    writeAll o writes memo

/-- The keys that were written with their values, in the order of the keys. -/
def getDirty (memo : Memo) : Mutations :=
  (memo.dirty.insertionSort Text.le).filterMap fun key =>
    (memo.store.lookup key).map fun value => (key, value)

end Memo

/-! ## What the mutations say -/

namespace Memo

variable {o : Overflow} {memo memo' : Memo}

/-- The memo differs from a store only in keys that are dirty, all of which have values. -/
structure Covers (memo : Memo) (store : MemoStore) : Prop where
  clean : ∀ key ∉ memo.dirty, memo.store.lookup key = store.lookup key
  dirty : ∀ key ∈ memo.dirty, (memo.store.lookup key).isSome

theorem Covers.new (store : MemoStore) : (⟨store, []⟩ : Memo).Covers store :=
  ⟨fun _ _ => rfl, fun _ hkey => absurd hkey not_mem_nil⟩

theorem Covers.put {store : MemoStore} (h : memo.Covers store) (key : Text)
    (value : Versioned UInt64) : (memo.put key value).Covers store := by
  constructor
  · intro other hother
    have hclean : other ≠ key ∧ other ∉ memo.dirty := by
      rw [Memo.put, mem_insert_iff, not_or] at hother
      exact hother
    rw [Memo.put, Table.lookup_insert_eq, if_neg hclean.1]
    exact h.clean other hclean.2
  · intro other hother
    rw [Memo.put, Table.lookup_insert_eq]
    by_cases hkey : other = key
    · rw [if_pos hkey]
      rfl
    · rw [if_neg hkey]
      exact h.dirty other ((mem_insert_iff.mp hother).resolve_left hkey)

/-- A write leaves the memo as it is, or gives one key a value. -/
theorem write_ok {w : Write} (h : memo.write o w = .ok memo') :
    memo' = memo ∨ ∃ key value, memo' = memo.put key value := by
  cases w with
  | insert key value =>
    rw [write, doInsert] at h
    split at h
    · split_ifs at h
      · exact .inl (Except.ok.inj h).symm
      · obtain ⟨revision, -, h⟩ := bind_ok h
        exact .inr ⟨key, _, (pure_eq_ok.mp h).symm⟩
    · obtain ⟨_, -, h⟩ := bind_ok h
      exact .inr ⟨key, _, (pure_eq_ok.mp h).symm⟩
  | remove key =>
    rw [write, doRemove] at h
    obtain ⟨revision, -, h⟩ := bind_ok h
    exact .inr ⟨key, _, (pure_eq_ok.mp h).symm⟩

/-- Writes that begin in a new context change the store in dirty keys only. -/
theorem Covers.writeAll {store : MemoStore} {writes : List Write} (hcovers : memo.Covers store)
    (h : Memo.writeAll o writes memo = .ok memo') : memo'.Covers store := by
  induction writes generalizing memo with
  | nil =>
    cases h
    exact hcovers
  | cons w writes ih =>
    rw [Memo.writeAll] at h
    obtain ⟨memo₁, hwrite, hrest⟩ := bind_ok h
    rcases write_ok hwrite with rfl | ⟨key, value, rfl⟩
    · exact ih hcovers hrest
    · exact ih (hcovers.put key value) hrest

/-- The mutations are the dirty keys with the values of the memo. -/
theorem mem_getDirty {key : Text} {value : Versioned UInt64} :
    (key, value) ∈ memo.getDirty ↔ key ∈ memo.dirty ∧ memo.store.lookup key = some value := by
  rw [getDirty, mem_filterMap]
  constructor
  · rintro ⟨other, hother, hvalue⟩
    obtain ⟨found, hfound, heq⟩ := Option.map_eq_some_iff.mp hvalue
    cases heq
    exact ⟨(mem_insertionSort _).mp hother, hfound⟩
  · rintro ⟨hkey, hvalue⟩
    exact ⟨key, (mem_insertionSort _).mpr hkey, by rw [hvalue, Option.map_some]⟩

end Memo

/-! ## What a write does -/

namespace Write

/-- The key that is written. -/
def key : Write → Text
  | insert key _ => key
  | remove key => key

/-- The value that is written; a removed key gets the empty one. -/
def value : Write → List UInt8
  | insert _ value => value
  | remove _ => []

/-- Whether a write changes its key, when this has a value: only an insert of that value does not.
-/
def changes : Write → Option (List UInt8) → Bool
  | insert _ value, current => current != some value
  | remove _, _ => true

end Write

namespace MemoStore

/-- The value of a key. -/
def valueOf (store : MemoStore) (key : Text) : Option (List UInt8) :=
  (store.lookup key).map Versioned.value

/-- The revision that follows the one of a key, zero for a new key. -/
def nextOf (store : MemoStore) (key : Text) : UInt64 :=
  ((store.lookup key).map fun existing => existing.version + 1).getD 0

theorem valueOf_insert (store : MemoStore) (key other : Text) (value : Versioned UInt64) :
    MemoStore.valueOf (store.insert other value) key =
      if key = other then some value.value else store.valueOf key := by
  rw [valueOf, Table.lookup_insert_eq]
  split_ifs
  · rfl
  · rfl

theorem nextOf_insert (store : MemoStore) (key other : Text) (value : Versioned UInt64) :
    MemoStore.nextOf (store.insert other value) key =
      if key = other then value.version + 1 else store.nextOf key := by
  simp only [nextOf, Table.lookup_insert_eq]
  split_ifs
  · rfl
  · rfl

end MemoStore

namespace Memo

variable {o : Overflow} {memo memo' : Memo}

theorem nextRevision_eq {revision next : UInt64} (h : nextRevision o revision = .ok next) :
    next = revision + 1 := by
  obtain ⟨sum, hsum, h⟩ := bind_ok h
  rw [← pure_eq_ok.mp h, Overflow.eq_mod_of_uint hsum]
  apply UInt64.toNat_inj.mp
  simp

/-- A write that changes its key gives it the next revision; another write does nothing. -/
theorem write_eq {w : Write} (h : memo.write o w = .ok memo') :
    memo' = if w.changes (memo.store.valueOf w.key) then
      memo.put w.key ⟨memo.store.nextOf w.key, w.value⟩ else memo := by
  cases w with
  | insert key value =>
    simp only [write, doInsert] at h
    simp only [Write.changes, Write.key, Write.value, MemoStore.valueOf, MemoStore.nextOf]
    obtain hlookup | ⟨existing, hlookup⟩ := Option.eq_none_or_eq_some (memo.store.lookup key)
    · simp only [hlookup] at h ⊢
      obtain ⟨_, -, h⟩ := bind_ok h
      exact (pure_eq_ok.mp h).symm
    · simp only [hlookup] at h ⊢
      split_ifs at h with hvalue
      · rw [if_neg (by simp [hvalue])]
        exact (Except.ok.inj h).symm
      · obtain ⟨revision, hrevision, h⟩ := bind_ok h
        rw [nextRevision_eq hrevision] at h
        rw [if_pos (by simpa using hvalue)]
        exact (pure_eq_ok.mp h).symm
  | remove key =>
    simp only [write, doRemove] at h
    obtain ⟨revision, hrevision, h⟩ := bind_ok h
    simp only [Write.changes, Write.key, Write.value, MemoStore.nextOf, if_true]
    rcases hlookup : memo.store.lookup key with _ | existing
    · simp only [hlookup, removedRevision] at hrevision ⊢
      rw [← Except.ok.inj hrevision] at h
      exact (pure_eq_ok.mp h).symm
    · simp only [hlookup, removedRevision] at hrevision ⊢
      rw [nextRevision_eq hrevision] at h
      exact (pure_eq_ok.mp h).symm

/-- A write goes through unless it changes a key at the last revision. -/
theorem exists_write {w : Write} {store : MemoStore} (hcovers : memo.Covers store)
    (hroom : w.changes (memo.store.valueOf w.key) →
      ∀ existing ∈ memo.store.lookup w.key, existing.version.toNat + 1 < 2 ^ 64) :
    ∃ memo', memo.write o w = .ok memo' := by
  have hnext {existing : Versioned UInt64} (hsmall : existing.version.toNat + 1 < 2 ^ 64) :
      nextRevision o existing.version = .ok (existing.version + 1) := by
    rw [nextRevision, Overflow.u64, Overflow.uint_of_lt o hsmall, ok_bind]
    refine congrArg Except.ok (UInt64.toNat_inj.mp ?_)
    simp
  cases w with
  | insert key value =>
    simp only [Write.changes, Write.key, MemoStore.valueOf] at hroom
    simp only [write, doInsert]
    rcases hlookup : memo.store.lookup key with _ | existing
    · have hclean : key ∉ memo.dirty := by
        intro hdirty
        simpa [hlookup] using hcovers.dirty key hdirty
      exact ⟨_, bind_eq_ok.mpr ⟨(), assert_eq_ok.mpr hclean, rfl⟩⟩
    · simp only [hlookup] at hroom ⊢
      split_ifs with hvalue
      · exact ⟨memo, rfl⟩
      · exact ⟨_, bind_eq_ok.mpr ⟨_, hnext (hroom (by simpa using hvalue) existing rfl), rfl⟩⟩
  | remove key =>
    simp only [Write.changes, Write.key, forall_const] at hroom
    simp only [write, doRemove]
    rcases hlookup : memo.store.lookup key with _ | existing
    · exact ⟨_, rfl⟩
    · exact ⟨_, bind_eq_ok.mpr ⟨_, hnext (hroom existing hlookup), rfl⟩⟩

end Memo

end ValidatingSigner
