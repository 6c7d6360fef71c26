import Mathlib.Data.List.Sort
import Vls.Base.Table
import Vls.Storage.Database

/-!
# The embedded store

All clients share one ordered tree, whose keys are the client's identifier in hexadecimal, a slash
and the client's key.  A put first compares every version with the stored one and then writes all
entries; a get scans the tree from the client's identifier and the given text on.
-/

namespace ValidatingSigner.Storage

open Base Text List

/-- The tree of the embedded store. -/
abbrev SledDatabase := Table Text Value

/-- The key of the tree for a key of a client. -/
def sledKey (clientId : List UInt8) (key : Text) : Text := Text.hex clientId ++ '/' :: key

namespace SledDatabase

/-- The version a new value of a key must have. -/
def nextVersion (o : Overflow) : Option Value → Except (Fault DbError) Int64
  | some existing => o.i64 (existing.version.toInt + 1)
  | none => .ok 0

/-- The entries whose version is not the next one, with the existing values. -/
def conflicts (o : Overflow) (db : SledDatabase) (clientId : List UInt8) :
    KeyValues Int64 → Except (Fault DbError) (List (Text × Option Value))
  | [] => .ok []
  | (key, value) :: kvs => do
    let existing := db.lookup (sledKey clientId key)
    let next ← nextVersion o existing
    let rest ← conflicts o db clientId kvs
    return if value.version ≠ next then (key, existing) :: rest else rest

/-- The tree after the entries of a list are written in turn. -/
def insertAll (clientId : List UInt8) (kvs : KeyValues Int64) (db : SledDatabase) : SledDatabase :=
  kvs.foldl (fun db kv => db.insert (sledKey clientId kv.1) kv.2) db

/-- Check all versions, then write all entries. -/
def put (o : Overflow) (clientId : List UInt8) (kvs : KeyValues Int64) :
    Effect SledDatabase DbError Unit :=
  Effect.transaction do
    let db ← get
    let found ← Effect.lift (conflicts o db clientId kvs)
    Effect.lift (refuseIf (found ≠ []) (.conflict found))
    modify (insertAll clientId kvs)

/-- The entries of the tree whose keys begin with the bytes of a text, in the order of the tree. -/
def scanPrefix (db : SledDatabase) (start : Text) : KeyValues Int64 :=
  ((db.entries.map fun s => (s.1, s.2)).filter fun kv =>
    start.utf8.isPrefixOf kv.1.utf8).insertionSort
    fun a b => a.1.le b.1

/-- The client's keys that begin with a text, cut out of the keys of the tree. -/
def getWithPrefix (clientId : List UInt8) (keyPrefix : Text) (db : SledDatabase) :
    Except (Fault DbError) (KeyValues Int64) :=
  (scanPrefix db (sledKey clientId keyPrefix)).mapM fun kv => do
    let key ← kv.1.splitOff (clientId.length * 2 + 1)
    return (key, kv.2)

/-- The embedded store as a database. -/
def database (o : Overflow) : Database SledDatabase where
  put := put o
  getWithPrefix := getWithPrefix

/-! ## Keys of the tree -/

/-- Different clients and different keys have different keys in the tree. -/
theorem sledKey_inj {a b : List UInt8} {s t : Text} :
    sledKey a s = sledKey b t ↔ a = b ∧ s = t := by
  rw [sledKey, sledKey, separated_inj (slash_notMem_hex a) (slash_notMem_hex b),
    hex_injective.eq_iff]

/-- A key of the tree begins with the bytes of a client's text exactly when it is a key of this
client that begins with the text. -/
theorem isPrefixOf_sledKey_iff {client : List UInt8} {start full : Text} :
    (sledKey client start).utf8.isPrefixOf full.utf8 = true ↔
      ∃ key, full = sledKey client key ∧ start <+: key := by
  rw [List.isPrefixOf_iff_prefix, utf8_isPrefix_iff]
  constructor
  · rintro ⟨rest, rfl⟩
    exact ⟨start ++ rest, by simp [sledKey], prefix_append _ _⟩
  · rintro ⟨key, rfl, rest, rfl⟩
    exact ⟨rest, by simp [sledKey]⟩

/-- Cutting a key of the tree after the client's identifier gives the client's key. -/
theorem splitOff_sledKey (client : List UInt8) (key : Text) :
    (splitOff (client.length * 2 + 1) (sledKey client key) : Except (Fault DbError) Text) =
      .ok key := by
  have hlength : (utf8 (hex client ++ ['/'])).length = client.length * 2 + 1 := by
    rw [utf8_append, length_append, length_utf8_hex]
    rfl
  have hfull : sledKey client key = hex client ++ ['/'] ++ key := by simp [sledKey]
  rw [hfull, ← hlength]
  exact splitOff_append _ key

/-! ## What a get returns -/

variable {client : List UInt8} {start : Text} {db : SledDatabase} {l : KeyValues Int64}

theorem mem_scanPrefix {full : Text} {value : Value} :
    (full, value) ∈ scanPrefix db start ↔
      start.utf8.isPrefixOf full.utf8 = true ∧ db.lookup full = some value := by
  have hlookup : db.lookup full = some value ↔
      (⟨full, value⟩ : Sigma fun _ : Text => Value) ∈ db.entries := AList.mem_lookup_iff
  rw [scanPrefix, mem_insertionSort, mem_filter, hlookup, and_comm]
  simp

/-- A scan returns each key of the tree once. -/
theorem nodup_keys_scanPrefix (db : SledDatabase) (start : Text) :
    ((scanPrefix db start).map Prod.fst).Nodup := by
  have hkeys : ((db.entries.map fun s => (s.1, s.2)).map Prod.fst).Nodup := by
    rw [map_map]
    exact db.nodupKeys
  have hfilter := hkeys.sublist (filter_sublist
    (p := fun kv : Text × Value => start.utf8.isPrefixOf kv.1.utf8)
    (l := db.entries.map fun s => (s.1, s.2)) |>.map Prod.fst)
  exact ((perm_insertionSort _ _).map Prod.fst).nodup_iff.mpr hfilter

/-- A client's entry for an entry of the tree. -/
def stripClient (clientId : List UInt8) (kv : Text × Value) : Text × Value :=
  (kv.1.drop ((Text.hex clientId).length + 1), kv.2)

@[simp] theorem stripClient_sledKey (key : Text) (value : Value) :
    stripClient client (sledKey client key, value) = (key, value) := by
  simp [stripClient, sledKey]

/-- Every entry that a scan for a client returns is one of the client's keys. -/
theorem exists_key_of_mem_scanPrefix {kv : Text × Value}
    (h : kv ∈ scanPrefix db (sledKey client start)) : ∃ key, kv.1 = sledKey client key := by
  obtain ⟨key, hkey, -⟩ := isPrefixOf_sledKey_iff.mp (mem_scanPrefix.mp h).1
  exact ⟨key, hkey⟩

/-- A get never fails: it returns the scanned entries with the client's identifier cut off. -/
theorem getWithPrefix_eq (client : List UInt8) (start : Text) (db : SledDatabase) :
    getWithPrefix client start db =
      .ok ((scanPrefix db (sledKey client start)).map (stripClient client)) := by
  apply mapM_eq_ok
  rintro ⟨full, value⟩ hkv
  obtain ⟨key, rfl⟩ := exists_key_of_mem_scanPrefix hkv
  rw [splitOff_sledKey, stripClient_sledKey]
  rfl

/-- A get returns exactly the client's keys that begin with the text, with their values. -/
theorem mem_getWithPrefix (h : getWithPrefix client start db = .ok l) {key : Text} {value : Value} :
    (key, value) ∈ l ↔ start <+: key ∧ db.lookup (sledKey client key) = some value := by
  rw [getWithPrefix_eq, Except.ok.injEq] at h
  subst h
  rw [mem_map]
  constructor
  · rintro ⟨⟨full, value'⟩, hscan, hstrip⟩
    obtain ⟨hbegin, hlookup⟩ := mem_scanPrefix.mp hscan
    obtain ⟨key', rfl, hstart⟩ := isPrefixOf_sledKey_iff.mp hbegin
    rw [stripClient_sledKey] at hstrip
    cases hstrip
    exact ⟨hstart, hlookup⟩
  · rintro ⟨hstart, hlookup⟩
    refine ⟨(sledKey client key, value), mem_scanPrefix.mpr ⟨?_, hlookup⟩, stripClient_sledKey ..⟩
    exact isPrefixOf_sledKey_iff.mpr ⟨key, rfl, hstart⟩

/-- A get returns each key once. -/
theorem nodup_keys_getWithPrefix (h : getWithPrefix client start db = .ok l) :
    (l.map Prod.fst).Nodup := by
  rw [getWithPrefix_eq, Except.ok.injEq] at h
  subst h
  have hscan := nodup_keys_scanPrefix db (sledKey client start)
  have hstrip : ((scanPrefix db (sledKey client start)).map (stripClient client)).map Prod.fst =
      ((scanPrefix db (sledKey client start)).map Prod.fst).map
        (·.drop ((hex client).length + 1)) := by
    simp [stripClient]
  rw [hstrip]
  refine hscan.map_on ?_
  intro full hfull full' hfull' heq
  obtain ⟨⟨_, v⟩, hmem, rfl⟩ := mem_map.mp hfull
  obtain ⟨⟨_, v'⟩, hmem', rfl⟩ := mem_map.mp hfull'
  obtain ⟨key, rfl⟩ := exists_key_of_mem_scanPrefix hmem
  obtain ⟨key', rfl⟩ := exists_key_of_mem_scanPrefix hmem'
  have hkeys : key = key' := by simpa [sledKey] using heq
  rw [hkeys]

/-- A get returns its keys in the order of their bytes. -/
theorem pairwise_getWithPrefix (h : getWithPrefix client start db = .ok l) :
    l.Pairwise fun a b => a.1.le b.1 := by
  rw [getWithPrefix_eq, Except.ok.injEq] at h
  subst h
  have htotal : Std.Total fun a b : Text × Value => a.1.le b.1 := ⟨fun a b => a.1.le_total b.1⟩
  have htrans : IsTrans (Text × Value) fun a b => a.1.le b.1 := ⟨fun _ _ _ => le_trans⟩
  have hsorted : (scanPrefix db (sledKey client start)).Pairwise fun a b => a.1.le b.1 :=
    pairwise_insertionSort _ _
  rw [pairwise_map]
  refine hsorted.imp_of_mem ?_
  rintro ⟨full, value⟩ ⟨full', value'⟩ hmem hmem' hle
  obtain ⟨key, rfl⟩ := exists_key_of_mem_scanPrefix hmem
  obtain ⟨key', rfl⟩ := exists_key_of_mem_scanPrefix hmem'
  have hkey (k : Text) : sledKey client k = hex client ++ ['/'] ++ k := by simp [sledKey]
  rw [stripClient_sledKey, stripClient_sledKey]
  simp only [hkey, append_le_append_iff] at hle
  exact hle

/-! ## What a put does -/

variable {o : Overflow} {kvs : KeyValues Int64}

/-- There is no conflict exactly when every entry has the next version of its key. -/
theorem conflicts_eq_nil_iff : conflicts o db client kvs = .ok [] ↔
    ∀ kv ∈ kvs, nextVersion o (db.lookup (sledKey client kv.1)) = .ok kv.2.version := by
  induction kvs with
  | nil => simp [conflicts]
  | cons kv kvs ih =>
    obtain ⟨key, value⟩ := kv
    rw [conflicts, forall_mem_cons, ← ih, bind_eq_ok]
    constructor
    · rintro ⟨next, hnext, h⟩
      obtain ⟨rest, hrest, h⟩ := bind_ok h
      rw [pure_eq_ok] at h
      by_cases hv : value.version = next
      · rw [if_neg (not_not.mpr hv)] at h
        exact ⟨hv ▸ hnext, h ▸ hrest⟩
      · rw [if_pos hv] at h
        cases h
    · rintro ⟨hnext, hrest⟩
      refine ⟨value.version, hnext, ?_⟩
      rw [hrest, ok_bind, if_neg (not_not.mpr rfl)]
      rfl

/-- A put checks all versions before it writes anything. -/
theorem exec_put (db : SledDatabase) : (put o client kvs).exec db =
    match conflicts o db client kvs with
      | .ok [] => (.ok (), insertAll client kvs db)
      | .ok found => (.error (.refuse (.conflict found)), db)
      | .error e => (.error e, db) := by
  rw [put, Effect.exec_transaction, Effect.exec_get_bind, Effect.exec_bind, Effect.exec_lift]
  rcases conflicts o db client kvs with e | (_ | ⟨c, found⟩)
  · rfl
  · rfl
  · rfl

/-- A put is accepted exactly when every entry has the next version of its key, and then writes all
entries. -/
theorem exec_put_eq_ok_iff {db' : SledDatabase} :
    (put o client kvs).exec db = (.ok (), db') ↔
      (∀ kv ∈ kvs, nextVersion o (db.lookup (sledKey client kv.1)) = .ok kv.2.version) ∧
        db' = insertAll client kvs db := by
  rw [exec_put, ← conflicts_eq_nil_iff]
  rcases conflicts o db client kvs with e | (_ | ⟨c, found⟩)
  · simp
  · simp [eq_comm]
  · simp

theorem eq_of_exec_put_error {db' : SledDatabase} {e : Fault DbError}
    (h : (put o client kvs).exec db = (.error e, db')) : db' = db :=
  Effect.eq_of_exec_transaction_error h

/-- Writing a list leaves every other key of the tree alone. -/
theorem lookup_insertAll_of_ne {full : Text} (h : ∀ kv ∈ kvs, full ≠ sledKey client kv.1) :
    (insertAll client kvs db).lookup full = db.lookup full := by
  induction kvs generalizing db with
  | nil => rfl
  | cons kv kvs ih =>
    have hrest : (insertAll client kvs (db.insert (sledKey client kv.1) kv.2)).lookup full =
        (db.insert (sledKey client kv.1) kv.2).lookup full :=
      ih fun kv' hkv' => h kv' (mem_cons_of_mem kv hkv')
    rw [Table.lookup_insert_eq, if_neg (h kv mem_cons_self)] at hrest
    exact hrest

/-- Writing a list stores, for each of its keys, one of the list's values. -/
theorem exists_lookup_insertAll {key : Text} (h : key ∈ kvs.map Prod.fst) :
    ∃ value, (key, value) ∈ kvs ∧
      (insertAll client kvs db).lookup (sledKey client key) = some value := by
  induction kvs generalizing db with
  | nil => cases h
  | cons first kvs ih =>
    have hlater : (insertAll client (first :: kvs) db).lookup (sledKey client key) =
        (insertAll client kvs (db.insert (sledKey client first.1) first.2)).lookup
          (sledKey client key) := rfl
    by_cases hrest : key ∈ kvs.map Prod.fst
    · obtain ⟨value, hmem, hlookup⟩ := ih hrest
      exact ⟨value, mem_cons_of_mem first hmem, hlater.trans hlookup⟩
    · have hfirst : key = first.1 := (mem_cons.mp h).resolve_right hrest
      have hne : ∀ kv ∈ kvs, sledKey client key ≠ sledKey client kv.1 := by
        intro kv hkv heq
        exact hrest ((sledKey_inj.mp heq).2 ▸ mem_map_of_mem hkv)
      refine ⟨first.2, hfirst ▸ mem_cons_self, hlater.trans ?_⟩
      rw [lookup_insertAll_of_ne hne, Table.lookup_insert_eq, hfirst, if_pos rfl]

/-- Writing a list whose entries of one key agree stores every entry. -/
theorem lookup_insertAll_of_mem {kv : Text × Value} (hkv : kv ∈ kvs)
    (hkeys : ∀ a ∈ kvs, ∀ b ∈ kvs, a.1 = b.1 → a = b) :
    (insertAll client kvs db).lookup (sledKey client kv.1) = some kv.2 := by
  obtain ⟨value, hmem, hlookup⟩ := exists_lookup_insertAll (mem_map_of_mem hkv)
  have heq := hkeys _ hmem _ hkv rfl
  rw [hlookup, ← heq]

end SledDatabase

end ValidatingSigner.Storage
