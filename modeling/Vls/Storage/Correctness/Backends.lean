import Vls.Storage.Postgres
import Vls.Storage.Sled

/-!
# The two stores compared

The embedded and the relational store hold the same values through every run in which each put has
distinct keys and meets only absent keys or keys of the version before, and each get is for a text
without the special characters of a pattern; they then answer every call alike.
-/

namespace ValidatingSigner.Storage

open Base List

/-- The two stores hold the same values, with versions that are not negative. -/
structure SameValues (db : SledDatabase) (rows : PostgresDatabase) : Prop where
  lookup : ∀ client key, db.lookup (sledKey client key) = rows.lookup (client, key)
  nonneg : ∀ client key value, rows.lookup (client, key) = some value → 0 ≤ value.version.toInt

/-- A put of distinct keys that are absent or at the version before, or a get for a text without
zero or special characters. -/
def CommonCall (x : Entry SledDatabase DbCall DbReply) : Prop :=
  match x.event with
  | .put client kvs => (kvs.map Prod.fst).Nodup ∧ ∀ kv ∈ kvs, '\x00' ∉ kv.1 ∧
      kv.2.version ≠ Int64.minValue ∧ ∀ existing, x.before.lookup (sledKey client kv.1) =
        some existing → kv.2.version.toInt = existing.version.toInt + 1
  | .getWithPrefix _ keyPrefix => '\x00' ∉ keyPrefix ∧ PostgresDatabase.Literal keyPrefix

namespace SameValues

variable {o : Overflow} {collation : Text → Text → Bool} {db : SledDatabase}
  {rows : PostgresDatabase} {client : List UInt8} {kvs : KeyValues Int64}

theorem empty : SameValues ∅ ∅ := ⟨fun _ _ => rfl, fun _ _ _ h => nomatch h⟩

/-- Writing an entry with a version that is not negative to both keeps them the same. -/
theorem insert (h : SameValues db rows) {kv : Text × Value} (hkv : 0 ≤ kv.2.version.toInt) :
    SameValues (db.insert (sledKey client kv.1) kv.2) (rows.insert (client, kv.1) kv.2) := by
  constructor
  · intro client' key
    rw [Table.lookup_insert_eq, Table.lookup_insert_eq]
    simp only [SledDatabase.sledKey_inj, Prod.mk.injEq, h.lookup]
  · intro client' key value hvalue
    rw [Table.lookup_insert_eq] at hvalue
    split_ifs at hvalue with hkey
    · exact Option.some.inj hvalue ▸ hkv
    · exact h.nonneg client' key value hvalue

/-- Writing a list with versions that are not negative to both keeps them the same. -/
theorem insertAll (h : SameValues db rows) (hkvs : ∀ kv ∈ kvs, 0 ≤ kv.2.version.toInt) :
    SameValues (SledDatabase.insertAll client kvs db)
      (PostgresDatabase.insertRows client kvs rows) := by
  induction kvs generalizing db rows with
  | nil => exact h
  | cons kv kvs ih =>
    rw [forall_mem_cons] at hkvs
    exact ih (h.insert hkvs.1) hkvs.2

/-- An entry of the next version of a stored value is accepted by both. -/
theorem accepts_next {existing value : Value} (hnonneg : 0 ≤ existing.version.toInt)
    (hnext : value.version.toInt = existing.version.toInt + 1) :
    SledDatabase.nextVersion o (some existing) = .ok value.version ∧
      PostgresDatabase.accepts (some existing) value = true := by
  have hupper := value.version.toInt_lt
  constructor
  · rw [SledDatabase.nextVersion, Overflow.i64_of_fits o ⟨by omega, by omega⟩, ← hnext,
      Int64.ofInt_toInt]
  · have hzero : value.version ≠ 0 := by
      intro heq
      rw [heq, Int64.toInt_zero] at hnext
      omega
    have hprevious : existing.version = value.version - 1 := by
      apply Int64.toInt_inj.mp
      have hone : (1 : Int64).toInt = 1 := rfl
      rw [Int64.toInt_sub, hnext, hone, Int.bmod_def]
      omega
    simp [PostgresDatabase.accepts, hzero, hprevious]

/-- The embedded store finds the same conflicts as the relational one in a list that meets only
absent keys and values of the version before. -/
theorem conflicts_eq (h : SameValues db rows)
    (hkvs : ∀ kv ∈ kvs, ∀ existing, db.lookup (sledKey client kv.1) = some existing →
      kv.2.version.toInt = existing.version.toInt + 1) :
    SledDatabase.conflicts o db client kvs =
      .ok (PostgresDatabase.refused (fun key => rows.lookup (client, key)) kvs) := by
  induction kvs with
  | nil => rfl
  | cons kv kvs ih =>
    obtain ⟨key, value⟩ := kv
    rw [forall_mem_cons] at hkvs
    have hrest := ih hkvs.2
    have hcons : PostgresDatabase.refused (fun key => rows.lookup (client, key))
        ((key, value) :: kvs) = if PostgresDatabase.accepts (rows.lookup (client, key)) value then
          PostgresDatabase.refused (fun key => rows.lookup (client, key)) kvs
        else (key, none) ::
          PostgresDatabase.refused (fun key => rows.lookup (client, key)) kvs := by
      simp only [PostgresDatabase.refused, filterMap_cons]
      split_ifs <;> rfl
    rw [SledDatabase.conflicts, hrest, hcons]
    cases hlookup : db.lookup (sledKey client key) with
    | none =>
      have hrow : rows.lookup (client, key) = none := (h.lookup client key).symm.trans hlookup
      have hnext : SledDatabase.nextVersion o none = .ok 0 := rfl
      rw [hnext, hrow, ok_bind, ok_bind]
      by_cases hzero : value.version = 0
      · simp [PostgresDatabase.accepts, hzero]
      · simp [PostgresDatabase.accepts, hzero]
    | some existing =>
      have hrow : rows.lookup (client, key) = some existing :=
        (h.lookup client key).symm.trans hlookup
      obtain ⟨hnext, haccepts⟩ := accepts_next (o := o) (h.nonneg client key existing hrow)
        (hkvs.1 existing hlookup)
      rw [hnext, hrow, haccepts, ok_bind, ok_bind, if_neg (not_not.mpr rfl)]
      rfl

/-- Both stores answer a put that meets only absent keys and values of the version before alike, and
hold the same values afterwards. -/
theorem put (h : SameValues db rows) (hkeys : (kvs.map Prod.fst).Nodup)
    (hkvs : ∀ kv ∈ kvs, '\x00' ∉ kv.1 ∧ kv.2.version ≠ Int64.minValue ∧
      ∀ existing, db.lookup (sledKey client kv.1) = some existing →
        kv.2.version.toInt = existing.version.toInt + 1) :
    ((SledDatabase.put o client kvs).exec db).1 =
        ((PostgresDatabase.put client kvs).exec rows).1 ∧
      SameValues ((SledDatabase.put o client kvs).exec db).2
        ((PostgresDatabase.put client kvs).exec rows).2 := by
  rw [SledDatabase.exec_put, h.conflicts_eq fun kv hkv => (hkvs kv hkv).2.2,
    PostgresDatabase.exec_put hkeys (fun kv hkv => (hkvs kv hkv).1)
      fun kv hkv => (hkvs kv hkv).2.1]
  cases hrefused : PostgresDatabase.refused (fun key => rows.lookup (client, key)) kvs with
  | cons conflict found => exact ⟨rfl, h⟩
  | nil =>
    refine ⟨rfl, h.insertAll ?_⟩
    intro kv hkv
    have haccepts := PostgresDatabase.refused_eq_nil_iff.mp hrefused kv hkv
    cases hrow : rows.lookup (client, kv.1) with
    | none =>
      rw [hrow] at haccepts
      have hzero : kv.2.version = 0 := of_decide_eq_true haccepts
      rw [hzero, Int64.toInt_zero]
    | some existing =>
      have hnext := (hkvs kv hkv).2.2 existing ((h.lookup client kv.1).trans hrow)
      have hnonneg := h.nonneg client kv.1 existing hrow
      omega

variable (h : SameValues db rows) (hcollation : ∀ s t, collation s t = true ↔ s.le t)

include h hcollation

/-- Both stores return the same list for a text without special characters, when the collation is
the order of the bytes. -/
theorem getWithPrefix {start : Text} (hzero : '\x00' ∉ start)
    (hliteral : PostgresDatabase.Literal start) :
    SledDatabase.getWithPrefix client start db =
      PostgresDatabase.getWithPrefix collation client start rows := by
  have hsled := SledDatabase.getWithPrefix_eq client start db
  rw [hsled, PostgresDatabase.getWithPrefix_eq hzero]
  apply congrArg Except.ok
  have hperm : ((SledDatabase.scanPrefix db (sledKey client start)).map
      (SledDatabase.stripClient client)).Perm
        ((PostgresDatabase.selected client start rows).insertionSort
          fun a b => collation a.1 b.1) := by
    refine Perm.trans ?_ (perm_insertionSort _ _).symm
    rw [perm_ext_iff_of_nodup (SledDatabase.nodup_keys_getWithPrefix hsled).of_map
      (PostgresDatabase.nodup_selected client start rows).of_map]
    rintro ⟨key, value⟩
    rw [SledDatabase.mem_getWithPrefix hsled, PostgresDatabase.mem_selected,
      PostgresDatabase.like_literal_iff hliteral, h.lookup]
  have hsorted := SledDatabase.pairwise_getWithPrefix hsled
  have hsorted' : ((PostgresDatabase.selected client start rows).insertionSort
      fun a b => collation a.1 b.1).Pairwise fun a b => a.1.le b.1 := by
    have htotal : Std.Total fun a b : Text × Value => collation a.1 b.1 = true :=
      ⟨fun a b => (a.1.le_total b.1).imp (hcollation _ _).mpr (hcollation _ _).mpr⟩
    have htrans : IsTrans (Text × Value) fun a b => collation a.1 b.1 = true :=
      ⟨fun a b c hab hbc => (hcollation _ _).mpr
        (Text.le_trans ((hcollation _ _).mp hab) ((hcollation _ _).mp hbc))⟩
    exact (pairwise_insertionSort _ _).imp fun hab => (hcollation _ _).mp hab
  refine Perm.eq_of_pairwise ?_ hsorted hsorted' hperm
  intro a b ha hb hab hba
  have hkey : a.1 = b.1 := Text.le_antisymm hab hba
  have hb' := hperm.mem_iff.mpr hb
  exact inj_on_of_nodup_map (SledDatabase.nodup_keys_getWithPrefix hsled) ha hb' hkey

/-- Both stores answer a common call alike, and hold the same values afterwards. -/
theorem step {call : DbCall}
    (hcall : CommonCall ((SledDatabase.database o).machine.entry db call)) :
    ((SledDatabase.database o).machine.step db call).2 =
        ((PostgresDatabase.database collation).machine.step rows call).2 ∧
      SameValues ((SledDatabase.database o).machine.step db call).1
        ((PostgresDatabase.database collation).machine.step rows call).1 := by
  cases call with
  | put client kvs =>
    obtain ⟨hanswer, hsame⟩ := h.put (o := o) hcall.1 hcall.2
    exact ⟨congrArg DbReply.put hanswer, hsame⟩
  | getWithPrefix client start =>
    exact ⟨congrArg DbReply.getWithPrefix (h.getWithPrefix hcollation hcall.1 hcall.2), h⟩

/-- From the same values, both stores answer a run of common calls alike. -/
theorem answers_eq {calls : List DbCall}
    (hcalls : ∀ x ∈ (SledDatabase.database o).machine.trace db calls, CommonCall x) :
    ((SledDatabase.database o).machine.trace db calls).map (·.answer) =
      ((PostgresDatabase.database collation).machine.trace rows calls).map (·.answer) := by
  induction calls generalizing db rows with
  | nil => rfl
  | cons call calls ih =>
    rw [Machine.trace_cons, forall_mem_cons] at hcalls
    obtain ⟨hanswer, hsame⟩ := h.step hcollation hcalls.1
    have hrest := ih hsame hcalls.2
    rw [Machine.trace_cons, Machine.trace_cons, map_cons, map_cons, hrest]
    exact congrArg (· :: _) hanswer

end SameValues

/-- Through every run of common calls, the answers of the two stores are the same,
for a collation that is the order of the bytes. -/
theorem storage_backends_agree {o : Overflow} {collation : Text → Text → Bool}
    (hcollation : ∀ s t, collation s t = true ↔ s.le t) {calls : List DbCall}
    (hcalls : ∀ x ∈ (SledDatabase.database o).machine.trace ∅ calls, CommonCall x) :
    ((SledDatabase.database o).machine.trace ∅ calls).map (·.answer) =
      ((PostgresDatabase.database collation).machine.trace ∅ calls).map (·.answer) :=
  SameValues.empty.answers_eq hcollation hcalls

namespace Sample

/-- The order of the bytes as a collation. -/
def byteOrder (s t : Text) : Bool := decide (s.le t)

/-- A key is created, and read back by its first character. -/
theorem storage_backends_agree_sample :
    ((SledDatabase.database .checked).machine.trace ∅
        [.put [3] [(['a', 'b'], ⟨0, [1]⟩)], .getWithPrefix [3] ['a']]).map (·.answer) =
      ((PostgresDatabase.database byteOrder).machine.trace ∅
        [.put [3] [(['a', 'b'], ⟨0, [1]⟩)], .getWithPrefix [3] ['a']]).map (·.answer) := by
  refine storage_backends_agree (fun s t => decide_eq_true_iff) ?_
  intro x hx
  simp only [Machine.trace_cons, Machine.trace_nil, mem_cons, not_mem_nil,
    or_false] at hx
  rcases hx with rfl | rfl
  · refine ⟨by decide, ?_⟩
    intro kv hkv
    obtain rfl := mem_singleton.mp hkv
    exact ⟨by decide, by decide, fun existing hexisting => nomatch hexisting⟩
  · exact ⟨by decide, by decide, by decide, by decide⟩

/-- The stores differ on a version conflict with a stored value, on a list with a key twice, and on
a get for a percent sign. -/
theorem storage_backends_differ :
    ((SledDatabase.database .checked).machine.trace ∅ [.put [3] [(['a'], ⟨0, [1]⟩)],
        .put [3] [(['a'], ⟨0, [2]⟩)], .put [3] [(['b'], ⟨0, [1]⟩), (['b'], ⟨0, [2]⟩)],
        .getWithPrefix [3] ['%']]).map (·.answer) =
      [.put (.ok ()), .put (.error (.refuse (.conflict [(['a'], some ⟨0, [1]⟩)]))), .put (.ok ()),
        .getWithPrefix (.ok [])] ∧
    ((PostgresDatabase.database byteOrder).machine.trace ∅ [.put [3] [(['a'], ⟨0, [1]⟩)],
        .put [3] [(['a'], ⟨0, [2]⟩)], .put [3] [(['b'], ⟨0, [1]⟩), (['b'], ⟨0, [2]⟩)],
        .getWithPrefix [3] ['%']]).map (·.answer) =
      [.put (.ok ()), .put (.error (.refuse (.conflict [(['a'], none)]))),
        .put (.error (.refuse (.conflict [(['b'], none)]))),
        .getWithPrefix (.ok [(['a'], ⟨0, [1]⟩)])] := by
  decide

end Sample

end ValidatingSigner.Storage
