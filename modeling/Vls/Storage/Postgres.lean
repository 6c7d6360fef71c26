import Mathlib.Data.List.Infix
import Mathlib.Data.List.Sort
import Vls.Base.Table
import Vls.Storage.Database

/-!
# The relational store

The rows of one table are keyed by client and key.  A put runs one statement per entry in one
transaction: an insertion for the version 0, and otherwise an update of the row that has the version
before; a statement that touches no row is a conflict.  A get selects the keys that match a pattern,
in the order of the database's collation.
-/

namespace ValidatingSigner.Storage

open Base Effect List

/-- The rows of the table. -/
abbrev PostgresDatabase := Table (List UInt8 × Text) Value

/-- Whether a text matches a pattern: a percent sign stands for any text, an underscore for any
character, and a backslash makes the next character stand for itself. -/
def like : Text → Text → Bool
  | [], t => t.isEmpty
  | '%' :: p, t => t.tails.any (like p)
  | '_' :: p, t => match t with
    | [] => false
    | _ :: t => like p t
  | '\\' :: c :: p, t => match t with
    | [] => false
    | d :: t => c == d && like p t
  | c :: p, t => match t with
    | [] => false
    | d :: t => c == d && like p t

namespace PostgresDatabase

/-- Refuse a text that the database cannot hold. -/
def checkText (t : Text) : Except (Fault DbError) Unit :=
  refuseIf ('\x00' ∈ t) (.database "invalid byte sequence for encoding UTF8: 0x00")

/-- Insert a row with the version 0 unless there is one; whether a row was written. -/
def insertStatement (clientId : List UInt8) (key : Text) (value : List UInt8) :
    Effect PostgresDatabase DbError Bool := do
  Effect.lift (checkText key)
  let rows ← get
  match rows.lookup (clientId, key) with
  | some _ => return false
  | none =>
    set (rows.insert (clientId, key) ⟨0, value⟩)
    return true

/-- Update the row that has the version before; whether a row was written. -/
def updateStatement (clientId : List UInt8) (key : Text) (value : Value) :
    Effect PostgresDatabase DbError Bool := do
  Effect.lift (checkText key)
  Effect.lift (refuseIf (value.version = Int64.minValue) (.database "bigint out of range"))
  let rows ← get
  if (rows.lookup (clientId, key)).map (·.version) = some (value.version - 1) then
    set (rows.insert (clientId, key) value)
    return true
  else
    return false

/-- The statement of an entry. -/
def statement (clientId : List UInt8) (kv : Text × Value) : Effect PostgresDatabase DbError Bool :=
  if kv.2.version = 0 then insertStatement clientId kv.1 kv.2.value
  else updateStatement clientId kv.1 kv.2

/-- Run the statements of a list in turn. -/
def statements (clientId : List UInt8) :
    KeyValues Int64 → Effect PostgresDatabase DbError (List Bool)
  | [] => pure []
  | kv :: kvs => do
    let done ← statement clientId kv
    let rest ← statements clientId kvs
    return done :: rest

/-- The entries whose statement wrote no row; existing values are not reported. -/
def conflicts (kvs : KeyValues Int64) (done : List Bool) : List (Text × Option Value) :=
  (kvs.zip done).filterMap fun kv => if kv.2 then none else some (kv.1.1, none)

/-- Run all statements, and commit unless one of them wrote no row. -/
def put (clientId : List UInt8) (kvs : KeyValues Int64) : Effect PostgresDatabase DbError Unit :=
  Effect.transaction do
    let done ← statements clientId kvs
    Effect.lift (refuseIf (conflicts kvs done ≠ []) (.conflict (conflicts kvs done)))

/-- The rows of a client whose keys match a text followed by a percent sign, in the order of the
collation. -/
def getWithPrefix (collation : Text → Text → Bool) (clientId : List UInt8) (keyPrefix : Text)
    (rows : PostgresDatabase) : Except (Fault DbError) (KeyValues Int64) := do
  checkText keyPrefix
  let selected := rows.entries.filter fun row =>
    decide (row.1.1 = clientId) && like (keyPrefix ++ ['%']) row.1.2
  return (selected.map fun row => (row.1.2, row.2)).insertionSort fun a b => collation a.1 b.1

/-- The relational store as a database, for a collation. -/
def database (collation : Text → Text → Bool) : Database PostgresDatabase where
  put := put
  getWithPrefix := getWithPrefix collation

/-! ## Patterns -/

/-- The text has no character that is special in a pattern. -/
def Literal (t : Text) : Prop := '%' ∉ t ∧ '_' ∉ t ∧ '\\' ∉ t

theorem like_cons_of_literal {c d : Char} {p t : Text} (hpercent : c ≠ '%') (hunderscore : c ≠ '_')
    (hbackslash : c ≠ '\\') : like (c :: p) (d :: t) = (c == d && like p t) := by
  conv_lhs => unfold like
  split <;> simp_all

theorem like_cons_nil_of_literal {c : Char} {p : Text} (hpercent : c ≠ '%')
    (hunderscore : c ≠ '_') (hbackslash : c ≠ '\\') : like (c :: p) [] = false := by
  unfold like
  split <;> simp_all

theorem like_percent (t : Text) : like ['%'] t = true := by
  have hnil : like [] [] = true := rfl
  have hlast : [] ∈ t.tails := (mem_tails [] t).mpr nil_suffix
  exact any_eq_true.mpr ⟨[], hlast, hnil⟩

/-- A text without special characters, followed by a percent sign, is matched by the texts that
begin with it. -/
theorem like_literal_iff {p t : Text} (hp : Literal p) :
    like (p ++ ['%']) t = true ↔ p <+: t := by
  induction p generalizing t with
  | nil => simp [like_percent]
  | cons c p ih =>
    obtain ⟨hpercent, hunderscore, hbackslash⟩ := hp
    rw [mem_cons, not_or] at hpercent hunderscore hbackslash
    have hrest : Literal p := ⟨hpercent.2, hunderscore.2, hbackslash.2⟩
    cases t with
    | nil =>
      rw [cons_append, like_cons_nil_of_literal (Ne.symm hpercent.1) (Ne.symm hunderscore.1)
        (Ne.symm hbackslash.1)]
      simp
    | cons d t =>
      rw [cons_append, like_cons_of_literal (Ne.symm hpercent.1) (Ne.symm hunderscore.1)
        (Ne.symm hbackslash.1), Bool.and_eq_true, beq_iff_eq, ih hrest, cons_prefix_cons]

/-! ## What a get returns -/

variable {collation : Text → Text → Bool} {client : List UInt8} {start : Text}
  {rows : PostgresDatabase} {l : KeyValues Int64} {kvs : KeyValues Int64}

@[simp] theorem checkText_eq_ok {t : Text} {u : Unit} : checkText t = .ok u ↔ '\x00' ∉ t := by
  rw [checkText, refuseIf_eq_ok]

/-- The rows that a get selects, before they are ordered. -/
def selected (client : List UInt8) (start : Text) (rows : PostgresDatabase) : KeyValues Int64 :=
  (rows.entries.filter fun row =>
    decide (row.1.1 = client) && like (start ++ ['%']) row.1.2).map fun row => (row.1.2, row.2)

theorem mem_selected {key : Text} {value : Value} : (key, value) ∈ selected client start rows ↔
    like (start ++ ['%']) key = true ∧ rows.lookup (client, key) = some value := by
  have hlookup : rows.lookup (client, key) = some value ↔
      (⟨(client, key), value⟩ : Sigma fun _ : List UInt8 × Text => Value) ∈ rows.entries :=
    AList.mem_lookup_iff
  rw [selected, mem_map, hlookup]
  constructor
  · rintro ⟨⟨⟨client', key'⟩, value'⟩, hrow, heq⟩
    cases heq
    simp only [mem_filter, Bool.and_eq_true, decide_eq_true_eq] at hrow
    obtain ⟨hmem, rfl, hlike⟩ := hrow
    exact ⟨hlike, hmem⟩
  · rintro ⟨hlike, hmem⟩
    exact ⟨⟨(client, key), value⟩, mem_filter.mpr ⟨hmem, by simp [hlike]⟩, rfl⟩

/-- A get selects each key once. -/
theorem nodup_selected (client : List UInt8) (start : Text) (rows : PostgresDatabase) :
    ((selected client start rows).map Prod.fst).Nodup := by
  have hkeys : (rows.entries.map Sigma.fst).Nodup := rows.nodupKeys
  have hfilter := hkeys.sublist ((filter_sublist (l := rows.entries)
    (p := fun row => decide (row.1.1 = client) && like (start ++ ['%']) row.1.2)).map Sigma.fst)
  have hsnd : (selected client start rows).map Prod.fst = ((rows.entries.filter fun row =>
      decide (row.1.1 = client) && like (start ++ ['%']) row.1.2).map Sigma.fst).map Prod.snd := by
    simp [selected]
  rw [hsnd]
  refine hfilter.map_on ?_
  rintro ⟨client₁, key₁⟩ h₁ ⟨client₂, key₂⟩ h₂ rfl
  have hclient {row : List UInt8 × Text} (h : row ∈ (rows.entries.filter fun row =>
      decide (row.1.1 = client) && like (start ++ ['%']) row.1.2).map Sigma.fst) :
      row.1 = client := by
    obtain ⟨row, hrow, rfl⟩ := mem_map.mp h
    exact of_decide_eq_true (Bool.and_eq_true_iff.mp (mem_filter.mp hrow).2).1
  exact Prod.ext ((hclient h₁).trans (hclient h₂).symm) rfl

/-- A get of a text without zero characters orders the selected rows by the collation. -/
theorem getWithPrefix_eq (hstart : '\x00' ∉ start) : getWithPrefix collation client start rows =
    .ok ((selected client start rows).insertionSort fun a b => collation a.1 b.1) := by
  have hcheck : checkText start = .ok () := checkText_eq_ok.mpr hstart
  rw [getWithPrefix, hcheck]
  rfl

/-! ## What a put does -/

/-- Whether a value is the next one for what is stored under its key. -/
def accepts (existing : Option Value) (value : Value) : Bool :=
  match existing with
  | none => value.version = 0
  | some existing => value.version ≠ 0 ∧ existing.version = value.version - 1

/-- The rows after the entries of a list are written in turn. -/
def insertRows (client : List UInt8) (kvs : KeyValues Int64) (rows : PostgresDatabase) :
    PostgresDatabase :=
  kvs.foldl (fun rows kv => rows.insert (client, kv.1) kv.2) rows

/-- The statement of an entry that the database can hold writes it exactly when it is accepted. -/
theorem exec_statement {kv : Text × Value} (htext : '\x00' ∉ kv.1)
    (hmin : kv.2.version ≠ Int64.minValue) : (statement client kv).exec rows =
      if accepts (rows.lookup (client, kv.1)) kv.2 = true then
        (.ok true, rows.insert (client, kv.1) kv.2)
      else (.ok false, rows) := by
  have hcheck : checkText kv.1 = .ok () := checkText_eq_ok.mpr htext
  obtain ⟨key, version, value⟩ := kv
  by_cases hzero : version = 0
  · subst hzero
    rw [statement, if_pos rfl, insertStatement, hcheck, exec_bind, exec_lift]
    simp only [exec_get_bind]
    cases hlookup : rows.lookup (client, key) with
    | none => rfl
    | some existing => simp [accepts]
  · rw [statement, if_neg hzero, updateStatement, hcheck, exec_bind, exec_lift]
    have hrange : refuseIf (version = Int64.minValue) (DbError.database "bigint out of range") =
        .ok () := refuseIf_eq_ok.mpr hmin
    simp only [exec_bind, hrange, exec_lift, exec_get]
    cases hlookup : rows.lookup (client, key) with
    | none => simp [accepts, hzero]
    | some existing =>
      by_cases hnext : existing.version = version - 1
      · simp [accepts, hzero, hnext]
        rfl
      · simp [accepts, hzero, hnext]

/-- The statements of a list with distinct keys are each decided by the rows before the list, and
when all are accepted every entry is written. -/
theorem exec_statements (hkeys : (kvs.map Prod.fst).Nodup) (htext : ∀ kv ∈ kvs, '\x00' ∉ kv.1)
    (hmin : ∀ kv ∈ kvs, kv.2.version ≠ Int64.minValue) (rows : PostgresDatabase) :
    ∃ rows', (statements client kvs).exec rows =
        (.ok (kvs.map fun kv => accepts (rows.lookup (client, kv.1)) kv.2), rows') ∧
      ((∀ kv ∈ kvs, accepts (rows.lookup (client, kv.1)) kv.2 = true) →
        rows' = insertRows client kvs rows) := by
  induction kvs generalizing rows with
  | nil => exact ⟨rows, rfl, fun _ => rfl⟩
  | cons kv kvs ih =>
    rw [map_cons, nodup_cons] at hkeys
    rw [forall_mem_cons] at htext hmin
    obtain ⟨rows₁, hstatement, hlookup, hwritten⟩ : ∃ rows₁, (statement client kv).exec rows =
        (.ok (accepts (rows.lookup (client, kv.1)) kv.2), rows₁) ∧
        (∀ kv' ∈ kvs, rows₁.lookup (client, kv'.1) = rows.lookup (client, kv'.1)) ∧
        (accepts (rows.lookup (client, kv.1)) kv.2 = true →
          rows₁ = rows.insert (client, kv.1) kv.2) := by
      rw [exec_statement htext.1 hmin.1]
      cases haccepts : accepts (rows.lookup (client, kv.1)) kv.2 with
      | false => exact ⟨rows, rfl, fun _ _ => rfl, fun h => nomatch h⟩
      | true =>
        refine ⟨rows.insert (client, kv.1) kv.2, rfl, ?_, fun _ => rfl⟩
        intro kv' hkv'
        rw [Table.lookup_insert_eq, if_neg]
        intro heq
        exact hkeys.1 ((Prod.mk.inj heq).2 ▸ mem_map_of_mem hkv')
    obtain ⟨rows', hrest, hall⟩ := ih hkeys.2 htext.2 hmin.2 rows₁
    have hflags : (kvs.map fun kv => accepts (rows₁.lookup (client, kv.1)) kv.2) =
        kvs.map fun kv => accepts (rows.lookup (client, kv.1)) kv.2 :=
      map_congr_left fun kv' hkv' => by rw [hlookup kv' hkv']
    refine ⟨rows', ?_, ?_⟩
    · rw [statements, exec_bind, hstatement]
      simp only [exec_bind, hrest, hflags]
      rfl
    · intro haccepts
      rw [forall_mem_cons] at haccepts
      rw [hall fun kv' hkv' => by rw [hlookup kv' hkv']; exact haccepts.2 kv' hkv',
        hwritten haccepts.1]
      rfl

/-- The entries of a list that are not accepted. -/
def refused (existing : Text → Option Value) (kvs : KeyValues Int64) :
    List (Text × Option Value) :=
  kvs.filterMap fun kv => if accepts (existing kv.1) kv.2 then none else some (kv.1, none)

theorem conflicts_map (existing : Text → Option Value) (kvs : KeyValues Int64) :
    conflicts kvs (kvs.map fun kv => accepts (existing kv.1) kv.2) = refused existing kvs := by
  induction kvs with
  | nil => rfl
  | cons kv kvs ih =>
    unfold conflicts refused at ih ⊢
    rw [map_cons, zip_cons_cons, filterMap_cons, filterMap_cons, ih]

theorem refused_eq_nil_iff {existing : Text → Option Value} :
    refused existing kvs = [] ↔ ∀ kv ∈ kvs, accepts (existing kv.1) kv.2 = true := by
  simp [refused]

/-- A put of a list with distinct keys that the database can hold is refused with the entries that
are not accepted, or else writes every entry. -/
theorem exec_put (hkeys : (kvs.map Prod.fst).Nodup) (htext : ∀ kv ∈ kvs, '\x00' ∉ kv.1)
    (hmin : ∀ kv ∈ kvs, kv.2.version ≠ Int64.minValue) (rows : PostgresDatabase) :
    (put client kvs).exec rows =
      match refused (fun key => rows.lookup (client, key)) kvs with
        | [] => (.ok (), insertRows client kvs rows)
        | found => (.error (.refuse (.conflict found)), rows) := by
  obtain ⟨rows', hstatements, hall⟩ := exec_statements hkeys htext hmin rows
  have hconflicts := conflicts_map (fun key => rows.lookup (client, key)) kvs
  rw [put, exec_transaction, exec_bind, hstatements]
  simp only [hconflicts, exec_lift]
  cases hrefused : refused (fun key => rows.lookup (client, key)) kvs with
  | nil =>
    rw [hall (refused_eq_nil_iff.mp hrefused)]
    rfl
  | cons conflict found => rfl

end PostgresDatabase

end ValidatingSigner.Storage
