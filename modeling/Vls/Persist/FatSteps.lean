import Vls.Persist.FatJson

/-!
# What the embedded persister does to files

With power for all of its file operations, a value operation leaves the new value in the current
file and nothing beside it.  When the power is lost earlier, the state of the files depends on how
many operations were made.
-/

namespace ValidatingSigner.FatJson

open Base Effect

variable {bucket : Bucket} {key : Text} {value : List UInt8} {files files' : Files FilePath}
  {power : Option Nat}

/-- There is at most as much in a file that was left as is going to be written. -/
def Overwritten (files : Files FilePath) (path : FilePath) (value : List UInt8) : Prop :=
  ((files.lookup path).getD []).length ≤ value.length

/-- The files are the same but for one path, where there is this now. -/
def Alters (files files' : Files FilePath) (path : FilePath) (bytes : Option (List UInt8)) : Prop :=
  ∀ other, files'.lookup other = if other = path then bytes else files.lookup other

/-! ## Single operations -/

theorem create_eq (files : Files FilePath) (path : FilePath) :
    ∃ files', files.create path = .ok files' ∧
      Alters files files' path (some ((files.lookup path).getD [])) :=
  ⟨_, rfl, fun other => Table.lookup_insert_eq files other path _⟩

theorem write_eq {path : FilePath} (h : Overwritten files path value) :
    ∃ files', files.write path value = .ok files' ∧ Alters files files' path (some value) := by
  refine ⟨_, rfl, fun other => ?_⟩
  rw [Table.lookup_insert_eq, List.drop_eq_nil_of_le h, List.append_nil]

/-- Writing beside the current file. -/
theorem exec_writeNewFile (hpower : Lasts power 2)
    (hnew : Overwritten files ⟨bucket, key, .new⟩ value) :
    ∃ files', (writeNewFile bucket key value).exec ⟨files, power⟩ =
      (.ok (), ⟨files', spend 2 power⟩) ∧
      Alters files files' ⟨bucket, key, .new⟩ (some value) := by
  obtain ⟨files₁, hcreate, h₁⟩ := create_eq files ⟨bucket, key, .new⟩
  have hnew₁ : Overwritten files₁ ⟨bucket, key, .new⟩ value := by
    rw [Overwritten, h₁, if_pos rfl]
    exact hnew
  obtain ⟨files₂, hwrite, h₂⟩ := write_eq hnew₁
  refine ⟨files₂, ?_, fun other => ?_⟩
  · rw [← spend_spend 1 1]
    exact exec_bind_eq_ok_iff.mpr ⟨(), _, exec_fileOp_ok (hpower.mono (by decide)) hcreate,
      exec_fileOp_ok (Lasts.spend hpower) hwrite⟩
  · rw [h₂]
    split_ifs with hother
    · rfl
    · rw [h₁, if_neg hother]

theorem exec_rename {source target : FilePath} {bytes : List UInt8} (hpower : Lasts power 1)
    (hsource : files.lookup source = some bytes) (htarget : files.lookup target = none) :
    ∃ files', (fileOp fileError fun files => files.rename source target).exec ⟨files, power⟩ =
        (.ok (), ⟨files', spend 1 power⟩) ∧ ∀ other, files'.lookup other =
      if other = target then some bytes
      else if other = source then none else files.lookup other := by
  obtain ⟨files', hrename, h⟩ := Files.rename_eq_ok hsource htarget
  exact ⟨files', exec_fileOp_ok hpower hrename, h⟩

theorem exec_expungeOldFile (hpower : Lasts power 1)
    (hold : files.lookup ⟨bucket, key, .old⟩ ≠ none) :
    ∃ files', (expungeOldFile bucket key).exec ⟨files, power⟩ =
        (.ok (), ⟨files', spend 1 power⟩) ∧ Alters files files' ⟨bucket, key, .old⟩ none := by
  obtain ⟨files', hremove, h⟩ := Files.remove_eq_ok hold
  exact ⟨files', exec_fileOp_ok hpower hremove, h⟩

/-! ## Whole values -/

/-- The current file of a key has this now, nothing is beside it, and all other files are the
same. -/
def Stores (files files' : Files FilePath) (bucket : Bucket) (key : Text)
    (bytes : Option (List UInt8)) : Prop :=
  ∀ other, files'.lookup other =
    if other = ⟨bucket, key, .cur⟩ then bytes
    else if other = ⟨bucket, key, .new⟩ then none else files.lookup other

/-- Create a value. -/
theorem exec_insertValue (hpower : Lasts power 3)
    (hcur : files.lookup ⟨bucket, key, .cur⟩ = none)
    (hnew : Overwritten files ⟨bucket, key, .new⟩ value) :
    ∃ files', (insertValue bucket key value).exec ⟨files, power⟩ =
      (.ok (), ⟨files', spend 3 power⟩) ∧ Stores files files' bucket key (some value) := by
  obtain ⟨files₁, hwrite, h₁⟩ := exec_writeNewFile (hpower.mono (by decide)) hnew
  have hnew₁ : files₁.lookup ⟨bucket, key, .new⟩ = some value := by rw [h₁, if_pos rfl]
  have hcur₁ : files₁.lookup ⟨bucket, key, .cur⟩ = none := by
    rw [h₁, if_neg (by simp), hcur]
  obtain ⟨files₂, hreplace, h₂⟩ := exec_rename (Lasts.spend hpower) hnew₁ hcur₁
  refine ⟨files₂, ?_, fun other => ?_⟩
  · rw [← spend_spend 2 1]
    exact exec_bind_eq_ok_iff.mpr ⟨(), _, hwrite, hreplace⟩
  · rw [h₂]
    split_ifs with hother hother'
    · rfl
    · rfl
    · rw [h₁, if_neg hother']

/-- Replace a value that is there. -/
theorem exec_replacing (hpower : Lasts power 5)
    (hcur : files.lookup ⟨bucket, key, .cur⟩ ≠ none)
    (hold : files.lookup ⟨bucket, key, .old⟩ = none)
    (hnew : Overwritten files ⟨bucket, key, .new⟩ value) :
    ∃ files', (updateValue bucket key value).exec ⟨files, power⟩ =
        (.ok (), ⟨files', spend 5 power⟩) ∧
      (upsertValue bucket key value).exec ⟨files, power⟩ = (.ok (), ⟨files', spend 5 power⟩) ∧
      Stores files files' bucket key (some value) := by
  obtain ⟨bytes, hcur⟩ := Option.ne_none_iff_exists'.mp hcur
  have hlasts (count : Nat) (hcount : count + 1 ≤ 5) : Lasts (spend count power) 1 :=
    Lasts.spend (hpower.mono hcount)
  obtain ⟨files₁, hwrite, h₁⟩ := exec_writeNewFile (hpower.mono (by decide)) hnew
  obtain ⟨files₂, hretire, h₂⟩ := exec_rename (hlasts 2 (by decide))
    (show files₁.lookup ⟨bucket, key, .cur⟩ = some bytes by rw [h₁, if_neg (by simp), hcur])
    (show files₁.lookup ⟨bucket, key, .old⟩ = none by rw [h₁, if_neg (by simp), hold])
  rw [spend_spend] at hretire
  obtain ⟨files₃, hreplace, h₃⟩ := exec_rename (hlasts 3 (by decide))
    (show files₂.lookup ⟨bucket, key, .new⟩ = some value by
      rw [h₂, if_neg (by simp), if_neg (by simp), h₁, if_pos rfl])
    (show files₂.lookup ⟨bucket, key, .cur⟩ = none by rw [h₂, if_neg (by simp), if_pos rfl])
  rw [spend_spend] at hreplace
  have hretired : files₃.lookup ⟨bucket, key, .old⟩ ≠ none := by
    rw [h₃, if_neg (by simp), if_neg (by simp), h₂, if_pos rfl]
    exact Option.some_ne_none bytes
  obtain ⟨files₄, hexpunge, h₄⟩ := exec_expungeOldFile (hlasts 4 (by decide)) hretired
  rw [spend_spend] at hexpunge
  refine ⟨files₄, ?_, ?_, fun other => ?_⟩
  · exact exec_bind_eq_ok_iff.mpr ⟨(), _, hwrite, exec_bind_eq_ok_iff.mpr ⟨(), _, hretire,
      exec_bind_eq_ok_iff.mpr ⟨(), _, hreplace, hexpunge⟩⟩⟩
  · refine exec_bind_eq_ok_iff.mpr ⟨(), _, hwrite, exec_bind_eq_ok_iff.mpr ⟨(), _, ?_,
      exec_bind_eq_ok_iff.mpr ⟨(), _, hreplace, ?_⟩⟩⟩
    · rw [exec_attempt, retireCurFile, hretire]
    · rw [exec_attempt, hexpunge]
  · rw [h₄, h₃, h₂, h₁]
    by_cases hcur' : other = ⟨bucket, key, .cur⟩
    · subst hcur'
      simp
    · by_cases hold' : other = ⟨bucket, key, .old⟩
      · subst hold'
        simp [hold]
      · simp only [hcur', hold', if_false]
        split_ifs <;> rfl

/-- Create a value where there is none: it is there after four operations, and the last one has
nothing to do. -/
theorem exec_upsertValue_absent (hpower : Lasts power 4)
    (hcur : files.lookup ⟨bucket, key, .cur⟩ = none)
    (hold : files.lookup ⟨bucket, key, .old⟩ = none)
    (hnew : Overwritten files ⟨bucket, key, .new⟩ value) :
    ∃ r files', (upsertValue bucket key value).exec ⟨files, power⟩ =
      (r, ⟨files', spend 5 power⟩) ∧ Stores files files' bucket key (some value) ∧
      (Lasts power 5 → r = .ok ()) := by
  have hlasts (count : Nat) (hcount : count + 1 ≤ 4) : Lasts (spend count power) 1 :=
    Lasts.spend (hpower.mono hcount)
  obtain ⟨files₁, hwrite, h₁⟩ := exec_writeNewFile (hpower.mono (by decide)) hnew
  have hcur₁ : files₁.lookup ⟨bucket, key, .cur⟩ = none := by rw [h₁, if_neg (by simp), hcur]
  have hretire : exec (attempt (retireCurFile bucket key)) ⟨files₁, spend 2 power⟩ =
      (.ok (), ⟨files₁, spend 3 power⟩) := by
    rw [exec_attempt, retireCurFile,
      exec_fileOp_error (hlasts 2 (by decide)) (Files.rename_notFound hcur₁), spend_spend]
  obtain ⟨files₂, hreplace, h₂⟩ := exec_rename (hlasts 3 (by decide))
    (show files₁.lookup ⟨bucket, key, .new⟩ = some value by rw [h₁, if_pos rfl]) hcur₁
  rw [spend_spend] at hreplace
  have hold₂ : files₂.lookup ⟨bucket, key, .old⟩ = none := by
    rw [h₂, if_neg (by simp), if_neg (by simp), h₁, if_neg (by simp), hold]
  have hstores : Stores files files₂ bucket key (some value) := by
    intro other
    rw [h₂]
    split_ifs with hother hother'
    · rfl
    · rfl
    · rw [h₁, if_neg hother']
  have hexec : (upsertValue bucket key value).exec ⟨files, power⟩ =
      exec (attempt (expungeOldFile bucket key)) ⟨files₂, spend 4 power⟩ := by
    simp only [upsertValue, replaceFile, exec_bind, hwrite, hretire, hreplace]
  by_cases hfive : Lasts power 5
  · refine ⟨.ok (), files₂, ?_, hstores, fun _ => rfl⟩
    rw [hexec, exec_attempt, expungeOldFile,
      exec_fileOp_error (Lasts.spend hfive) (Files.remove_notFound hold₂), spend_spend]
  · obtain rfl : power = some 4 := by
      rw [Lasts] at hfive
      push Not at hfive
      obtain ⟨left, rfl, hleft⟩ := hfive
      exact congrArg some (Nat.le_antisymm (Nat.le_of_lt_succ hleft) (hpower left rfl))
    exact ⟨_, files₂, hexec, hstores, fun h => absurd h hfive⟩

/-- Delete a value that is there. -/
theorem exec_deleteValue (hpower : Lasts power 2)
    (hcur : files.lookup ⟨bucket, key, .cur⟩ ≠ none)
    (hold : files.lookup ⟨bucket, key, .old⟩ = none) :
    ∃ files', (deleteValue bucket key).exec ⟨files, power⟩ = (.ok (), ⟨files', spend 2 power⟩) ∧
      Alters files files' ⟨bucket, key, .cur⟩ none := by
  obtain ⟨bytes, hcur⟩ := Option.ne_none_iff_exists'.mp hcur
  obtain ⟨files₁, hretire, h₁⟩ := exec_rename (hpower.mono (by decide)) hcur hold
  obtain ⟨files₂, hexpunge, h₂⟩ := exec_expungeOldFile (Lasts.spend hpower)
    (show files₁.lookup ⟨bucket, key, .old⟩ ≠ none by
      rw [h₁, if_pos rfl]
      exact Option.some_ne_none bytes)
  rw [spend_spend] at hexpunge
  refine ⟨files₂, exec_bind_eq_ok_iff.mpr ⟨(), _, hretire, hexpunge⟩, fun other => ?_⟩
  rw [h₂, h₁]
  by_cases hold' : other = ⟨bucket, key, .old⟩
  · subst hold'
    simp [hold]
  · simp only [hold', if_false]

/-! ## Listing -/

/-- All files in a directory are current ones. -/
def Clean (bucket : Bucket) (files : Files FilePath) : Prop :=
  ∀ path ∈ files, path.bucket = bucket → path.kind = .cur

/-- The keys of a directory with only current files are listed, each once. -/
theorem Clean.listKeys (h : Clean bucket files) :
    ∃ keys, listKeys bucket files = .ok keys ∧ keys.Nodup ∧
      ∀ key, key ∈ keys ↔ ⟨bucket, key, .cur⟩ ∈ files := by
  set found := files.keys.filter fun path => path.bucket = bucket with hfound
  have hmem {path : FilePath} : path ∈ found ↔ path ∈ files ∧ path.bucket = bucket := by
    rw [hfound, List.mem_filter, ← AList.mem_keys, decide_eq_true_iff]
  have hkind {path : FilePath} (hpath : path ∈ found) : path.kind = .cur :=
    h path (hmem.mp hpath).1 (hmem.mp hpath).2
  have hgood : found.find? (fun path => path.kind ≠ .cur) = none := by
    rw [List.find?_eq_none]
    intro path hpath
    simp [hkind hpath]
  refine ⟨found.map FilePath.key, ?_, ?_, fun key => ?_⟩
  · rw [FatJson.listKeys, ← hfound, hgood]
  · refine (files.keys_nodup.filter _).map_on ?_
    rintro ⟨b, k, i⟩ hpath ⟨b', k', i'⟩ hpath' hkey
    obtain rfl : b = bucket := (hmem.mp hpath).2
    obtain rfl : b' = b := (hmem.mp hpath').2
    obtain rfl : i = .cur := hkind hpath
    obtain rfl : i' = .cur := hkind hpath'
    obtain rfl : k = k' := hkey
    rfl
  · rw [List.mem_map]
    constructor
    · rintro ⟨⟨b, k, i⟩, hpath, rfl⟩
      obtain rfl : b = bucket := (hmem.mp hpath).2
      obtain rfl : i = .cur := hkind hpath
      exact (hmem.mp hpath).1
    · intro hpath
      exact ⟨_, hmem.mpr ⟨hpath, rfl⟩, rfl⟩

/-! ## Lost power -/

/-- When the power is lost while a value is written beside the current file, only the file beside it
is different: it has been created, or it has the value. -/
theorem exec_writing {rest : Unit → FatOp Unit} {count : Nat}
    (hrest : ∀ files, exec (rest ()) ⟨files, some 0⟩ =
      (.error (.abort powerLoss), ⟨files, some 0⟩)) (hcount : count ≤ 2)
    (hnew : Overwritten files ⟨bucket, key, .new⟩ value) :
    ∃ files', exec (writeNewFile bucket key value >>= rest) ⟨files, some count⟩ =
      (.error (.abort powerLoss), ⟨files', some 0⟩) ∧
      (count = 0 ∧ files' = files ∨
        count = 1 ∧ Alters files files' ⟨bucket, key, .new⟩
          (some ((files.lookup ⟨bucket, key, .new⟩).getD [])) ∨
        count = 2 ∧ Alters files files' ⟨bucket, key, .new⟩ (some value)) := by
  have hcases : count = 0 ∨ count = 1 ∨ count = 2 := by omega
  rcases hcases with rfl | rfl | rfl
  · exact ⟨files, rfl, .inl ⟨rfl, rfl⟩⟩
  · exact ⟨_, rfl, .inr (.inl ⟨rfl, fun other => Table.lookup_insert_eq files other _ _⟩)⟩
  · have hlasts : Lasts (some 2) 2 := fun left hleft => (Option.some.inj hleft).le
    obtain ⟨files', hwrite, halters⟩ := exec_writeNewFile hlasts hnew
    refine ⟨files', ?_, .inr (.inr ⟨rfl, halters⟩)⟩
    rw [exec_bind, hwrite]
    exact hrest files'

end ValidatingSigner.FatJson
