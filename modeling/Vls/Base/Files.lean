import Vls.Base.Effect
import Vls.Base.Table

/-!
# Files on a device that may lose power

Files are created, written, renamed and removed, each in one step that is either made or not.
Creating a file that exists opens it as it is, writing overwrites its beginning, and a file cannot
be renamed to one that exists.  A device may lose its power after any number of steps, which ends
whatever is running; the files stay.
-/

namespace ValidatingSigner.Base

/-- The contents of files by their paths. -/
abbrev Files (π : Type) := Table π (List UInt8)

/-- Why a file operation fails. -/
inductive FileError where
  | notFound
  | alreadyExists
  deriving DecidableEq

namespace Files

variable {π : Type} [DecidableEq π] (files : Files π)

/-- Open a file, which is created if it does not exist. -/
def create (path : π) : Except FileError (Files π) :=
  .ok (files.insert path ((files.lookup path).getD []))

/-- Write bytes at the beginning of a file. -/
def write (path : π) (bytes : List UInt8) : Except FileError (Files π) :=
  .ok (files.insert path (bytes ++ ((files.lookup path).getD []).drop bytes.length))

/-- Give a file another path. -/
def rename (source target : π) : Except FileError (Files π) :=
  match files.lookup source with
  | none => .error .notFound
  | some bytes =>
    if target ∈ files then .error .alreadyExists else .ok ((files.erase source).insert target bytes)

/-- Remove a file. -/
def remove (path : π) : Except FileError (Files π) :=
  if path ∈ files then .ok (files.erase path) else .error .notFound

variable {files}

theorem lookup_erase_eq (files : Files π) (path other : π) :
    AList.lookup other (files.erase path) = if other = path then none else files.lookup other := by
  by_cases h : other = path
  · rw [if_pos h, h, AList.lookup_erase]
  · rw [if_neg h, AList.lookup_erase_ne h]

/-- A file that is renamed is found at its new path only. -/
theorem rename_eq_ok {source target : π} {bytes : List UInt8}
    (hsource : files.lookup source = some bytes) (htarget : files.lookup target = none) :
    ∃ files', files.rename source target = .ok files' ∧ ∀ path, files'.lookup path =
      if path = target then some bytes else if path = source then none else files.lookup path := by
  refine ⟨(files.erase source).insert target bytes, ?_, fun path => ?_⟩
  · rw [rename, hsource]
    exact if_neg (AList.lookup_eq_none.mp htarget)
  · rw [Table.lookup_insert_eq, lookup_erase_eq]

theorem rename_notFound {source target : π} (hsource : files.lookup source = none) :
    files.rename source target = .error .notFound := by
  rw [rename, hsource]

theorem remove_eq_ok {path : π} (h : files.lookup path ≠ none) :
    ∃ files', files.remove path = .ok files' ∧ ∀ other, files'.lookup other =
      if other = path then none else files.lookup other := by
  have hmem : path ∈ files := by
    by_contra habsent
    exact h (AList.lookup_eq_none.mpr habsent)
  exact ⟨files.erase path, if_pos hmem, lookup_erase_eq files path⟩

theorem remove_notFound {path : π} (h : files.lookup path = none) :
    files.remove path = .error .notFound :=
  if_neg (AList.lookup_eq_none.mp h)

end Files

/-! ## Power -/

/-- Files, and how many file operations are left until the power is lost, if it is. -/
structure Device (π : Type) where
  files : Files π
  power : Option Nat

/-- The message of a device that has lost its power. -/
def powerLoss : String := "power loss"

/-- The power that is left after some file operations. -/
def spend (count : Nat) (power : Option Nat) : Option Nat := power.map (· - count)

/-- The power lasts for some file operations. -/
def Lasts (power : Option Nat) (count : Nat) : Prop := ∀ left, power = some left → count ≤ left

theorem Lasts.none (count : Nat) : Lasts .none count := by
  intro left h
  cases h

theorem Lasts.spend {power : Option Nat} {count more : Nat} (h : Lasts power (count + more)) :
    Lasts (spend count power) more := by
  intro left hleft
  obtain ⟨before, hbefore, rfl⟩ := Option.map_eq_some_iff.mp hleft
  have := h before hbefore
  omega

theorem Lasts.mono {power : Option Nat} {count more : Nat} (h : Lasts power more)
    (hle : count ≤ more) : Lasts power count :=
  fun left hleft => hle.trans (h left hleft)

theorem spend_spend (count more : Nat) (power : Option Nat) :
    spend more (spend count power) = spend (count + more) power := by
  cases power with
  | none => rfl
  | some left => exact congrArg some (Nat.sub_sub left count more)

section Operations

variable {π ε : Type} (error : FileError → ε)

/-- A file operation, as long as there is power. -/
def fileOp (f : Files π → Except FileError (Files π)) : Effect (Device π) ε Unit := do
  let device ← get
  if device.power = some 0 then Effect.lift (.error (.abort powerLoss))
  else match f device.files with
    | .ok files => set (⟨files, spend 1 device.power⟩ : Device π)
    | .error e => do
      set (⟨device.files, spend 1 device.power⟩ : Device π)
      Effect.lift (.error (.refuse (error e)))

variable {error} {f : Files π → Except FileError (Files π)} {files files' : Files π}
  {power : Option Nat}

theorem exec_fileOp_ok (hpower : Lasts power 1) (hf : f files = .ok files') :
    (fileOp error f).exec ⟨files, power⟩ = (.ok (), ⟨files', spend 1 power⟩) := by
  have hne : power ≠ some 0 := fun h => absurd (hpower 0 h) (by decide)
  rw [fileOp, Effect.exec_get_bind, if_neg hne, hf]
  rfl

theorem exec_fileOp_error {e : FileError} (hpower : Lasts power 1) (hf : f files = .error e) :
    (fileOp error f).exec ⟨files, power⟩ =
      (.error (.refuse (error e)), ⟨files, spend 1 power⟩) := by
  have hne : power ≠ some 0 := fun h => absurd (hpower 0 h) (by decide)
  rw [fileOp, Effect.exec_get_bind, if_neg hne, hf]
  rfl

end Operations

end ValidatingSigner.Base
