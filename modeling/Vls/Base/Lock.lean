import Mathlib.Data.Set.Finite.Lemmas
import Vls.Base.Machine

/-!
# Locks and threads

A thread is a list of acquisitions and releases, in the order in which it makes them; a thread whose
next lock is held waits.  Threads that take every lock above the locks they hold, in a fixed order,
never wait for each other in a circle.
-/

namespace ValidatingSigner.Base

open List Function

/-- What a thread does with a lock. -/
inductive LockAction (L : Type) where
  | acquire (lock : L)
  | release (lock : L)
  deriving DecidableEq

/-- A thread: the locks it holds and what it does next. -/
structure LockThread (L : Type) where
  held : List L
  rest : List (LockAction L)

namespace LockAction

variable {L : Type}

/-- Hold a lock during the actions of a body. -/
def locked (lock : L) (body : List (LockAction L)) : List (LockAction L) :=
  acquire lock :: body ++ [release lock]

variable [DecidableEq L]

/-- The locks held after actions. -/
def after : List L → List (LockAction L) → List L
  | held, [] => held
  | held, acquire lock :: rest => after (lock :: held) rest
  | held, release lock :: rest => after (held.erase lock) rest

theorem after_append (held : List L) (first second : List (LockAction L)) :
    after held (first ++ second) = after (after held first) second := by
  induction first generalizing held with
  | nil => rfl
  | cons action first ih => cases action with
    | acquire lock => exact ih (lock :: held)
    | release lock => exact ih (held.erase lock)

/-- Every lock is acquired above the locks that are held. -/
def Ordered (rank : L → Nat) : List L → List (LockAction L) → Prop
  | _, [] => True
  | held, acquire lock :: rest =>
    (∀ other ∈ held, rank other < rank lock) ∧ Ordered rank (lock :: held) rest
  | held, release lock :: rest => Ordered rank (held.erase lock) rest

theorem ordered_append {rank : L → Nat} {held : List L} {first second : List (LockAction L)} :
    Ordered rank held (first ++ second) ↔
      Ordered rank held first ∧ Ordered rank (after held first) second := by
  induction first generalizing held with
  | nil => exact ⟨fun h => ⟨trivial, h⟩, And.right⟩
  | cons action first ih => cases action with
    | acquire lock =>
      rw [cons_append, Ordered, Ordered, ih, and_assoc]
      rfl
    | release lock =>
      rw [cons_append, Ordered, Ordered, ih]
      rfl

/-! ## Scoped actions -/

/-- The actions release exactly what they acquire, and acquire every lock above `held` and above the
locks they hold themselves. -/
structure Scoped (rank : L → Nat) (held : List L) (actions : List (LockAction L)) : Prop where
  after : after held actions = held
  ordered : Ordered rank held actions

namespace Scoped

variable {rank : L → Nat} {held : List L}

theorem nil : Scoped rank held [] := ⟨rfl, trivial⟩

theorem append {first second : List (LockAction L)} (hfirst : Scoped rank held first)
    (hsecond : Scoped rank held second) : Scoped rank held (first ++ second) := by
  constructor
  · rw [after_append, hfirst.after, hsecond.after]
  · rw [ordered_append, hfirst.after]
    exact ⟨hfirst.ordered, hsecond.ordered⟩

theorem locked {lock : L} {body : List (LockAction L)}
    (hlock : ∀ other ∈ held, rank other < rank lock)
    (hbody : Scoped rank (lock :: held) body) : Scoped rank held (locked lock body) := by
  constructor
  · change LockAction.after (lock :: held) (body ++ [release lock]) = held
    rw [after_append, hbody.after]
    exact erase_cons_head lock held
  · change _ ∧ Ordered rank (lock :: held) (body ++ [release lock])
    rw [ordered_append, hbody.after]
    exact ⟨hlock, hbody.ordered, trivial⟩

theorem flatMap {α : Type} {l : List α} {actions : α → List (LockAction L)}
    (h : ∀ a ∈ l, Scoped rank held (actions a)) : Scoped rank held (l.flatMap actions) := by
  induction l with
  | nil => exact nil
  | cons a l ih =>
    rw [flatMap_cons]
    exact (h a mem_cons_self).append (ih fun b hb => h b (mem_cons_of_mem a hb))

end Scoped

end LockAction

/-! ## Interleavings -/

/-- The threads that run at the same time. -/
abbrev LockConfig (ι L : Type) := ι → LockThread L

namespace LockConfig

variable {ι L : Type}

/-- Threads that begin their programs. -/
def start (program : ι → List (LockAction L)) : LockConfig ι L := fun i => ⟨[], program i⟩

/-- A thread waits for a lock that another thread holds. -/
def WaitsFor (c : LockConfig ι L) (i j : ι) : Prop :=
  ∃ lock rest, (c i).rest = .acquire lock :: rest ∧ lock ∈ (c j).held

/-- There are threads each of which waits for a lock that another one of them holds. -/
def Deadlocked (c : LockConfig ι L) : Prop :=
  ∃ waiting : Set ι, waiting.Nonempty ∧
    ∀ i ∈ waiting, ∃ j ∈ waiting, j ≠ i ∧ c.WaitsFor i j

variable [Fintype ι] [DecidableEq ι] [DecidableEq L]

/-- One thread makes its next action, unless it has to wait. -/
def step (c : LockConfig ι L) (i : ι) : LockConfig ι L :=
  match (c i).rest with
  | [] => c
  | .acquire lock :: rest =>
    if ∀ j, lock ∉ (c j).held then update c i ⟨lock :: (c i).held, rest⟩ else c
  | .release lock :: rest => update c i ⟨(c i).held.erase lock, rest⟩

/-- The machine whose events say which thread goes on. -/
def machine : Machine (LockConfig ι L) ι Unit := ⟨fun c i => (c.step i, ())⟩

/-- An interleaving of the programs leads to the configuration. -/
def Reachable (program : ι → List (LockAction L)) (c : LockConfig ι L) : Prop :=
  ∃ schedule, machine.final (start program) schedule = c

/-! ## Ordered threads -/

variable {rank : L → Nat} {c : LockConfig ι L} {program : ι → List (LockAction L)}

/-- A step keeps all threads ordered. -/
theorem ordered_step (h : ∀ i, LockAction.Ordered rank (c i).held (c i).rest) (i j : ι) :
    LockAction.Ordered rank (c.step i j).held (c.step i j).rest := by
  have hi := h i
  have hupdate {thread : LockThread L} (hthread : LockAction.Ordered rank thread.held thread.rest) :
      LockAction.Ordered rank (update c i thread j).held
        (update c i thread j).rest := by
    by_cases hj : j = i
    · subst hj
      rw [update_self]
      exact hthread
    · rw [update_of_ne hj]
      exact h j
  rcases hrest : (c i).rest with _ | ⟨lock | lock, rest⟩
  · simp only [step, hrest]
    exact h j
  · rw [hrest] at hi
    simp only [step, hrest]
    split_ifs
    · exact hupdate hi.2
    · exact h j
  · rw [hrest] at hi
    simp only [step, hrest]
    exact hupdate hi

/-- Along every interleaving of ordered programs all threads are ordered. -/
theorem Reachable.ordered (hc : Reachable program c)
    (h : ∀ i, LockAction.Ordered rank [] (program i)) (i : ι) :
    LockAction.Ordered rank (c i).held (c i).rest := by
  obtain ⟨schedule, rfl⟩ := hc
  exact machine.final_induction (C := fun _ => True)
    (P := fun c => ∀ i, LockAction.Ordered rank (c i).held (c i).rest) h
    (fun c i hc _ j => ordered_step hc i j) schedule (fun _ _ => trivial) i

omit [DecidableEq ι] in
/-- Ordered threads do not wait for each other in a circle. -/
theorem not_deadlocked (h : ∀ i, LockAction.Ordered rank (c i).held (c i).rest) :
    ¬ c.Deadlocked := by
  rintro ⟨waiting, hnonempty, hwaiting⟩
  let height (i : ι) : Nat := match (c i).rest with
    | .acquire lock :: _ => rank lock
    | _ => 0
  obtain ⟨i, hi, hmax⟩ := Set.exists_max_image waiting height waiting.toFinite hnonempty
  obtain ⟨j, hj, -, lock, rest, hrest, hheld⟩ := hwaiting i hi
  obtain ⟨-, -, -, lock', rest', hrest', -⟩ := hwaiting j hj
  have horder := h j
  rw [hrest'] at horder
  have hlt : height i < height j := by
    simp only [height, hrest, hrest']
    exact horder.1 lock hheld
  exact absurd (hmax j hj) (not_le.mpr hlt)

/-- Ordered programs never get into a deadlock. -/
theorem Reachable.not_deadlocked (hc : Reachable program c)
    (h : ∀ i, LockAction.Ordered rank [] (program i)) : ¬ c.Deadlocked :=
  LockConfig.not_deadlocked (hc.ordered h)

/-! ## Threads that run alone -/

/-- A thread makes its actions one after the other while no other thread holds the locks. -/
theorem final_replicate {i : ι} {held : List L} {first rest : List (LockAction L)}
    (hi : c i = ⟨held, first ++ rest⟩) (hordered : LockAction.Ordered rank held first)
    (hfree : ∀ lock, .acquire lock ∈ first → ∀ j, j ≠ i → lock ∉ (c j).held) :
    machine.final c (replicate first.length i) =
      update c i ⟨LockAction.after held first, rest⟩ := by
  induction first generalizing c held with
  | nil => exact (update_eq_self_iff.mpr hi.symm).symm
  | cons action first ih =>
    have hnext {held' : List L} (hstep : c.step i = update c i ⟨held', first ++ rest⟩)
        (hordered' : LockAction.Ordered rank held' first) :
        machine.final c (replicate (action :: first).length i) =
          update c i ⟨LockAction.after held' first, rest⟩ := by
      have hfinal : machine.final c (replicate (action :: first).length i) =
          machine.final (c.step i) (replicate first.length i) := rfl
      rw [hfinal, hstep, ih (update_self ..) hordered', update_idem]
      intro lock hlock j hj
      rw [update_of_ne hj]
      exact hfree lock (mem_cons_of_mem action hlock) j hj
    cases action with
    | acquire lock =>
      have hnone : ∀ j, lock ∉ (c j).held := by
        intro j
        by_cases hj : j = i
        · subst hj
          rw [hi]
          exact fun hmem => Nat.lt_irrefl _ (hordered.1 lock hmem)
        · exact hfree lock mem_cons_self j hj
      refine hnext ?_ hordered.2
      simp only [step, hi, cons_append, if_pos hnone]
    | release lock =>
      refine hnext ?_ hordered
      simp only [step, hi, cons_append]

end LockConfig

end ValidatingSigner.Base
