import Mathlib.Control.Lawful
import Vls.Base.Fault

/-!
# Stateful computation that keeps its state on failure

An operation mutates a state in place and may fail half way: what it wrote before the failure stays
written.  `Effect` is that monad, `exec` runs an operation, and the inversion rules peel an
execution apart one statement at a time.
-/

namespace ValidatingSigner.Base

/-- Operations on a state `σ` that may refuse or abort. -/
abbrev Effect (σ : Type) (ε : Type) := ExceptT (Fault ε) (StateM σ)

namespace Effect

variable {σ ε α β : Type} {f : α → Effect σ ε β}

/-- The result of running an operation from a state, and the state it leaves. -/
def exec (x : Effect σ ε α) (s : σ) : Except (Fault ε) α × σ := StateT.run (ExceptT.run x) s

/-- A computation that reads no state, run inside an operation. -/
def lift (x : Except (Fault ε) α) : Effect σ ε α := ExceptT.mk (pure x)

@[simp] theorem exec_pure (a : α) (s : σ) : exec (pure a : Effect σ ε α) s = (.ok a, s) := rfl

@[simp] theorem exec_lift (x : Except (Fault ε) α) (s : σ) : exec (lift x) s = (x, s) := rfl

@[simp] theorem exec_get (s : σ) : exec (get : Effect σ ε σ) s = (.ok s, s) := rfl

@[simp] theorem exec_modify (f : σ → σ) (s : σ) :
    exec (modify f : Effect σ ε PUnit) s = (.ok ⟨⟩, f s) := rfl

/-- Running a sequence runs its first part and, on success, its second part from the state left. -/
theorem exec_bind (x : Effect σ ε α) (f : α → Effect σ ε β) (s : σ) :
    exec (x >>= f) s = match exec x s with
      | (.ok a, t) => exec (f a) t
      | (.error e, t) => (.error e, t) := by
  change StateT.run (ExceptT.run x >>= ExceptT.bindCont f) s = _
  rw [StateT.run_bind]
  unfold exec
  rcases StateT.run (ExceptT.run x) s with ⟨_ | _, t⟩ <;> rfl

@[simp] theorem exec_get_bind (f : σ → Effect σ ε β) (s : σ) :
    exec ((get : Effect σ ε σ) >>= f) s = exec (f s) s := by
  rw [exec_bind, exec_get]

@[simp] theorem exec_set_bind (u : σ) (f : PUnit → Effect σ ε β) (s : σ) :
    exec (set u >>= f) s = exec (f ⟨⟩) u := rfl

@[simp] theorem exec_modify_bind (g : σ → σ) (f : PUnit → Effect σ ε β) (s : σ) :
    exec ((modify g : Effect σ ε PUnit) >>= f) s = exec (f ⟨⟩) (g s) := by
  rw [exec_bind, exec_modify]

/-- A lifted computation either ends the operation with the state untouched, or hands over its
value. -/
theorem exec_lift_bind_iff {x : Except (Fault ε) α} {s t : σ} {r : Except (Fault ε) β} :
    exec (lift x >>= f) s = (r, t) ↔
      (∃ e, x = .error e ∧ r = .error e ∧ t = s) ∨ ∃ a, x = .ok a ∧ exec (f a) s = (r, t) := by
  rw [exec_bind, exec_lift]
  cases x with
  | error e =>
    simp only [Except.error.injEq, reduceCtorEq, false_and, exists_false, or_false,
      exists_eq_left', Prod.mk.injEq]
    exact ⟨fun h => ⟨h.1.symm, h.2.symm⟩, fun h => ⟨h.1.symm, h.2.symm⟩⟩
  | ok a => simp

/-- A computation that never refuses aborts the sequence it begins, or hands over its value. -/
theorem exec_noRefusal_bind {x : Except (Fault ε) α} {s t : σ} {r : Except (Fault ε) β}
    (hx : NoRefusal x) (h : exec (lift x >>= f) s = (r, t)) :
    (∃ message, r = .error (.abort message)) ∨ ∃ a, x = .ok a ∧ exec (f a) s = (r, t) := by
  rcases exec_lift_bind_iff.mp h with ⟨e, he, rfl, -⟩ | hok
  · cases e with
    | refuse e => exact absurd he (hx e)
    | abort message => exact .inl ⟨message, rfl⟩
  · exact .inr hok

theorem fst_exec_lift_bind (x : Except (Fault ε) α) (f : α → Effect σ ε β) (s : σ) :
    (exec (lift x >>= f) s).1 = (x >>= fun a => (exec (f a) s).1) := by
  rw [exec_bind, exec_lift]
  cases x <;> rfl

/-- A sequence succeeds exactly when both parts do. -/
theorem exec_bind_eq_ok_iff {x : Effect σ ε α} {s t : σ} {b : β} :
    exec (x >>= f) s = (.ok b, t) ↔ ∃ a u, exec x s = (.ok a, u) ∧ exec (f a) u = (.ok b, t) := by
  rw [exec_bind]
  rcases exec x s with ⟨_ | a, u⟩
  · simp
  · constructor
    · intro h
      exact ⟨a, u, rfl, h⟩
    · rintro ⟨a', u', heq, h⟩
      cases heq
      exact h

/-! ## Ignored errors -/

/-- An operation whose refusal is ignored; what it wrote before stays written. -/
def attempt (x : Effect σ ε Unit) : Effect σ ε Unit :=
  ExceptT.mk fun s => match exec x s with
    | (.error (.refuse _), t) => (.ok (), t)
    | (r, t) => (r, t)

theorem exec_attempt (x : Effect σ ε Unit) (s : σ) :
    exec (attempt x) s = match exec x s with
      | (.error (.refuse _), t) => (.ok (), t)
      | (r, t) => (r, t) := rfl

/-! ## Transactions -/

/-- An operation whose writes are undone when it fails. -/
def transaction (x : Effect σ ε α) : Effect σ ε α :=
  ExceptT.mk fun s => match exec x s with
    | (.ok a, t) => (.ok a, t)
    | (.error e, _) => (.error e, s)

/-- A transaction ends like its operation, in the state it started from when it fails. -/
theorem exec_transaction (x : Effect σ ε α) (s : σ) :
    exec (transaction x) s = match exec x s with
      | (.ok a, t) => (.ok a, t)
      | (.error e, _) => (.error e, s) := rfl

theorem eq_of_exec_transaction_error {x : Effect σ ε α} {s t : σ} {e : Fault ε}
    (h : exec (transaction x) s = (.error e, t)) : t = s := by
  rw [exec_transaction] at h
  rcases hx : exec x s with ⟨_ | a, u⟩
  · simp only [hx, Prod.mk.injEq] at h
    exact h.2.symm
  · simp only [hx, Prod.mk.injEq, reduceCtorEq, false_and] at h

end Effect

end ValidatingSigner.Base
