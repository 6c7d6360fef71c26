import Mathlib.Algebra.GroupWithZero.Nat
import Mathlib.Algebra.Order.BigOperators.Group.List
import Mathlib.Algebra.Order.Group.Nat
import Mathlib.Data.List.Range

/-!
# Sums over a sliding window

A log records amounts, each in a numbered slot.  The window of `n` slots that ends at slot `K` holds
slots `K - n + 1` to `K`.  `tally` lists what the newest slots hold, newest first, and says what
becomes of it when time moves on and when an amount is added.
-/

namespace ValidatingSigner.Base

open List

namespace Window

/-- What the log holds in slot `k`. -/
def recorded (log : List (Nat × Nat)) (k : Nat) : Nat :=
  (log.map fun e => if e.1 = k then e.2 else 0).sum

/-- What the log holds in the window of `n` slots that ends at slot `K`. -/
def within (log : List (Nat × Nat)) (n K : Nat) : Nat :=
  (log.map fun e => if e.1 ≤ K ∧ K < e.1 + n then e.2 else 0).sum

/-- What the log holds in the `n` slots up to slot `S`, newest first. -/
def tally (log : List (Nat × Nat)) (n S : Nat) : List Nat :=
  (List.range n).map fun j => if j ≤ S then recorded log (S - j) else 0

variable {log : List (Nat × Nat)} {n S T K a : Nat}

@[simp] theorem length_tally (log : List (Nat × Nat)) (n S : Nat) : (tally log n S).length = n := by
  simp [tally]

theorem tally_nil (n S : Nat) : tally [] n S = replicate n 0 := by
  refine eq_replicate_iff.mpr ⟨length_tally [] n S, ?_⟩
  intro b hb
  obtain ⟨j, -, rfl⟩ := mem_map.mp hb
  split_ifs
  · rfl
  · rfl

theorem recorded_append (log : List (Nat × Nat)) (k a j : Nat) :
    recorded (log ++ [(k, a)]) j = recorded log j + if k = j then a else 0 := by
  simp [recorded]

theorem within_append (log : List (Nat × Nat)) (n k a K : Nat) :
    within (log ++ [(k, a)]) n K = within log n K + if k ≤ K ∧ K < k + n then a else 0 := by
  simp [within]

theorem recorded_of_lt (hlog : ∀ e ∈ log, e.1 ≤ S) (h : S < K) : recorded log K = 0 := by
  refine sum_eq_zero ?_
  intro x hx
  obtain ⟨e, he, rfl⟩ := mem_map.mp hx
  have hle := hlog e he
  exact if_neg (by omega)

/-- A later window holds no more than the one that ends at the newest slot. -/
theorem within_le (hlog : ∀ e ∈ log, e.1 ≤ S) (hK : S ≤ K) : within log n K ≤ within log n S := by
  refine sum_le_sum ?_
  intro e he
  have hle := hlog e he
  by_cases hwindow : e.1 ≤ K ∧ K < e.1 + n
  · rw [if_pos hwindow, if_pos (by omega)]
  · rw [if_neg hwindow]
    exact Nat.zero_le _

theorem sum_range_ite (n i a : Nat) :
    ((range n).map fun j => if j = i then a else 0).sum = if i < n then a else 0 := by
  induction n with
  | zero => rfl
  | succ n ih =>
    rw [range_succ, map_append, sum_append, ih, map_singleton,
      sum_singleton]
    split_ifs
    all_goals omega

/-- The tally sums up the window that ends at its newest slot. -/
theorem sum_tally (hlog : ∀ e ∈ log, e.1 ≤ S) : (tally log n S).sum = within log n S := by
  induction log using reverseRecOn with
  | nil =>
    rw [tally_nil, sum_replicate]
    rfl
  | append_singleton log e ih =>
    obtain ⟨k, a⟩ := e
    have hk : k ≤ S := hlog (k, a) mem_concat_self
    have hrest := ih fun e he => hlog e (mem_append_left _ he)
    have hslot (j : Nat) : (if j ≤ S then recorded (log ++ [(k, a)]) (S - j) else 0) =
        (if j ≤ S then recorded log (S - j) else 0) + if j = S - k then a else 0 := by
      rw [recorded_append]
      by_cases hj : j ≤ S
      · rw [if_pos hj, if_pos hj]
        congr 1
        by_cases hjk : k = S - j
        · rw [if_pos hjk, if_pos (by omega)]
        · rw [if_neg hjk, if_neg (by omega)]
      · rw [if_neg hj, if_neg hj, if_neg (by omega)]
    unfold tally at hrest ⊢
    rw [within_append, ← hrest, map_congr_left fun j _ => hslot j, sum_map_add]
    congr 1
    rw [sum_range_ite]
    by_cases hwindow : S - k < n
    · rw [if_pos hwindow, if_pos (by omega)]
    · rw [if_neg hwindow, if_neg (by omega)]

/-- The tally at a later slot: the newest slots are empty and the oldest are dropped. -/
theorem tally_shift (hlog : ∀ e ∈ log, e.1 ≤ S) (hT : S ≤ T) :
    tally log n T = replicate (min n (T - S)) 0 ++
      (tally log n S).take (n - min n (T - S)) := by
  refine ext_getElem ?_ ?_
  · simp
  · intro j hj hj'
    rw [length_tally] at hj
    rw [getElem_append]
    simp only [tally, getElem_map, getElem_range, length_replicate,
      getElem_replicate, getElem_take]
    split_ifs with hjT hjd hle hle
    · exact recorded_of_lt hlog (by omega)
    · congr 1
      omega
    · omega
    · rfl
    · omega
    · rfl

/-- Adding an amount to the newest slot. -/
theorem tally_append (log : List (Nat × Nat)) (n S a : Nat) :
    tally (log ++ [(S, a)]) n S = (tally log n S).modifyHead (· + a) := by
  refine ext_getElem ?_ ?_
  · simp
  · intro j hj hj'
    rw [length_tally] at hj
    rw [getElem_modifyHead]
    simp only [tally, getElem_map, getElem_range, recorded_append]
    by_cases hzero : j = 0
    · subst hzero
      simp
    · rw [dif_neg hzero]
      split_ifs
      all_goals omega

end Window

end ValidatingSigner.Base
