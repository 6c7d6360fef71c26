import Mathlib.Data.Nat.Bitwise
import Mathlib.Data.Nat.Find

/-!
# Secrets derived along the bits of their index

A secret at index `n` yields the secrets of every index that agrees with `n` above some position:
walk down the low bits of the wanted index and apply one hashing step for each bit that is set.  The
index at the lowest set bit of which a secret is kept decides the slot it is stored in, and for
every set of consecutive indices the slots cover all of them.
-/

namespace ValidatingSigner.Base

open List

/-! ## Derivation -/

variable {index : ℕ}

section Derive

variable {S : Type*} (child : ℕ → S → S)

/-- Walk down the `bits` low bits of `index`, applying `child` at each set bit. -/
def derive : ℕ → ℕ → S → S
  | 0, _, secret => secret
  | bits + 1, index, secret =>
    derive bits index (if index.testBit bits then child bits secret else secret)

/-- The index with its `bits` low bits cleared. -/
def clearLow (bits index : ℕ) : ℕ := (index >>> bits) <<< bits

theorem clearLow_eq (bits index : ℕ) : clearLow bits index = index / 2 ^ bits * 2 ^ bits := by
  rw [clearLow, Nat.shiftRight_eq_div_pow, Nat.shiftLeft_eq]

theorem testBit_clearLow (bits index i : ℕ) :
    (clearLow bits index).testBit i = (decide (bits ≤ i) && index.testBit i) := by
  rw [clearLow, Nat.testBit_shiftLeft, Nat.testBit_shiftRight]
  by_cases h : bits ≤ i
  · simp [h]
  · simp [h]

theorem clearLow_le (bits index : ℕ) : clearLow bits index ≤ index := by
  rw [clearLow_eq]
  exact Nat.div_mul_le_self index (2 ^ bits)

@[simp] theorem clearLow_zero (index : ℕ) : clearLow 0 index = index := by
  simp [clearLow_eq]

theorem clearLow_anti {i j : ℕ} (h : i ≤ j) (index : ℕ) : clearLow j index ≤ clearLow i index := by
  obtain ⟨d, rfl⟩ := Nat.exists_eq_add_of_le h
  have hpow : (2 : ℕ) ^ (i + d) = 2 ^ d * 2 ^ i := by rw [Nat.add_comm, pow_add]
  rw [clearLow_eq, clearLow_eq, hpow, Nat.mul_comm (2 ^ d) (2 ^ i), ← Nat.div_div_eq_div_mul,
    Nat.mul_comm (2 ^ i) (2 ^ d), ← Nat.mul_assoc]
  exact Nat.mul_le_mul_right _ (Nat.div_mul_le_self _ _)

/-- An index whose low bits are clear derives the secret itself. -/
theorem derive_of_clear {bits : ℕ} (h : ∀ i < bits, index.testBit i = false) (secret : S) :
    derive child bits index secret = secret := by
  induction bits generalizing secret with
  | zero => rfl
  | succ bits ih =>
    rw [derive, h bits (Nat.lt_succ_self bits), if_neg Bool.false_ne_true]
    exact ih (fun i hi => h i (Nat.lt_succ_of_lt hi)) secret

/-- A derivation splits at every position into its high part and its low part. -/
theorem derive_split {low bits : ℕ} (h : low ≤ bits) (index : ℕ) (secret : S) :
    derive child bits index secret =
      derive child low index (derive child bits (clearLow low index) secret) := by
  induction bits, h using Nat.le_induction generalizing secret with
  | base =>
    have hclear : ∀ i < low, (clearLow low index).testBit i = false := by
      intro i hi
      rw [testBit_clearLow, decide_eq_false (Nat.not_le.mpr hi), Bool.false_and]
    rw [derive_of_clear child hclear]
  | succ bits hle ih =>
    rw [derive, derive, testBit_clearLow, decide_eq_true hle, Bool.true_and]
    exact ih _

end Derive

/-! ## Slots -/

variable {depth : ℕ}

/-- The position of the lowest set bit of `index` below `depth`, or `depth` when there is none. -/
def lowestBit (depth index : ℕ) : ℕ := ((List.range depth).find? index.testBit).getD depth

theorem lowestBit_le (depth index : ℕ) : lowestBit depth index ≤ depth := by
  rw [lowestBit]
  cases h : (range depth).find? index.testBit with
  | none => exact le_refl depth
  | some i =>
    have hi := mem_range.mp (mem_of_find?_eq_some h)
    exact Nat.le_of_lt hi

theorem testBit_of_lt_lowestBit {i : ℕ} (h : i < lowestBit depth index) :
    index.testBit i = false := by
  have hi : i < depth := Nat.lt_of_lt_of_le h (lowestBit_le depth index)
  rw [lowestBit] at h
  cases hf : (range depth).find? index.testBit with
  | none =>
    have := find?_eq_none.mp hf i (mem_range.mpr hi)
    simpa using this
  | some j =>
    rw [hf, Option.getD_some] at h
    rw [find?_range_eq_some] at hf
    simpa using hf.2.2 i h

theorem testBit_lowestBit (h : lowestBit depth index < depth) :
    index.testBit (lowestBit depth index) = true := by
  rw [lowestBit] at h ⊢
  cases hf : (range depth).find? index.testBit with
  | none =>
    rw [hf] at h
    exact absurd h (lt_irrefl depth)
  | some j =>
    rw [find?_range_eq_some] at hf
    exact hf.1

/-- An index with bit `i` set and every lower bit clear belongs to slot `i`. -/
theorem lowestBit_eq {i : ℕ} (hi : i < depth) (hbit : index.testBit i = true)
    (hlow : ∀ j < i, index.testBit j = false) : lowestBit depth index = i := by
  have hsome : (range depth).find? index.testBit = some i := by
    rw [find?_range_eq_some]
    exact ⟨hbit, mem_range.mpr hi, fun j hj => by simp [hlow j hj]⟩
  rw [lowestBit, hsome, Option.getD_some]

theorem lowestBit_zero (depth : ℕ) : lowestBit depth 0 = depth := by
  have hnone : (range depth).find? (Nat.testBit 0) = none := by simp
  rw [lowestBit, hnone, Option.getD_none]

/-- An index of slot `i` is an odd multiple of `2 ^ i`. -/
theorem index_eq_of_lowestBit (h : lowestBit depth index < depth) :
    index = (2 * (index / 2 ^ (lowestBit depth index + 1)) + 1) * 2 ^ lowestBit depth index := by
  set i := lowestBit depth index with hi
  have hodd (a k : ℕ) : (2 * a + 1).testBit (k + 1) = a.testBit k := by
    rw [Nat.testBit_succ]
    congr 1
    omega
  apply Nat.eq_of_testBit_eq
  intro j
  rw [← Nat.shiftLeft_eq, Nat.testBit_shiftLeft]
  rcases lt_trichotomy j i with hj | rfl | hj
  · rw [testBit_of_lt_lowestBit (hi ▸ hj), decide_eq_false (by omega), Bool.false_and]
  · rw [testBit_lowestBit (hi ▸ h)]
    simp
  · obtain ⟨k, rfl⟩ := Nat.exists_eq_add_of_lt hj
    rw [decide_eq_true (by omega), Bool.true_and, show i + k + 1 - i = k + 1 by omega, hodd,
      ← Nat.shiftRight_eq_div_pow, Nat.testBit_shiftRight]
    congr 1
    omega

/-- Two indices of one slot are further apart than the bits below the slot. -/
theorem le_clearLow_of_lowestBit_eq {i c d : ℕ} (hi : i < depth) (hc : lowestBit depth c = i)
    (hd : lowestBit depth d = i) (hlt : c < d) : c ≤ clearLow (i + 1) d := by
  have h₁ := index_eq_of_lowestBit (hc.symm ▸ hi : lowestBit depth c < depth)
  have h₂ := index_eq_of_lowestBit (hd.symm ▸ hi : lowestBit depth d < depth)
  rw [hc] at h₁
  rw [hd] at h₂
  rw [clearLow_eq]
  generalize c / 2 ^ (i + 1) = q at h₁
  generalize d / 2 ^ (i + 1) = q' at h₂ ⊢
  have hq : q < q' := by
    by_contra hcon
    have := Nat.mul_le_mul_right (2 ^ i) (show 2 * q' + 1 ≤ 2 * q + 1 by omega)
    omega
  calc c = (2 * q + 1) * 2 ^ i := h₁
    _ ≤ 2 * q' * 2 ^ i := Nat.mul_le_mul_right _ (by omega)
    _ = q' * 2 ^ (i + 1) := by rw [pow_succ', Nat.mul_comm 2 q', Nat.mul_assoc]

/-- A clear bit is not lost by clearing it. -/
theorem clearLow_succ_of_testBit {i : ℕ} (h : index.testBit i = false) :
    clearLow (i + 1) index = clearLow i index := by
  apply Nat.eq_of_testBit_eq
  intro j
  rw [testBit_clearLow, testBit_clearLow]
  rcases Nat.lt_trichotomy i j with hj | rfl | hj
  · rw [decide_eq_true (by omega), decide_eq_true (by omega)]
  · simp [h]
  · rw [decide_eq_false (by omega), decide_eq_false (by omega)]

theorem clearLow_succ_clearLow (i index : ℕ) :
    clearLow (i + 1) (clearLow i index) = clearLow (i + 1) index := by
  apply Nat.eq_of_testBit_eq
  intro j
  simp only [testBit_clearLow]
  by_cases h : i + 1 ≤ j
  · rw [decide_eq_true (show i ≤ j by omega), Bool.true_and]
  · rw [decide_eq_false h, Bool.false_and, Bool.false_and]

/-- Every index from `low` on is derived from the smallest index of some slot that is not below
`low`. -/
theorem exists_slot {low : ℕ} (hlow : low ≤ index) (hindex : index < 2 ^ depth) :
    ∃ i ≤ depth, low ≤ clearLow i index ∧ lowestBit depth (clearLow i index) = i ∧
      ∀ c, low ≤ c → c < clearLow i index → lowestBit depth c ≠ i := by
  classical
  set i := Nat.findGreatest (fun i => low ≤ clearLow i index) depth
  have hP : low ≤ clearLow i index :=
    Nat.findGreatest_spec (P := fun i => low ≤ clearLow i index) (Nat.zero_le depth)
      (by simpa using hlow)
  have hle : i ≤ depth := Nat.findGreatest_le depth
  refine ⟨i, hle, hP, ?_⟩
  rcases Nat.lt_or_ge i depth with hlt | hge
  · have hnext : clearLow (i + 1) index < low := by
      refine Nat.lt_of_not_le fun hcon => ?_
      exact Nat.findGreatest_is_greatest (n := depth) (Nat.lt_succ_self i) hlt hcon
    have hbit : index.testBit i = true := by
      by_contra hcon
      have := clearLow_succ_of_testBit (Bool.not_eq_true _ ▸ hcon)
      omega
    have hslot : lowestBit depth (clearLow i index) = i := by
      refine lowestBit_eq hlt ?_ fun j hj => ?_
      · rw [testBit_clearLow, hbit]
        simp
      · rw [testBit_clearLow, decide_eq_false (by omega), Bool.false_and]
    refine ⟨hslot, fun c hc hcl hcon => ?_⟩
    have hfar := le_clearLow_of_lowestBit_eq hlt hcon hslot hcl
    rw [clearLow_succ_clearLow] at hfar
    omega
  · have hdepth : i = depth := le_antisymm hle hge
    have hzero : clearLow i index = 0 := by
      rw [hdepth, clearLow_eq, Nat.div_eq_of_lt hindex, Nat.zero_mul]
    rw [hzero, hdepth]
    exact ⟨lowestBit_zero depth, fun c _ hc => absurd hc (Nat.not_lt_zero c)⟩

end ValidatingSigner.Base
