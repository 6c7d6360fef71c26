import Vls.Enforcement.Secrets

/-!
# Forty-nine slots are enough

Secrets are provided at consecutive indices, from the highest one down.  Whatever the secrets are,
the store returns each of them as long as it has accepted all of them, and it accepts all of them
when they are derived from one seed.
-/

namespace ValidatingSigner.CounterpartyCommitmentSecrets

open Base List

/-- Provide secrets one after the other, at the indices below `low`. -/
def provideAll (sha256 : Bytes32 → Bytes32) (s : CounterpartyCommitmentSecrets) :
    Nat → List Bytes32 → Except Unit CounterpartyCommitmentSecrets
  | _, [] => .ok s
  | low, secret :: secrets => do
    let s ← s.provideSecret sha256 (low - 1) secret
    s.provideAll sha256 (low - 1) secrets

/-- The secrets of a seed at the `n` indices below `low`, from the highest one down. -/
def seedSecrets (sha256 : Bytes32 → Bytes32) (seed : Bytes32) (low n : Nat) : List Bytes32 :=
  (List.range n).map fun k => deriveSecret sha256 seed 48 (low - 1 - k)

section Run

variable {sha256 : Bytes32 → Bytes32} {s s' : CounterpartyCommitmentSecrets} {low : Nat}
  {known : Nat → Bytes32} {secrets : List Bytes32}

/-- The secrets that are known once more of them have been provided. -/
def provided (known : Nat → Bytes32) (low : Nat) (secrets : List Bytes32) (j : Nat) : Bytes32 :=
  if j < low then secrets.getD (low - 1 - j) (known j) else known j

theorem provided_nil (known : Nat → Bytes32) (low : Nat) : provided known low [] = known := by
  funext j
  rw [provided, getD_nil, ite_self]

theorem provided_cons (known : Nat → Bytes32) (idx : Nat) (secret : Bytes32)
    (secrets : List Bytes32) :
    provided known (idx + 1) (secret :: secrets) =
      provided (Function.update known idx secret) idx secrets := by
  funext j
  rw [provided, provided]
  rcases Nat.lt_trichotomy j idx with hj | rfl | hj
  · rw [if_pos (by omega), if_pos hj, Function.update_of_ne (Nat.ne_of_lt hj),
      show idx + 1 - 1 - j = idx - 1 - j + 1 by omega, getD_cons_succ]
  · rw [if_pos (Nat.lt_succ_self j), if_neg (Nat.lt_irrefl j), Function.update_self,
      show j + 1 - 1 - j = 0 by omega, getD_cons_zero]
  · rw [if_neg (by omega), if_neg (by omega), Function.update_of_ne (Nat.ne_of_gt hj)]

/-- A store that accepts secrets at the next indices holds them too. -/
theorem Holds.provideAll (h : Holds sha256 s low known) (hlength : secrets.length ≤ low)
    (hs : s.provideAll sha256 low secrets = .ok s') :
    Holds sha256 s' (low - secrets.length) (provided known low secrets) := by
  induction secrets generalizing s low known with
  | nil =>
    cases hs
    rw [provided_nil]
    exact h
  | cons secret secrets ih =>
    obtain ⟨idx, rfl⟩ : ∃ idx, low = idx + 1 := ⟨low - 1, by simp at hlength; omega⟩
    rw [length_cons, Nat.add_le_add_iff_right] at hlength
    unfold CounterpartyCommitmentSecrets.provideAll at hs
    cases hfirst : s.provideSecret sha256 idx secret with
    | error e => simp [hfirst, Bind.bind, Except.bind] at hs
    | ok s₁ =>
      simp only [Nat.add_sub_cancel, hfirst, Bind.bind, Except.bind] at hs
      rw [length_cons, Nat.add_sub_add_right, provided_cons]
      exact ih (h.provideSecret_next hfirst) hlength hs

/-- Below the indices it holds a store returns nothing. -/
theorem Holds.getSecret_of_lt (h : Holds sha256 s low known) {idx : Nat} (hidx : idx < low) :
    s.getSecret sha256 idx = .ok none := by
  have hnone : ((finRange 49).find? fun i : Fin 49 =>
      clearLow i idx == (s.oldSecrets i).2) = none := by
    rw [find?_eq_none]
    intro i _
    have hle := clearLow_le i idx
    have hbound := h.bound i
    rw [beq_iff_eq]
    omega
  have hmin : idx < s.getMinSeenSecret := by
    rw [h.getMinSeenSecret_eq]
    exact hidx
  rw [getSecret, hnone]
  exact bind_eq_ok.mpr ⟨(), assert_eq_ok.mpr hmin, rfl⟩

end Run

/-! ## Secrets of one seed -/

section Seed

variable {sha256 : Bytes32 → Bytes32} {seed : Bytes32} {s : CounterpartyCommitmentSecrets}
  {idx : Nat} {i : Fin 49} {known : Nat → Bytes32}

/-- Below the slot of an index the bits of the indices right above it are those of the distance. -/
theorem testBit_add {pos j d : Nat} (hclear : clearLow pos idx = idx) (hd : d < 2 ^ pos)
    (hj : j < pos) : (idx + d).testBit j = d.testBit j := by
  rw [clearLow_eq] at hclear
  rw [← hclear, Nat.mul_comm, Nat.testBit_two_pow_mul_add _ hd, if_pos hj]

theorem clearLow_add {pos d : Nat} (hclear : clearLow pos idx = idx) (hd : d < 2 ^ pos) :
    clearLow pos (idx + d) = idx := by
  rw [clearLow_eq] at hclear ⊢
  generalize idx / 2 ^ pos = q at hclear
  rw [← hclear, Nat.add_comm, Nat.add_mul_div_right _ _ (Nat.two_pow_pos _), Nat.div_eq_of_lt hd,
    Nat.zero_add]

theorem clearLow_placeSecret (idx : Nat) : clearLow (placeSecret idx) idx = idx := by
  apply Nat.eq_of_testBit_eq
  intro j
  rw [testBit_clearLow]
  by_cases hj : (placeSecret idx : Nat) ≤ j
  · rw [decide_eq_true hj, Bool.true_and]
  · rw [decide_eq_false hj, Bool.false_and]
    exact (testBit_of_lt_lowestBit (Nat.lt_of_not_le hj)).symm

/-- The distance from an index to those that are derived from it. -/
theorem two_pow_lt (hi : i < placeSecret idx) : 2 ^ (i : Nat) < 2 ^ (placeSecret idx : Nat) :=
  Nat.pow_lt_pow_right (by decide) hi

theorem placeSecret_add (hi : i < placeSecret idx) : placeSecret (idx + 2 ^ (i : Nat)) = i := by
  have hclear := clearLow_placeSecret idx
  have hpos := lowestBit_le 48 idx
  have hi' : (i : Nat) < placeSecret idx := hi
  apply Fin.ext
  refine lowestBit_eq (by omega) ?_ ?_
  · rw [testBit_add hclear (two_pow_lt hi) hi', Nat.testBit_two_pow_self]
  · intro j hj
    rw [testBit_add hclear (two_pow_lt hi) (by omega), Nat.testBit_two_pow_of_ne (by omega)]

/-- The indices between have lower slots. -/
theorem placeSecret_ne (hi : i < placeSecret idx) {c : Nat} (hlow : idx < c)
    (hc : c < idx + 2 ^ (i : Nat)) : placeSecret c ≠ i := by
  have hpos := lowestBit_le 48 idx
  have hi' : (i : Nat) < placeSecret idx := hi
  have hd : c - idx < 2 ^ (i : Nat) := by omega
  intro hplace
  have hplace' : lowestBit 48 c = i := congrArg Fin.val hplace
  have hset : c.testBit (lowestBit 48 c) = true := testBit_lowestBit (by omega)
  rw [hplace', show c = idx + (c - idx) by omega,
    testBit_add (clearLow_placeSecret idx) (hd.trans (two_pow_lt hi)) hi',
    Nat.testBit_lt_two_pow hd] at hset
  cases hset

theorem add_two_pow_lt (hidx : idx < 2 ^ 48) (hi : i < placeSecret idx) :
    idx + 2 ^ (i : Nat) < 2 ^ 48 := by
  have hclear := clearLow_placeSecret idx
  rw [clearLow_eq] at hclear
  have hpow := two_pow_lt hi
  have hpos : (placeSecret idx : Nat) ≤ 48 := lowestBit_le 48 idx
  obtain ⟨d, hd⟩ := Nat.exists_eq_add_of_le hpos
  have hsplit : 2 ^ 48 = 2 ^ d * 2 ^ (placeSecret idx : Nat) := by
    rw [← pow_add, Nat.add_comm, ← hd]
  have hquot : idx / 2 ^ (placeSecret idx : Nat) < 2 ^ d := by
    refine Nat.lt_of_mul_lt_mul_right (a := 2 ^ (placeSecret idx : Nat)) ?_
    rw [hclear, ← hsplit]
    exact hidx
  calc idx + 2 ^ (i : Nat) < idx + 2 ^ (placeSecret idx : Nat) := Nat.add_lt_add_left hpow idx
    _ = (idx / 2 ^ (placeSecret idx : Nat) + 1) * 2 ^ (placeSecret idx : Nat) := by
      rw [Nat.add_mul, Nat.one_mul, hclear]
    _ ≤ 2 ^ 48 := by
      rw [hsplit]
      exact Nat.mul_le_mul_right _ hquot

/-- A secret of the seed derives what a store with the later secrets of the seed holds below. -/
theorem Holds.chains_of_seed (h : Holds sha256 s (idx + 1) known) (hidx : idx < 2 ^ 48)
    (hknown : ∀ j, idx < j → j < 2 ^ 48 → known j = deriveSecret sha256 seed 48 j) :
    s.Chains sha256 idx (deriveSecret sha256 seed 48 idx) := by
  intro i hi
  have hi' : (i : Nat) < placeSecret idx := hi
  have hpos : (placeSecret idx : Nat) ≤ 48 := lowestBit_le 48 idx
  have hlt := add_two_pow_lt hidx hi
  have hplace := placeSecret_add hi
  have hgt : idx < idx + 2 ^ (i : Nat) := Nat.lt_add_of_pos_right (Nat.two_pow_pos _)
  have hslot : (s.oldSecrets i).2 = idx + 2 ^ (i : Nat) := by
    have hleast := h.least (idx + 2 ^ (i : Nat)) hgt hlt
    rw [hplace] at hleast
    exact hleast fun c hlow hc => placeSecret_ne hi hlow hc
  have hself : (s.oldSecrets i).1 = known (idx + 2 ^ (i : Nat)) := by
    have hclear : clearLow i (idx + 2 ^ (i : Nat)) = idx + 2 ^ (i : Nat) := by
      have := clearLow_placeSecret (idx + 2 ^ (i : Nat))
      rwa [hplace] at this
    rw [← h.derives i _ hgt hlt (hclear.trans hslot.symm)]
    refine (derive_of_clear _ (fun k hk => ?_) _).symm
    have hlow : lowestBit 48 (idx + 2 ^ (i : Nat)) = i := congrArg Fin.val hplace
    exact testBit_of_lt_lowestBit (hlow.symm ▸ hk)
  rw [hself, hslot, hknown _ hgt hlt]
  have hsplit := derive_split (fun bitpos res => sha256 (flipBit bitpos res)) hpos
    (idx + 2 ^ (i : Nat)) seed
  rw [clearLow_add (clearLow_placeSecret idx) (two_pow_lt hi)] at hsplit
  exact hsplit.symm

theorem seedSecrets_succ (sha256 : Bytes32 → Bytes32) (seed : Bytes32) (idx n : Nat) :
    seedSecrets sha256 seed (idx + 1) (n + 1) =
      deriveSecret sha256 seed 48 idx :: seedSecrets sha256 seed idx n := by
  rw [seedSecrets, range_succ_eq_map, map_cons, map_map]
  congr 1
  refine map_congr_left fun k _ => ?_
  rw [Function.comp_apply, show idx + 1 - 1 - k.succ = idx - 1 - k by omega]

/-- A store with the later secrets of a seed accepts the next ones. -/
theorem Holds.exists_provideAll {low n : Nat} (h : Holds sha256 s low known) (hn : n ≤ low)
    (hknown : ∀ j, low ≤ j → j < 2 ^ 48 → known j = deriveSecret sha256 seed 48 j) :
    ∃ s', s.provideAll sha256 low (seedSecrets sha256 seed low n) = .ok s' := by
  induction n generalizing s low known with
  | zero => exact ⟨s, rfl⟩
  | succ n ih =>
    obtain ⟨idx, rfl⟩ : ∃ idx, low = idx + 1 := ⟨low - 1, by omega⟩
    have hidx : idx < 2 ^ 48 := h.low_le
    have hchains := h.chains_of_seed hidx hknown
    have hmin : idx < s.getMinSeenSecret := by
      rw [h.getMinSeenSecret_eq]
      exact Nat.lt_succ_self idx
    obtain ⟨s₁, hfirst, -⟩ := provideSecret_changed_iff.mpr ⟨hchains, hmin⟩
    obtain ⟨s', hrest⟩ := ih (h.provideSecret_next hfirst) (Nat.le_of_succ_le_succ hn) (by
      intro j hj hj'
      rcases Nat.eq_or_lt_of_le hj with rfl | hj
      · rw [Function.update_self]
      · rw [Function.update_of_ne (Nat.ne_of_gt hj)]
        exact hknown j hj hj')
    refine ⟨s', ?_⟩
    rw [seedSecrets_succ, CounterpartyCommitmentSecrets.provideAll, Nat.add_sub_cancel, hfirst]
    exact hrest

end Seed

/-! ## Every sequence -/

/-- A store that has accepted secrets at consecutive indices returns exactly these, and nothing for
the indices below; it accepts all secrets of a seed. -/
theorem stored_secrets_exact (sha256 : Bytes32 → Bytes32) (secrets : List Bytes32)
    (hlength : secrets.length ≤ 2 ^ 48) :
    (∀ s, new.provideAll sha256 (2 ^ 48) secrets = .ok s →
      (∀ j, 2 ^ 48 - secrets.length ≤ j → j < 2 ^ 48 →
        s.getSecret sha256 j = .ok secrets[2 ^ 48 - 1 - j]?) ∧
      ∀ j < 2 ^ 48 - secrets.length, s.getSecret sha256 j = .ok none) ∧
    ((∃ seed, secrets = seedSecrets sha256 seed (2 ^ 48) secrets.length) →
      ∃ s, new.provideAll sha256 (2 ^ 48) secrets = .ok s) := by
  constructor
  · intro s hs
    have hempty : Holds sha256 new (2 ^ 48) fun _ => 0 := holds_new _
    have hholds := hempty.provideAll hlength hs
    refine ⟨fun j hlow hj => ?_, fun j hj => hholds.getSecret_of_lt hj⟩
    have hget : 2 ^ 48 - 1 - j < secrets.length := by omega
    rw [hholds.getSecret_eq hlow hj, provided, if_pos hj, getD_eq_getElem?_getD,
      getElem?_eq_getElem hget, Option.getD_some]
  · rintro ⟨seed, hseed⟩
    rw [hseed]
    have hempty : Holds sha256 new (2 ^ 48) fun _ => 0 := holds_new _
    exact hempty.exists_provideAll hlength fun j hj hj' =>
      absurd hj (Nat.not_le.mpr hj')

/-- With complementing for hashing, two secrets of a seed are accepted, the first is returned, and
nothing is returned below them. -/
theorem stored_secrets_exact_two :
    ∃ s, new.provideAll (fun bytes => ~~~bytes) (2 ^ 48)
        (seedSecrets (fun bytes => ~~~bytes) 7 (2 ^ 48) 2) = .ok s ∧
      s.getSecret (fun bytes => ~~~bytes) (2 ^ 48 - 1) =
        .ok (some (deriveSecret (fun bytes => ~~~bytes) 7 48 (2 ^ 48 - 1))) ∧
      s.getSecret (fun bytes => ~~~bytes) (2 ^ 48 - 3) = .ok none := by
  have hlength : (seedSecrets (fun bytes => ~~~bytes) 7 (2 ^ 48) 2).length = 2 := rfl
  obtain ⟨hexact, hseed⟩ := stored_secrets_exact (fun bytes => ~~~bytes)
    (seedSecrets (fun bytes => ~~~bytes) 7 (2 ^ 48) 2) (by rw [hlength]; decide)
  obtain ⟨s, hs⟩ := hseed ⟨7, rfl⟩
  obtain ⟨hheld, hbelow⟩ := hexact s hs
  exact ⟨s, hs, hheld _ (by rw [hlength]; decide) (by decide), hbelow _ (by rw [hlength]; decide)⟩

end ValidatingSigner.CounterpartyCommitmentSecrets
