import Vls.Base.SecretTree
import Vls.Policy.Policy

/-!
# Storage of the counterparty's revocation secrets

Forty-nine slots hold enough secrets to derive every secret the counterparty has revealed.  `Holds`
says what a store built from consecutive indices knows; storing the next secret keeps it, and a
store that holds an index returns exactly the secret provided for it.
-/

namespace ValidatingSigner

open Base List

/-- The forty-nine slots of revealed secrets, each with the index its secret was provided for. -/
structure CounterpartyCommitmentSecrets where
  oldSecrets : Fin 49 → Bytes32 × Nat
  deriving DecidableEq

namespace CounterpartyCommitmentSecrets

/-- The empty store. -/
def new : CounterpartyCommitmentSecrets := ⟨fun _ => (0, 2 ^ 48)⟩

/-- The slot of an index: the position of its lowest set bit. -/
def placeSecret (idx : Nat) : Fin 49 :=
  ⟨lowestBit 48 idx, Nat.lt_succ_of_le (lowestBit_le 48 idx)⟩

/-- The smallest index stored. -/
def getMinSeenSecret (s : CounterpartyCommitmentSecrets) : Nat :=
  (List.finRange 49).foldl
    (fun min i => if (s.oldSecrets i).2 < min then (s.oldSecrets i).2 else min) (2 ^ 48)

/-- Flip bit `bitpos & 7` of byte `bitpos / 8`. -/
def flipBit (bitpos : Nat) (bytes : Bytes32) : Bytes32 :=
  bytes ^^^ (1#256 <<< (8 * (31 - bitpos / 8) + bitpos % 8))

/-- The secret at `idx` derived from a secret `bits` levels above it. -/
def deriveSecret (sha256 : Bytes32 → Bytes32) (secret : Bytes32) (bits idx : Nat) : Bytes32 :=
  derive (fun bitpos res => sha256 (flipBit bitpos res)) bits idx secret

/-- The store with slot `pos` overwritten. -/
def setSlot (s : CounterpartyCommitmentSecrets) (pos : Fin 49) (entry : Bytes32 × Nat) :
    CounterpartyCommitmentSecrets := ⟨Function.update s.oldSecrets pos entry⟩

theorem setSlot_self (s : CounterpartyCommitmentSecrets) (pos : Fin 49) (entry : Bytes32 × Nat) :
    (s.setSlot pos entry).oldSecrets pos = entry := Function.update_self ..

theorem setSlot_of_ne (s : CounterpartyCommitmentSecrets) {pos i : Fin 49} (h : i ≠ pos)
    (entry : Bytes32 × Nat) : (s.setSlot pos entry).oldSecrets i = s.oldSecrets i :=
  Function.update_of_ne h ..

/-- Store the secret at `idx`, unless it fails to derive a secret stored below its slot. -/
def provideSecret (sha256 : Bytes32 → Bytes32) (s : CounterpartyCommitmentSecrets) (idx : Nat)
    (secret : Bytes32) : Except Unit CounterpartyCommitmentSecrets :=
  let pos := placeSecret idx
  if ∀ i : Fin 49, i < pos →
      deriveSecret sha256 secret pos (s.oldSecrets i).2 = (s.oldSecrets i).1 then
    if s.getMinSeenSecret ≤ idx then .ok s else .ok (s.setSlot pos (secret, idx))
  else .error ()

/-- The secret derives every secret stored below the slot of its index. -/
def Chains (sha256 : Bytes32 → Bytes32) (s : CounterpartyCommitmentSecrets) (idx : Nat)
    (secret : Bytes32) : Prop :=
  ∀ i : Fin 49, i < placeSecret idx →
    deriveSecret sha256 secret (placeSecret idx) (s.oldSecrets i).2 = (s.oldSecrets i).1

/-- The secret at `idx`, when a stored secret derives it. -/
def getSecret (sha256 : Bytes32 → Bytes32) (s : CounterpartyCommitmentSecrets) (idx : Nat) :
    Result (Option Bytes32) :=
  match (List.finRange 49).find? fun i : Fin 49 => clearLow i idx == (s.oldSecrets i).2 with
  | some i => .ok (some (deriveSecret sha256 (s.oldSecrets i).1 i idx))
  | none => do
    assert (idx < s.getMinSeenSecret) "assertion failed: idx < self.get_min_seen_secret()"
    return none

/-! ## What a store knows -/

/-- The store was filled at the consecutive indices from `low` on with the secrets `known`. -/
structure Holds (sha256 : Bytes32 → Bytes32) (s : CounterpartyCommitmentSecrets) (low : Nat)
    (known : Nat → Bytes32) : Prop where
  low_le : low ≤ 2 ^ 48
  bound : ∀ i, low ≤ (s.oldSecrets i).2
  least : ∀ c, low ≤ c → c < 2 ^ 48 → (∀ c', low ≤ c' → c' < c → placeSecret c' ≠ placeSecret c) →
    (s.oldSecrets (placeSecret c)).2 = c
  derives : ∀ (i : Fin 49) idx, low ≤ idx → idx < 2 ^ 48 → clearLow i idx = (s.oldSecrets i).2 →
    deriveSecret sha256 (s.oldSecrets i).1 i idx = known idx

variable {sha256 : Bytes32 → Bytes32} {s s' : CounterpartyCommitmentSecrets} {low : Nat}
  {known : Nat → Bytes32} {idx : Nat} {secret : Bytes32}

theorem holds_new (known : Nat → Bytes32) : Holds sha256 new (2 ^ 48) known where
  low_le := le_refl _
  bound _ := le_refl _
  least _ h₁ h₂ := absurd h₁ (Nat.not_le.mpr h₂)
  derives _ _ h₁ h₂ := absurd h₁ (Nat.not_le.mpr h₂)

private theorem foldl_min_le (slots : Fin 49 → Bytes32 × Nat) (l : List (Fin 49)) (start : Nat) :
    l.foldl (fun min i => if (slots i).2 < min then (slots i).2 else min) start ≤ start ∧
      ∀ i ∈ l, l.foldl (fun min i => if (slots i).2 < min then (slots i).2 else min) start ≤
        (slots i).2 := by
  induction l generalizing start with
  | nil => simp
  | cons j l ih =>
    obtain ⟨h₁, h₂⟩ := ih (if (slots j).2 < start then (slots j).2 else start)
    rw [foldl_cons]
    have hj : (if (slots j).2 < start then (slots j).2 else start) ≤ (slots j).2 ∧
        (if (slots j).2 < start then (slots j).2 else start) ≤ start := by
      split_ifs <;> omega
    refine ⟨h₁.trans hj.2, fun i hi => ?_⟩
    rcases mem_cons.mp hi with rfl | hi
    · exact h₁.trans hj.1
    · exact h₂ i hi

private theorem le_foldl_min {slots : Fin 49 → Bytes32 × Nat} {l : List (Fin 49)} {start b : Nat}
    (hstart : b ≤ start) (hslots : ∀ i ∈ l, b ≤ (slots i).2) :
    b ≤ l.foldl (fun min i => if (slots i).2 < min then (slots i).2 else min) start := by
  induction l generalizing start with
  | nil => exact hstart
  | cons j l ih =>
    rw [foldl_cons]
    refine ih ?_ fun i hi => hslots i (mem_cons_of_mem j hi)
    have := hslots j mem_cons_self
    split_ifs <;> omega

theorem getMinSeenSecret_le (s : CounterpartyCommitmentSecrets) (i : Fin 49) :
    s.getMinSeenSecret ≤ (s.oldSecrets i).2 :=
  (foldl_min_le s.oldSecrets (finRange 49) (2 ^ 48)).2 i (mem_finRange i)

theorem getMinSeenSecret_le_pow (s : CounterpartyCommitmentSecrets) :
    s.getMinSeenSecret ≤ 2 ^ 48 :=
  (foldl_min_le s.oldSecrets (finRange 49) (2 ^ 48)).1

/-- A secret changes the store iff it chains and its index is below every index stored. -/
theorem provideSecret_changed_iff :
    (∃ s', s.provideSecret sha256 idx secret = .ok s' ∧ s' ≠ s) ↔
      s.Chains sha256 idx secret ∧ idx < s.getMinSeenSecret := by
  constructor
  · rintro ⟨s', h, hne⟩
    unfold provideSecret at h
    dsimp only at h
    split_ifs at h with hchain hmin
    · exact absurd (Except.ok.inj h).symm hne
    · exact ⟨hchain, not_le.mp hmin⟩
  · rintro ⟨hchain, hmin⟩
    refine ⟨s.setSlot (placeSecret idx) (secret, idx), ?_, fun heq => ?_⟩
    · unfold Chains at hchain
      unfold provideSecret
      dsimp only
      rw [if_pos hchain, if_neg (not_le.mpr hmin)]
    · have hslot := s.setSlot_self (placeSecret idx) (secret, idx)
      rw [heq] at hslot
      have hle := s.getMinSeenSecret_le (placeSecret idx)
      rw [hslot] at hle
      exact absurd hle (not_le.mpr hmin)

/-- The smallest index of a store is the lowest index it holds. -/
theorem Holds.getMinSeenSecret_eq (h : Holds sha256 s low known) : s.getMinSeenSecret = low := by
  refine le_antisymm ?_ (le_foldl_min h.low_le fun i _ => h.bound i)
  obtain ⟨hstart, hslot⟩ := foldl_min_le s.oldSecrets (finRange 49) (2 ^ 48)
  rcases Nat.lt_or_ge low (2 ^ 48) with hlow | hlow
  · have hleast := h.least low (le_refl low) hlow fun c' h₁ h₂ => absurd h₁ (Nat.not_le.mpr h₂)
    exact (hslot _ (mem_finRange (placeSecret low))).trans (le_of_eq hleast)
  · exact hstart.trans hlow

/-- Some slot of a store covers each index it holds. -/
theorem Holds.exists_slot (h : Holds sha256 s low known) (hlow : low ≤ idx) (hidx : idx < 2 ^ 48) :
    ∃ i : Fin 49, low ≤ clearLow i idx ∧ (s.oldSecrets i).2 = clearLow i idx := by
  obtain ⟨i, hi, hle, hplace, hleast⟩ := Base.exists_slot hlow hidx
  have hplace' : placeSecret (clearLow i idx) = ⟨i, Nat.lt_succ_of_le hi⟩ := Fin.ext hplace
  refine ⟨⟨i, Nat.lt_succ_of_le hi⟩, hle, ?_⟩
  change (s.oldSecrets ⟨i, Nat.lt_succ_of_le hi⟩).2 = clearLow i idx
  rw [← hplace']
  refine h.least _ hle (Nat.lt_of_le_of_lt (clearLow_le i idx) hidx) fun c h₁ h₂ hcon => ?_
  rw [hplace'] at hcon
  exact hleast c h₁ h₂ (congrArg Fin.val hcon)

/-- A store returns the secret of every index it holds. -/
theorem Holds.getSecret_eq (h : Holds sha256 s low known) (hlow : low ≤ idx) (hidx : idx < 2 ^ 48) :
    s.getSecret sha256 idx = .ok (some (known idx)) := by
  obtain ⟨i, -, hslot⟩ := h.exists_slot hlow hidx
  unfold getSecret
  cases hf : (finRange 49).find? fun i : Fin 49 => clearLow i idx == (s.oldSecrets i).2 with
  | none =>
    have := find?_eq_none.mp hf i (mem_finRange i)
    rw [hslot] at this
    simp at this
  | some j =>
    have hj := find?_some hf
    rw [beq_iff_eq] at hj
    change Except.ok (some (deriveSecret sha256 (s.oldSecrets j).1 j idx)) = _
    rw [h.derives j idx hlow hidx hj]

/-- Providing a secret that is held already changes nothing. -/
theorem Holds.provideSecret_of_le (h : Holds sha256 s low known) (hlow : low ≤ idx)
    (hs : s.provideSecret sha256 idx secret = .ok s') : s' = s := by
  unfold provideSecret at hs
  rw [h.getMinSeenSecret_eq] at hs
  dsimp only at hs
  split_ifs at hs with hchain
  exact (Except.ok.inj hs).symm

/-- A secret that is accepted below the held indices derives the secrets of its subtree. -/
theorem Holds.derives_of_accepted (h : Holds sha256 s (idx + 1) known)
    (hchain : ∀ i : Fin 49, i < placeSecret idx →
      deriveSecret sha256 secret (placeSecret idx) (s.oldSecrets i).2 = (s.oldSecrets i).1)
    {j : Nat} (hj : idx < j) (hj' : j < 2 ^ 48) (hclear : clearLow (placeSecret idx) j = idx) :
    deriveSecret sha256 secret (placeSecret idx) j = known j := by
  obtain ⟨i, hle, hslot⟩ := h.exists_slot hj hj'
  have hlt : i < placeSecret idx := by
    by_contra hcon
    have := clearLow_anti (Fin.le_def.mp (not_lt.mp hcon)) j
    omega
  have hstep := hchain i hlt
  rw [hslot] at hstep
  rw [← h.derives i j hj hj' hslot.symm, ← hstep]
  exact derive_split _ (Nat.le_of_lt hlt) j secret

/-- A secret accepted at the index just below the held ones is held from then on. -/
theorem Holds.provideSecret_next (h : Holds sha256 s (idx + 1) known)
    (hs : s.provideSecret sha256 idx secret = .ok s') :
    Holds sha256 s' idx (Function.update known idx secret) := by
  unfold provideSecret at hs
  rw [h.getMinSeenSecret_eq] at hs
  dsimp only at hs
  split_ifs at hs with hchain hmin
  · omega
  · cases hs
    refine ⟨(Nat.le_succ idx).trans h.low_le, fun i => ?_, fun c hc hc' hleast => ?_,
      fun i j hj hj' hclear => ?_⟩
    · by_cases hi : i = placeSecret idx
      · rw [hi, setSlot_self]
      · rw [setSlot_of_ne _ hi]
        exact (Nat.le_succ idx).trans (h.bound i)
    · rcases Nat.eq_or_lt_of_le hc with rfl | hc
      · rw [setSlot_self]
      · rw [setSlot_of_ne _ (hleast idx (le_refl idx) hc).symm]
        exact h.least c hc hc' fun c' h₁ h₂ => hleast c' ((Nat.le_succ idx).trans h₁) h₂
    · by_cases hi : i = placeSecret idx
      · subst hi
        rw [setSlot_self] at hclear ⊢
        rcases Nat.eq_or_lt_of_le hj with rfl | hj
        · rw [Function.update_self]
          exact derive_of_clear _ (fun k hk => testBit_of_lt_lowestBit hk) secret
        · rw [Function.update_of_ne (Nat.ne_of_gt hj)]
          exact h.derives_of_accepted hchain hj hj' hclear
      · rw [setSlot_of_ne _ hi] at hclear ⊢
        have hle := clearLow_le i j
        have hbound := h.bound i
        rw [Function.update_of_ne (by omega)]
        exact h.derives i j (by omega) hj' hclear

end CounterpartyCommitmentSecrets

end ValidatingSigner
