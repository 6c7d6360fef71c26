import Vls.Node.Velocity

/-!
# A velocity control on its own

A control with any limit, bucket interval and number of buckets.  As long as its clock does not run
backwards, what it accepts over the buckets of any window stays within the limit, and it refuses
only what would exceed it.  When the clock steps back the elapsed time underflows.
-/

namespace ValidatingSigner

open Base Window List

namespace VelocityControl

/-- A control with a limit, a bucket interval and a number of buckets. -/
def newWithIntervals (limitMsat bucketInterval numBuckets : Nat) : Result VelocityControl := do
  assert (bucketInterval > 0 ∧ numBuckets > 0)
    "assertion failed: bucket_interval > 0 && num_buckets > 0"
  return ⟨0, bucketInterval, List.replicate numBuckets 0, limitMsat⟩

/-- An insertion and whether it was accepted. -/
structure Inserted where
  sec : Nat
  msat : Nat
  accepted : Bool
  deriving DecidableEq

/-- Insert amounts one after the other. -/
def insertAll (o : Overflow) (c : VelocityControl) :
    List (Nat × Nat) → Result (List Inserted × VelocityControl)
  | [] => .ok ([], c)
  | (sec, msat) :: inserts => do
    let (accepted, c) ← c.insert o sec msat
    let (history, c) ← c.insertAll o inserts
    return (⟨sec, msat, accepted⟩ :: history, c)

/-- What was accepted in the `len` buckets up to bucket `k`. -/
def acceptedWithin (interval len : Nat) (history : List Inserted) (k : Int) : Nat :=
  ((history.filter fun x => x.accepted ∧ k - len < (x.sec / interval : Nat) ∧
    ((x.sec / interval : Nat) : Int) ≤ k).map Inserted.msat).sum

/-! ## The limit -/

section Limit

variable {limit interval size S t amount : Nat} {log : List (Nat × Nat)} {c c' : VelocityControl}
  {o : Overflow}

/-- What a history has accepted, bucket by bucket. -/
def acceptedLog (interval : Nat) (history : List Inserted) : List (Nat × Nat) :=
  (history.filter Inserted.accepted).map fun x => (x.sec / interval, x.msat)

theorem acceptedWithin_nat (interval len : Nat) (history : List Inserted) (K : Nat) :
    acceptedWithin interval len history K = within (acceptedLog interval history) len K := by
  induction history with
  | nil => rfl
  | cons x history ih =>
    rw [acceptedWithin, acceptedLog] at *
    cases haccepted : x.accepted with
    | false => simpa [haccepted] using ih
    | true =>
      by_cases hwindow : x.sec / interval ≤ K ∧ K < x.sec / interval + len
      · rw [filter_cons_of_pos (by simp [haccepted]; omega),
          filter_cons_of_pos haccepted, map_cons, sum_cons, ih, map_cons]
        simp [within, hwindow]
      · rw [filter_cons_of_neg (by simp [haccepted]; omega),
          filter_cons_of_pos haccepted, ih, map_cons]
        simp [within, hwindow]

theorem acceptedWithin_of_neg (interval len : Nat) (history : List Inserted) {k : Int}
    (hk : k < 0) : acceptedWithin interval len history k = 0 := by
  rw [acceptedWithin, filter_eq_nil_iff.mpr ?_]
  · rfl
  · intro x _
    have hpos := Int.natCast_nonneg (x.sec / interval)
    simp only [decide_eq_true_eq]
    intro hx
    exact absurd (hpos.trans hx.2.2) (Int.not_le.mpr hk)

section

variable (h : Tracks limit interval size log S c) (hinterval : 0 < interval)

include h hinterval

/-- An amount that is not accepted would exceed the limit. -/
theorem Tracks.lt_of_insert_false (hlimit : limit < 2 ^ 64 - 1) (hT : S ≤ t / interval)
    (hinsert : c.insert o t amount = .ok (false, c')) :
    limit < within log size (t / interval) + amount := by
  obtain ⟨shifted, hshift, hinsert⟩ := bind_ok hinsert
  have htracks := h.shift hinterval hT hshift
  split_ifs at hinsert with hfits
  · rw [velocity_eq, htracks.limit_eq, saturatingAdd, htracks.buckets, sum_tally htracks.latest]
      at hfits
    omega
  · cases hinsert

/-- A control on track answers every insertion in the order of time, and stays on track. -/
theorem Tracks.insertAll (hlimit : limit < 2 ^ 64 - 1) (o : Overflow) {inserts : List (Nat × Nat)}
    (hclock : (inserts.map Prod.fst).Pairwise (· ≤ ·))
    (hlater : ∀ e ∈ inserts, S ≤ e.1 / interval) :
    ∃ history c' S', c.insertAll o inserts = .ok (history, c') ∧
      history.map (fun x => (x.sec, x.msat)) = inserts ∧
      Tracks limit interval size (log ++ acceptedLog interval history) S' c' ∧
      ∀ before x after, history = before ++ x :: after → x.accepted = false →
        limit < within (log ++ acceptedLog interval before) size (x.sec / interval) + x.msat := by
  induction inserts generalizing c S log with
  | nil =>
    refine ⟨[], c, S, rfl, rfl, ?_, ?_⟩
    · rw [acceptedLog, filter_nil, map_nil, append_nil]
      exact h
    · intro before x after heq
      exact absurd heq (by simp)
  | cons e inserts ih =>
    obtain ⟨sec, msat⟩ := e
    rw [map_cons, pairwise_cons] at hclock
    have hT := hlater (sec, msat) mem_cons_self
    obtain ⟨accepted, c₁, hinsert⟩ := h.insert_ok hinterval hT o msat
    have htracks : Tracks limit interval size
        (log ++ acceptedLog interval [⟨sec, msat, accepted⟩]) (sec / interval) c₁ := by
      cases accepted with
      | true => exact h.insert_true hinterval hlimit hT hinsert
      | false =>
        rw [acceptedLog, filter_cons_of_neg (by simp), filter_nil, map_nil,
          append_nil]
        exact h.insert_false hinterval hT hinsert
    obtain ⟨history, c', S', hrest, hinserts, htracks', hrefused⟩ := ih htracks hclock.2 (by
      intro e he
      exact Nat.div_le_div_right (hclock.1 e.1 (mem_map_of_mem he)))
    have hlog (l : List Inserted) : acceptedLog interval (⟨sec, msat, accepted⟩ :: l) =
        acceptedLog interval [⟨sec, msat, accepted⟩] ++ acceptedLog interval l := by
      rw [acceptedLog, acceptedLog, acceptedLog, ← map_append, ← filter_append]
      rfl
    refine ⟨⟨sec, msat, accepted⟩ :: history, c', S', ?_, ?_, ?_, ?_⟩
    · exact bind_eq_ok.mpr ⟨(accepted, c₁), hinsert, bind_eq_ok.mpr ⟨(history, c'), hrest, rfl⟩⟩
    · rw [map_cons, hinserts]
    · rw [hlog, ← append_assoc]
      exact htracks'
    · intro before x after heq hfalse
      cases before with
      | nil =>
        obtain ⟨rfl, -⟩ := cons.inj heq
        obtain rfl : accepted = false := hfalse
        rw [acceptedLog, filter_nil, map_nil, append_nil]
        exact h.lt_of_insert_false hinterval hlimit hT hinsert
      | cons y before =>
        obtain ⟨rfl, htail⟩ := cons.inj heq
        rw [hlog, ← append_assoc]
        exact hrefused before x after htail hfalse

end

/-- What a control of any shape accepts over the buckets of a window stays within its limit, as long
as its clock does not run backwards, and it refuses only what would exceed the limit. -/
theorem accepted_within_limit (o : Overflow) (limit interval len : Nat)
    (hlimit : limit < 2 ^ 64 - 1) (c : VelocityControl)
    (hnew : newWithIntervals limit interval len = .ok c) (inserts : List (Nat × Nat))
    (hclock : (inserts.map Prod.fst).Pairwise (· ≤ ·)) :
    ∃ history c', c.insertAll o inserts = .ok (history, c') ∧
      history.map (fun x => (x.sec, x.msat)) = inserts ∧
      (∀ k : Int, acceptedWithin interval len history k ≤ limit) ∧
      ∀ before x after, history = before ++ x :: after → x.accepted = false →
        limit < acceptedWithin interval len before (x.sec / interval : Nat) + x.msat := by
  obtain ⟨_, hassert, hnew⟩ := bind_ok hnew
  cases hnew
  have hinterval : 0 < interval := (assert_eq_ok.mp hassert).1
  obtain ⟨history, c', S', hrun, hinserts, htracks, hrefused⟩ :=
    (Tracks.new limit interval len).insertAll hinterval hlimit o hclock fun _ _ => Nat.zero_le _
  refine ⟨history, c', hrun, hinserts, ?_, ?_⟩
  · intro k
    rcases lt_or_ge k 0 with hk | hk
    · rw [acceptedWithin_of_neg interval len history hk]
      exact Nat.zero_le _
    · obtain ⟨K, rfl⟩ := Int.eq_ofNat_of_zero_le hk
      rw [acceptedWithin_nat]
      exact htracks.limited K
  · intro before x after heq hfalse
    rw [acceptedWithin_nat]
    exact hrefused before x after heq hfalse

/-- A control of one hundred over four buckets of ten seconds. -/
theorem accepted_within_limit_hundred :
    ∃ c, newWithIntervals 100 10 4 = .ok c ∧
      ∃ history c', c.insertAll .checked [(1100, 90), (1101, 11), (1101, 10), (1140, 90)] =
        .ok (history, c') ∧ ∀ k : Int, acceptedWithin 10 4 history k ≤ 100 := by
  refine ⟨_, rfl, ?_⟩
  obtain ⟨history, c', hrun, -, hlimit, -⟩ := accepted_within_limit .checked 100 10 4 (by decide) _
    rfl [(1100, 90), (1101, 11), (1101, 10), (1140, 90)] (by decide)
  exact ⟨history, c', hrun, hlimit⟩

end Limit

/-! ## A clock that steps back -/

/-- An insertion is answered, and what was accepted before is still counted. -/
def KeepsVelocity (o : Overflow) (c : VelocityControl) (currentSec velocityMsat : Nat) : Prop :=
  ∃ accepted c', c.insert o currentSec velocityMsat = .ok (accepted, c') ∧
    c.velocity ≤ c'.velocity

/-- The buckets that are left when the control is shifted by the wrapped difference of the times. -/
def keptBuckets (c : VelocityControl) (currentSec : Nat) : List Nat :=
  c.buckets.take (c.buckets.length - (currentSec + 2 ^ 64 - c.startSec) / c.bucketInterval)

section Back

variable {c c' : VelocityControl} {currentSec velocityMsat : Nat}

theorem not_keepsVelocity_checked (hback : currentSec < c.startSec) :
    ¬ KeepsVelocity .checked c currentSec velocityMsat := by
  rintro ⟨accepted, c', hinsert, -⟩
  have hsub : (Overflow.checked.sub currentSec c.startSec : Result Nat) =
      .error (.abort "attempt to subtract with overflow") := if_neg (Nat.not_le.mpr hback)
  rw [insert, shift, hsub] at hinsert
  cases hinsert

/-- A release build keeps what the wrapped shift leaves. -/
theorem exists_shift_wrapping (hback : currentSec < c.startSec) :
    ∃ shifted, c.shift .wrapping currentSec = .ok shifted ∧ shifted.limit = c.limit ∧
      shifted.buckets.length = c.buckets.length ∧
      shifted.buckets.sum = (keptBuckets c currentSec).sum := by
  have hsub : (Overflow.wrapping.sub currentSec c.startSec : Result Nat) =
      .ok (currentSec + 2 ^ 64 - c.startSec) := by
    rw [Overflow.sub, if_neg (Nat.not_le.mpr hback), Nat.mod_eq_of_lt (by omega)]
  rw [shift, hsub, ok_bind, keptBuckets]
  generalize (currentSec + 2 ^ 64 - c.startSec) / c.bucketInterval = nshift
  refine ⟨_, rfl, rfl, ?_, ?_⟩
  · rw [length_append, length_replicate, length_take]
    omega
  · have hcount : c.buckets.length - min c.buckets.length nshift = c.buckets.length - nshift := by
      omega
    have hzeros : (replicate (min c.buckets.length nshift) 0).sum = 0 := by simp
    rw [sum_append, hzeros, Nat.zero_add, hcount]

theorem sum_modifyHead {l : List Nat} (hl : l ≠ []) (amount : Nat) :
    min (l.modifyHead (saturatingAdd · amount)).sum (2 ^ 64 - 1) =
      min (l.sum + amount) (2 ^ 64 - 1) := by
  cases l with
  | nil => exact absurd rfl hl
  | cons head tail =>
    rw [modifyHead_cons, sum_cons, sum_cons, saturatingAdd]
    omega

/-- What a release build counts once the clock has stepped back. -/
theorem exists_insert_wrapping (velocityMsat : Nat) (hback : currentSec < c.startSec)
    (hbuckets : c.buckets ≠ []) :
    ∃ accepted c', c.insert .wrapping currentSec velocityMsat = .ok (accepted, c') ∧
      c'.velocity =
        let kept := (keptBuckets c currentSec).foldl saturatingAdd 0
        if saturatingAdd kept velocityMsat ≤ c.limit then saturatingAdd kept velocityMsat
        else kept := by
  obtain ⟨shifted, hshift, hlimit, hlength, hsum⟩ := exists_shift_wrapping hback
  have hne : shifted.buckets ≠ [] := by
    intro hnil
    rw [hnil, length_nil] at hlength
    exact hbuckets (eq_nil_of_length_eq_zero hlength.symm)
  have hkept : shifted.velocity = (keptBuckets c currentSec).foldl saturatingAdd 0 := by
    rw [velocity_eq, hsum, foldl_saturatingAdd _ (Nat.zero_le _), Nat.zero_add]
  rw [insert, hshift, ok_bind, ← hkept, hlimit]
  by_cases hfits : saturatingAdd shifted.velocity velocityMsat > c.limit
  · refine ⟨false, shifted, if_pos hfits, ?_⟩
    exact (if_neg (Nat.not_le.mpr hfits)).symm
  · refine ⟨true, _, if_neg hfits, ?_⟩
    rw [velocity_eq]
    dsimp only
    rw [if_pos (Nat.not_lt.mp hfits), sum_modifyHead hne, saturatingAdd, velocity_eq]
    omega

/-- When the clock steps back, a checked build aborts at every insertion; a release build still
counts what it had accepted exactly when the buckets that the wrapped shift leaves, with the new
amount if that fits, make up for it. -/
theorem clock_step_back_iff (c : VelocityControl) (hbuckets : c.buckets ≠ [])
    (currentSec velocityMsat : Nat) :
    ((currentSec < c.startSec → KeepsVelocity .checked c currentSec velocityMsat ∧
      KeepsVelocity .wrapping c currentSec velocityMsat) ↔ c.startSec ≤ currentSec) ∧
    (currentSec < c.startSec →
      let kept := (keptBuckets c currentSec).foldl saturatingAdd 0
      (KeepsVelocity .wrapping c currentSec velocityMsat ↔ c.velocity ≤ kept ∨
        saturatingAdd kept velocityMsat ≤ c.limit ∧
          c.velocity ≤ saturatingAdd kept velocityMsat)) := by
  constructor
  · constructor
    · intro h
      by_contra hback
      exact not_keepsVelocity_checked (Nat.lt_of_not_le hback) (h (Nat.lt_of_not_le hback)).1
    · intro hle hback
      exact absurd hle (Nat.not_le.mpr hback)
  · intro hback kept
    obtain ⟨accepted, c', hinsert, hvelocity⟩ :=
      exists_insert_wrapping velocityMsat hback hbuckets
    have hkept : kept ≤ saturatingAdd kept velocityMsat := by
      have hword : kept ≤ 2 ^ 64 - 1 := by
        change (keptBuckets c currentSec).foldl saturatingAdd 0 ≤ 2 ^ 64 - 1
        rw [foldl_saturatingAdd _ (Nat.zero_le _)]
        exact Nat.min_le_right _ _
      rw [saturatingAdd]
      omega
    constructor
    · rintro ⟨accepted', c'', hinsert', hle⟩
      rw [hinsert] at hinsert'
      cases hinsert'
      rw [hvelocity] at hle
      dsimp only at hle
      split_ifs at hle with hfits
      · exact .inr ⟨hfits, hle⟩
      · exact .inl hle
    · intro h
      refine ⟨accepted, c', hinsert, ?_⟩
      rw [hvelocity]
      dsimp only
      split_ifs with hfits
      · rcases h with h | h
        · exact h.trans hkept
        · exact h.2
      · rcases h with h | h
        · exact h
        · exact absurd h.1 hfits

/-- A release build that is one second back in time keeps nothing of ninety. -/
theorem clock_step_back_iff_ninety :
    let c : VelocityControl := ⟨1100, 10, [90, 0, 0, 0], 100⟩
    c.buckets ≠ [] ∧ ¬ KeepsVelocity .wrapping c 1099 5 := by
  intro c
  refine ⟨by decide, fun h => ?_⟩
  have hlost := ((clock_step_back_iff c (by decide) 1099 5).2 (by decide)).mp h
  exact absurd hlost (by decide)

/-- Ninety are accepted at second 1100.  At second 1000 a checked build aborts, and a release build
counts nothing any more. -/
theorem clock_step_back_forgets :
    ∃ c c₁, newWithIntervals 100 10 4 = .ok c ∧ c.insert .checked 1100 90 = .ok (true, c₁) ∧
      1000 < c₁.startSec ∧ c₁.velocity = 90 ∧
      c₁.insert .checked 1000 0 = .error (.abort "attempt to subtract with overflow") ∧
      ∃ c₂, c₁.insert .wrapping 1000 0 = .ok (true, c₂) ∧ c₂.velocity = 0 :=
  ⟨_, _, rfl, rfl, by decide, rfl, rfl, _, rfl, rfl⟩

end Back

end VelocityControl

end ValidatingSigner
