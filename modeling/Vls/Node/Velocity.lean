import Vls.Base.Machine
import Vls.Base.Window
import Vls.Node.State

/-!
# What a velocity control enforces

A velocity control holds what was approved in each of its newest buckets, as long as its clock does
not run backwards and it is only reset when it holds nothing.  Then what is approved over any span
of as many buckets stays within the limit.
-/

namespace ValidatingSigner

open Base Window List

namespace VelocityControlSpec

variable (spec : VelocityControlSpec)

/-- The limit of a specification. -/
def limit : Nat := (VelocityControl.specToTriple spec).1

/-- The seconds of a bucket. -/
def interval : Nat := (VelocityControl.specToTriple spec).2.1

/-- The number of buckets. -/
def size : Nat := (VelocityControl.specToTriple spec).2.2

theorem interval_pos : 0 < spec.interval := by
  unfold interval VelocityControl.specToTriple
  split
  all_goals simp

end VelocityControlSpec

namespace VelocityControl

theorem new_eq (spec : VelocityControlSpec) :
    new spec = ⟨0, spec.interval, replicate spec.size 0, spec.limit⟩ := rfl

theorem foldl_saturatingAdd (l : List Nat) {a : Nat} (ha : a ≤ 2 ^ 64 - 1) :
    l.foldl saturatingAdd a = min (a + l.sum) (2 ^ 64 - 1) := by
  induction l generalizing a with
  | nil => simpa using ha
  | cons b l ih =>
    have hsum : saturatingAdd a b ≤ 2 ^ 64 - 1 := Nat.min_le_right _ _
    rw [foldl_cons, ih hsum, sum_cons, saturatingAdd]
    omega

/-- The velocity is the sum of the buckets, held at the largest word. -/
theorem velocity_eq (c : VelocityControl) : c.velocity = min c.buckets.sum (2 ^ 64 - 1) := by
  rw [velocity, foldl_saturatingAdd c.buckets (Nat.zero_le _), Nat.zero_add]

/-- The control holds what the log has approved in the buckets up to slot `S`, and the log stays
within the limit.  Its start is that of the slot, or earlier when it holds nothing. -/
structure Tracks (limit interval size : Nat) (log : List (Nat × Nat)) (S : Nat)
    (c : VelocityControl) : Prop where
  limit_eq : c.limit = limit
  interval_eq : c.bucketInterval = interval
  latest : ∀ e ∈ log, e.1 ≤ S
  buckets : c.buckets = tally log size S
  start : c.startSec = S * interval ∨
    c.startSec ≤ S * interval ∧ ∀ b ∈ c.buckets, b = 0
  limited : ∀ K, within log size K ≤ limit

variable {limit interval size : Nat} {log : List (Nat × Nat)} {S t amount : Nat}
  {c c' : VelocityControl} {o : Overflow}

theorem Tracks.new (limit interval size : Nat) :
    Tracks limit interval size [] 0 ⟨0, interval, replicate size 0, limit⟩ := by
  refine ⟨rfl, rfl, ?_, (tally_nil _ _).symm, .inl ?_, fun K => Nat.zero_le _⟩
  · intro e he
    cases he
  · rw [Nat.zero_mul]

/-- A control that holds nothing can be replaced by a new one. -/
theorem Tracks.reset (h : Tracks limit interval size log S c) (hempty : ∀ b ∈ c.buckets, b = 0) :
    Tracks limit interval size log S ⟨0, interval, replicate size 0, limit⟩ := by
  have hbuckets : tally log size S = replicate size 0 := by
    refine eq_replicate_iff.mpr ⟨length_tally _ _ _, ?_⟩
    rw [← h.buckets]
    exact hempty
  refine ⟨rfl, rfl, h.latest, hbuckets.symm, .inr ⟨Nat.zero_le _, ?_⟩, h.limited⟩
  intro b hb
  exact eq_of_mem_replicate hb

/-- A shifted control starts at the bucket of its time. -/
theorem startSec_shift (hshift : c.shift o t = .ok c') :
    c'.startSec = t / c.bucketInterval * c.bucketInterval := by
  obtain ⟨elapsed, -, hshift⟩ := bind_ok hshift
  cases hshift
  dsimp only
  have hdiv := Nat.div_add_mod t c.bucketInterval
  rw [Nat.mul_comm]
  omega

theorem modifyHead_saturatingAdd {l : List Nat} (h : l.sum + amount ≤ 2 ^ 64 - 1) :
    l.modifyHead (saturatingAdd · amount) = l.modifyHead (· + amount) := by
  cases l with
  | nil => rfl
  | cons head tail =>
    rw [sum_cons] at h
    rw [modifyHead_cons, modifyHead_cons, saturatingAdd, Nat.min_eq_left (by omega)]

section

variable (h : Tracks limit interval size log S c) (hinterval : 0 < interval)

include h hinterval

/-- Shifting to a later time keeps what is still in the span. -/
theorem Tracks.shift (hT : S ≤ t / interval) (hshift : c.shift o t = .ok c') :
    Tracks limit interval size log (t / interval) c' := by
  have hnewStart := startSec_shift hshift
  rw [h.interval_eq] at hnewStart
  have hle : S * interval ≤ t := (Nat.le_div_iff_mul_le hinterval).mp hT
  have hstart : c.startSec ≤ t := by
    rcases h.start with hstart | ⟨hstart, -⟩
    · omega
    · omega
  obtain ⟨elapsed, helapsed, hshift⟩ := bind_ok hshift
  cases hshift
  have hsub : elapsed = t - c.startSec := by
    unfold Overflow.sub at helapsed
    rw [if_pos hstart] at helapsed
    exact (Except.ok.inj helapsed).symm
  have hlength : c.buckets.length = size := by rw [h.buckets, length_tally]
  refine ⟨h.limit_eq, h.interval_eq, ?_, ?_, .inl hnewStart, h.limited⟩
  · intro e he
    exact (h.latest e he).trans hT
  · rw [tally_shift h.latest hT, ← h.buckets]
    dsimp only
    rw [hlength, h.interval_eq, hsub]
    rcases h.start with hstart | ⟨-, hempty⟩
    · rw [hstart, Nat.mul_comm, Nat.sub_mul_div]
    · have hzero (k : Nat) : replicate (min size k) 0 ++
          c.buckets.take (size - min size k) = replicate size 0 := by
        refine eq_replicate_iff.mpr ⟨?_, ?_⟩
        · rw [length_append, length_replicate, length_take, hlength]
          omega
        · intro b hb
          rcases mem_append.mp hb with hb | hb
          · exact eq_of_mem_replicate hb
          · exact hempty b (mem_of_mem_take hb)
      rw [hzero, hzero]

/-- An amount that fits is added to the newest bucket, and the log stays within the limit. -/
theorem Tracks.insert_true (hlimit : limit < 2 ^ 64 - 1) (hT : S ≤ t / interval)
    (hinsert : c.insert o t amount = .ok (true, c')) :
    Tracks limit interval size (log ++ [(t / interval, amount)]) (t / interval) c' := by
  obtain ⟨shifted, hshift, hinsert⟩ := bind_ok hinsert
  have htracks := h.shift hinterval hT hshift
  split_ifs at hinsert with hfits
  · cases hinsert
  obtain ⟨-, rfl⟩ := Prod.mk.inj (pure_eq_ok.mp hinsert)
  rw [velocity_eq, htracks.limit_eq, saturatingAdd, htracks.buckets,
    sum_tally htracks.latest] at hfits
  have hsum : within log size (t / interval) + amount ≤ limit := by omega
  refine ⟨htracks.limit_eq, htracks.interval_eq, ?_, ?_, ?_, ?_⟩
  · intro e he
    rcases mem_append.mp he with he | he
    · exact htracks.latest e he
    · rw [mem_singleton.mp he]
  · rw [tally_append, ← htracks.buckets]
    apply modifyHead_saturatingAdd
    rw [htracks.buckets, sum_tally htracks.latest]
    omega
  · left
    have hstart := startSec_shift hshift
    rw [h.interval_eq] at hstart
    exact hstart
  · intro K
    rw [within_append]
    split_ifs with hwindow
    · have hle := within_le (n := size) htracks.latest hwindow.1
      omega
    · exact (Nat.add_zero _).trans_le (htracks.limited K)

/-- An amount that does not fit changes nothing. -/
theorem Tracks.insert_false (hT : S ≤ t / interval)
    (hinsert : c.insert o t amount = .ok (false, c')) :
    Tracks limit interval size log (t / interval) c' := by
  obtain ⟨shifted, hshift, hinsert⟩ := bind_ok hinsert
  split_ifs at hinsert with hfits
  · obtain ⟨-, rfl⟩ := Prod.mk.inj (pure_eq_ok.mp hinsert)
    exact h.shift hinterval hT hshift
  · cases hinsert

end

/-! ## Runs -/

variable {spec : VelocityControlSpec}

/-- What one step can do to a control: nothing, an attempt to add an amount at the time of the step,
or a reset while it holds nothing.  The list is what the step adds to the log. -/
inductive Turn (spec : VelocityControlSpec) (o : Overflow) (time : Option Nat)
    (c : VelocityControl) : List (Nat × Nat) → VelocityControl → Prop where
  | kept : Turn spec o time c [] c
  | added {t amount : Nat} {c' : VelocityControl} (htime : time = some t)
      (hinsert : c.insert o t amount = .ok (true, c')) :
      Turn spec o time c [(t / spec.interval, amount)] c'
  | refused {t amount : Nat} {c' : VelocityControl} (htime : time = some t)
      (hinsert : c.insert o t amount = .ok (false, c')) : Turn spec o time c [] c'
  | reset (hempty : ∀ b ∈ c.buckets, b = 0) : Turn spec o time c [] (.new spec)

/-- A step that is not earlier than the control keeps it on track. -/
theorem Tracks.turn {time : Option Nat} {added : List (Nat × Nat)}
    (h : Tracks spec.limit spec.interval spec.size log S c)
    (hlimit : spec.limit < 2 ^ 64 - 1) (hturn : Turn spec o time c added c')
    (htime : ∀ t ∈ time, S ≤ t / spec.interval) :
    ∃ S', Tracks spec.limit spec.interval spec.size (log ++ added) S' c' ∧
      (S' = S ∨ ∃ t ∈ time, S' = t / spec.interval) := by
  cases hturn with
  | kept =>
    rw [append_nil]
    exact ⟨S, h, .inl rfl⟩
  | added ht hinsert =>
    exact ⟨_, h.insert_true spec.interval_pos hlimit (htime _ ht) hinsert, .inr ⟨_, ht, rfl⟩⟩
  | refused ht hinsert =>
    rw [append_nil]
    exact ⟨_, h.insert_false spec.interval_pos (htime _ ht) hinsert, .inr ⟨_, ht, rfl⟩⟩
  | reset hempty =>
    rw [append_nil]
    exact ⟨S, h.reset hempty, .inl rfl⟩

section Run

variable {σ ι ο : Type} (M : Machine σ ι ο) (control : σ → VelocityControl) (time : ι → Option Nat)
  (added : Entry σ ι ο → List (Nat × Nat)) {start : σ}

/-- In a run whose clock does not run backwards the control stays on track. -/
theorem tracks_run (hstart : control start = .new spec) (hlimit : spec.limit < 2 ^ 64 - 1)
    (events : List ι) (hclock : (events.filterMap time).Pairwise (· ≤ ·))
    (hturn : ∀ x ∈ M.trace start events,
      Turn spec o (time x.event) (control x.before) (added x) (control x.after)) :
    ∃ S, Tracks spec.limit spec.interval spec.size
      ((M.trace start events).flatMap added) S (control (M.final start events)) ∧
      (S = 0 ∨ ∃ t ∈ events.filterMap time, S = t / spec.interval) := by
  induction events using reverseRecOn with
  | nil =>
    refine ⟨0, ?_, .inl rfl⟩
    rw [M.final_nil, hstart]
    exact .new ..
  | append_singleton events event ih =>
    rw [filterMap_append, pairwise_append] at hclock
    rw [M.trace_append] at hturn ⊢
    obtain ⟨S, htracks, hS⟩ := ih hclock.1 fun x hx => hturn x (mem_append_left _ hx)
    have hlast := hturn (M.entry (M.final start events) event)
      mem_concat_self
    have hlater : ∀ t ∈ time event, S ≤ t / spec.interval := by
      intro t ht
      rcases hS with rfl | ⟨u, hu, rfl⟩
      · exact Nat.zero_le _
      · have hle :=
          hclock.2.2 u hu t (mem_filterMap.mpr ⟨event, mem_singleton.mpr rfl, ht⟩)
        exact Nat.div_le_div_right hle
    obtain ⟨S', htracks', hS'⟩ := htracks.turn hlimit hlast hlater
    rw [M.final_append, flatMap_append]
    refine ⟨S', ?_, ?_⟩
    · simpa [Machine.trace_cons, Machine.final] using htracks'
    · rw [filterMap_append]
      rcases hS' with rfl | ⟨t, ht, rfl⟩
      · rcases hS with hS | ⟨u, hu, hS⟩
        · exact .inl hS
        · exact .inr ⟨u, mem_append_left _ hu, hS⟩
      · exact .inr ⟨t, mem_append_right _
          (mem_filterMap.mpr ⟨event, mem_singleton.mpr rfl, ht⟩), rfl⟩

end Run

/-! ## The velocity approver -/

/-- Forget all that was approved. -/
def clear (c : VelocityControl) : VelocityControl := { c with buckets := c.buckets.map fun _ => 0 }

/-- What is put to an approver. -/
inductive Payment where
  | invoice (amountMilliSatoshis : Nat)
  | keysend (paymentHash : PaymentHash) (amountMsat : Nat)

/-- A payment put to an approver at a time in seconds. -/
structure Proposal where
  now : Nat
  payment : Payment
  /-- What the delegate says if it is asked. -/
  delegate : Bool

/-- The amount of the payment. -/
def Proposal.amountMsat (p : Proposal) : Nat :=
  match p.payment with
  | .invoice amountMilliSatoshis => amountMilliSatoshis
  | .keysend _ amountMsat => amountMsat

/-- Approve a payment that fits; otherwise ask the delegate, whose approval clears the control. -/
def approve (o : Overflow) (c : VelocityControl) (now amountMsat : Nat) (delegate : Bool) :
    Result (Bool × VelocityControl) := do
  let (success, c) ← c.insert o now amountMsat
  if success then .ok (true, c)
  else .ok (delegate, if delegate then c.clear else c)

def approveInvoice (o : Overflow) (c : VelocityControl) (now amountMilliSatoshis : Nat)
    (delegate : Bool) : Result (Bool × VelocityControl) :=
  approve o c now amountMilliSatoshis delegate

def approveKeysend (o : Overflow) (c : VelocityControl) (now : Nat) (_paymentHash : PaymentHash)
    (amountMsat : Nat) (delegate : Bool) : Result (Bool × VelocityControl) :=
  approve o c now amountMsat delegate

/-- How a proposal is answered. -/
def answer (o : Overflow) (c : VelocityControl) (p : Proposal) : Result (Bool × VelocityControl) :=
  match p.payment with
  | .invoice amountMilliSatoshis => approveInvoice o c p.now amountMilliSatoshis p.delegate
  | .keysend paymentHash amountMsat => approveKeysend o c p.now paymentHash amountMsat p.delegate

theorem answer_eq (o : Overflow) (c : VelocityControl) (p : Proposal) :
    answer o c p = approve o c p.now p.amountMsat p.delegate := by
  obtain ⟨now, payment, delegate⟩ := p
  cases payment <;> rfl

/-- A velocity approver; after an abort its control stays locked. -/
def approver (o : Overflow) : Machine (Option VelocityControl) Proposal (Result Bool) where
  step
    | none, _ => (none, .error (.abort "poisoned lock"))
    | some c, p =>
      match c.answer o p with
      | .ok (answer, c) => (some c, .ok answer)
      | .error e => (none, .error e)

/-- What a step of an approver approves, with its slot. -/
def approved (interval : Nat) (x : Entry (Option VelocityControl) Proposal (Result Bool)) :
    List (Nat × Nat) :=
  if x.answer = .ok true then [(x.event.now / interval, x.event.amountMsat)] else []

/-- A control that is cleared has approved nothing. -/
theorem Tracks.clear (h : Tracks limit interval size log S c) :
    Tracks limit interval size [] S c.clear := by
  refine ⟨h.limit_eq, h.interval_eq, ?_, ?_, .inr ⟨h.start.elim Eq.le And.left, ?_⟩,
    fun K => Nat.zero_le _⟩
  · intro e he
    cases he
  · rw [tally_nil, VelocityControl.clear, h.buckets, map_const', length_tally]
  · intro b hb
    obtain ⟨_, -, rfl⟩ := mem_map.mp hb
    rfl

/-- At a later time a control answers. -/
theorem Tracks.insert_ok (h : Tracks limit interval size log S c) (hinterval : 0 < interval)
    (hT : S ≤ t / interval) (o : Overflow) (amount : Nat) :
    ∃ fits c', c.insert o t amount = .ok (fits, c') := by
  have hle : S * interval ≤ t := (Nat.le_div_iff_mul_le hinterval).mp hT
  have hstart : c.startSec ≤ t := (h.start.elim Eq.le And.left).trans hle
  have hsub : o.sub t c.startSec = (.ok (t - c.startSec) : Result Nat) := if_pos hstart
  rw [VelocityControl.insert, VelocityControl.shift, hsub]
  simp only [ok_bind, pure_bind]
  split_ifs
  · exact ⟨_, _, rfl⟩
  · exact ⟨_, _, rfl⟩

section Approver

variable (h : Tracks spec.limit spec.interval spec.size log S c)
  (hlimit : spec.limit < 2 ^ 64 - 1)

include h hlimit

/-- A proposal is answered, and what the control approves by itself is added to the log. -/
theorem Tracks.step {p : Proposal} (hT : S ≤ p.now / spec.interval) :
    ∃ c' log', ((approver o).step (some c) p).1 = some c' ∧
      Tracks spec.limit spec.interval spec.size log' (p.now / spec.interval) c' ∧
      (p.delegate = false →
        log' = log ++ approved spec.interval ((approver o).entry (some c) p)) := by
  obtain ⟨fits, c', hinsert⟩ := h.insert_ok spec.interval_pos hT o p.amountMsat
  cases fits with
  | true =>
    have htracks := h.insert_true spec.interval_pos hlimit hT hinsert
    refine ⟨c', _, ?_, htracks, fun _ => ?_⟩
    all_goals simp [approver, answer_eq, approve, approved, hinsert]
  | false =>
    have htracks := h.insert_false spec.interval_pos hT hinsert
    cases hdelegate : p.delegate with
    | true =>
      refine ⟨_, _, ?_, htracks.clear, nofun⟩
      simp [approver, answer_eq, approve, hinsert, hdelegate]
    | false =>
      refine ⟨c', log, ?_, htracks, fun _ => ?_⟩
      all_goals simp [approver, answer_eq, approve, approved, hinsert, hdelegate]

/-- While the delegate refuses, what is approved stays within the limit. -/
theorem Tracks.within_le {rest : List Proposal} (hlater : ∀ p ∈ rest, S ≤ p.now / spec.interval)
    (hclock : rest.Pairwise (·.now ≤ ·.now)) (hdelegate : ∀ p ∈ rest, p.delegate = false)
    (K : Nat) : within (log ++ ((approver o).trace (some c) rest).flatMap
      (approved spec.interval)) spec.size K ≤ spec.limit := by
  induction rest generalizing c log S with
  | nil => simpa using h.limited K
  | cons p rest ih =>
    obtain ⟨hp, hclock⟩ := pairwise_cons.mp hclock
    obtain ⟨hfirst, hdelegate⟩ := forall_mem_cons.mp hdelegate
    obtain ⟨c', log', hstep, htracks, hlog⟩ := h.step (o := o) hlimit (hlater p mem_cons_self)
    rw [Machine.trace_cons, flatMap_cons, ← append_assoc, ← hlog hfirst, hstep]
    exact ih htracks (fun q hq => Nat.div_le_div_right (hp q hq)) hclock hdelegate

end Approver

/-- After any run, what the approver approves over a span of buckets stays within the limit as long
as the delegate approves nothing. -/
theorem automatic_approvals_limited (spec : VelocityControlSpec) (hlimit : spec.limit < 2 ^ 64 - 1)
    (o : Overflow) {first rest : List Proposal}
    (hclock : (first ++ rest).Pairwise (·.now ≤ ·.now))
    (hdelegate : ∀ p ∈ rest, p.delegate = false) (K : Nat) :
    within (((approver o).trace ((approver o).final (some (.new spec)) first) rest).flatMap
      (approved spec.interval)) spec.size K ≤ spec.limit := by
  suffices hrun : ∀ log S c, Tracks spec.limit spec.interval spec.size log S c →
      (∀ p ∈ first ++ rest, S ≤ p.now / spec.interval) →
      within (((approver o).trace ((approver o).final (some c) first) rest).flatMap
        (approved spec.interval)) spec.size K ≤ spec.limit from
    hrun [] 0 _ (.new ..) fun p _ => Nat.zero_le _
  induction first with
  | nil =>
    intro log S c h hlater
    have hle := h.within_le (o := o) hlimit hlater hclock hdelegate K
    rw [within, map_append, sum_append] at hle
    exact le_of_add_le_right hle
  | cons p first ih =>
    intro log S c h hlater
    obtain ⟨hp, hclock⟩ := pairwise_cons.mp hclock
    obtain ⟨c', log', hstep, htracks, -⟩ := h.step (o := o) hlimit (hlater p mem_cons_self)
    rw [Machine.final, hstep]
    exact ih hclock _ _ _ htracks fun q hq => Nat.div_le_div_right (hp q hq)

/-- The delegate has approved 50 beyond the limit, and then 80 fit again. -/
theorem automatic_approvals_limited_cleared :
    within (((approver .checked).trace ((approver .checked).final (some (.new ⟨100, .hourly⟩))
      [⟨0, .invoice 90, false⟩, ⟨1, .keysend 7 50, true⟩])
      [⟨2, .keysend 8 80, false⟩]).flatMap (approved 300)) 12 0 ≤ 100 :=
  automatic_approvals_limited ⟨100, .hourly⟩ (by decide) .checked (by decide) (by decide) 0

end VelocityControl

end ValidatingSigner
