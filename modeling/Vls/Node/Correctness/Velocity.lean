import Vls.Node.Host
import Vls.Node.Velocity

/-!
# Spending limits and restarts

A restarted node starts with new velocity controls, whatever it has stored.  The limits hold over a
run with restarts when the process only ends while the controls hold nothing.
-/

namespace ValidatingSigner

open Base Window Machine NodeState VelocityControl HostEvent

/-- Nothing is recorded in the control. -/
def VelocityControl.Empty (c : VelocityControl) : Prop := ∀ b ∈ c.buckets, b = 0

instance (c : VelocityControl) : Decidable c.Empty :=
  inferInstanceAs (Decidable (∀ b ∈ c.buckets, b = 0))

/-- The time, in seconds, at which an event looks at a velocity control. -/
def HostEvent.time {size : Nat} : HostEvent size → Option Nat
  | .request event => event.adds.map fun payment => durationAsSecs payment.1
  | .onchainTx now _ => some (durationAsSecs now)
  | .restart _ => none

/-- Two states with the same velocity controls. -/
structure NodeState.SameControls (s s' : NodeState) : Prop where
  velocity : s'.velocityControl = s.velocityControl
  fee : s'.feeVelocityControl = s.feeVelocityControl

namespace NodeState

variable {o : Overflow} {v : Validator} {s s' : NodeState}

theorem SameControls.refl (s : NodeState) : s.SameControls s := ⟨rfl, rfl⟩

theorem sameControls_of_applyPayments {channelId : ChannelId}
    {incoming outgoing : EnforcementState.Summary} {delta : BalanceDelta}
    (h : applyPayments o v s channelId incoming outgoing delta = .ok s') : s.SameControls s' := by
  obtain ⟨flags, -, h⟩ := bind_ok h
  obtain ⟨settled, -, h⟩ := bind_ok h
  cases h
  exact ⟨rfl, rfl⟩

theorem sameControls_of_fulfill {hash : PaymentHash} {preimage : PaymentPreimage}
    (h : s.fulfill o v hash preimage = .ok s') : s.SameControls s' := by
  unfold fulfill at h
  split at h
  · cases h
    exact .refl s
  · split_ifs at h
    · cases h
      exact .refl s
    · obtain ⟨totals, -, h⟩ := bind_ok h
      obtain ⟨excess, -, h⟩ := bind_ok h
      cases h
      exact ⟨rfl, rfl⟩

theorem sameControls_of_htlcsFulfilled {sha256 : Bytes32 → Bytes32}
    {preimages : List PaymentPreimage} (h : htlcsFulfilled o v sha256 s preimages = .ok s') :
    s.SameControls s' := by
  induction preimages generalizing s with
  | nil =>
    obtain rfl := Except.ok.inj h
    exact .refl s
  | cons preimage preimages ih =>
    obtain ⟨s₁, hfirst, hrest⟩ := bind_ok h
    have h₁ := sameControls_of_fulfill hfirst
    have h₂ := ih hrest
    exact ⟨h₂.velocity.trans h₁.velocity, h₂.fee.trans h₁.fee⟩

theorem sameControls_of_signInvoice {maxInvoices : Nat} {invoice : Invoice}
    (h : s.signInvoice maxInvoices invoice = .ok s') : s.SameControls s' := by
  unfold signInvoice at h
  split_ifs at h
  split at h
  · split_ifs at h
    cases h
    exact .refl s
  · cases h
    exact ⟨rfl, rfl⟩

theorem sameControls_of_prune {now : Nat} (h : s.prune o now = .ok s') : s.SameControls s' := by
  obtain ⟨s₁, h₁, h⟩ := bind_ok h
  obtain ⟨s₂, h₂, h₃⟩ := bind_ok h
  obtain ⟨prune, -, h₁⟩ := bind_ok h₁
  obtain rfl := pure_eq_ok.mp h₁
  obtain ⟨times, -, h₂⟩ := bind_ok h₂
  obtain rfl := pure_eq_ok.mp h₂
  obtain ⟨flags, -, h₃⟩ := bind_ok h₃
  obtain rfl := pure_eq_ok.mp h₃
  exact ⟨rfl, rfl⟩

end NodeState

namespace Node

variable (N : Node)

/-- What a step approves to be paid, with its bucket: the amount of a payment that is approved for
the first time. -/
def approved (x : HostEntry N.size) : List (Nat × Nat) :=
  match x.event, x.answer, x.before.memory with
  | .request event, .ok (.node (.added true)), some m =>
    match event.adds with
    | some (now, hash, state) =>
      if hash ∈ m.node.invoices then []
      else [(durationAsSecs now / N.policy.globalVelocityControl.interval, state.amountMsat)]
    | none => []
  | _, _, _ => []

/-- What a step spends in on-chain fees, with its bucket: what an accepted transaction spends
without benefit. -/
def spentFees (x : HostEntry N.size) : List (Nat × Nat) :=
  match x.event, x.answer with
  | .onchainTx now nonBeneficialSat, .ok _ =>
    [(durationAsSecs now / N.policy.feeVelocityControl.interval, nonBeneficialSat * 1000)]
  | _, _ => []

/-- A step that ends the process does so while both controls hold nothing, and the fee of a
transaction fits in a word where overflow is not checked. -/
structure Harmless (x : HostEntry N.size) : Prop where
  ended : ((∃ sync, x.event = .restart sync) ∨ x.after.memory = none) →
    ∀ m ∈ x.before.memory, m.node.velocityControl.Empty ∧ m.node.feeVelocityControl.Empty
  fee : ∀ now nonBeneficialSat, x.event = .onchainTx now nonBeneficialSat →
    N.overflow = .checked ∨ nonBeneficialSat * 1000 < 2 ^ 64

/-- The control that a host has in memory, or will start with. -/
def control (spec : VelocityControlSpec) (select : NodeState → VelocityControl)
    (host : NodeHost N.size) : VelocityControl :=
  match host.memory with
  | some m => select m.node
  | none => .new spec

variable {N} {s s' : NodeState} {event : NodeEvent N.size}

/-- An event that approves nothing leaves both velocity controls, and one that does leaves that of
fees. -/
theorem Moved.controls (hmoved : N.Moved s event s') :
    s.SameControls s' ∨ event.adds.isSome ∧ s'.feeVelocityControl = s.feeVelocityControl := by
  cases hmoved with
  | kept event => exact .inl (.refl s)
  | applied h => exact .inl (sameControls_of_applyPayments h)
  | fulfilled h => exact .inl (sameControls_of_htlcsFulfilled h)
  | added hevent hadded =>
    right
    refine ⟨by rw [hevent]; rfl, ?_⟩
    cases hadded with
    | known _ => rfl
    | exceeded _ _ => rfl
    | approved _ _ => rfl
  | invoiceSigned h => exact .inl (sameControls_of_signInvoice h)
  | pruned h => exact .inl (sameControls_of_prune h)

theorem controls_of_restoreNode {disk : NodeDisk N.size} {m : NodeMemory N.size}
    (h : N.restoreNode disk = .ok m) :
    m.node.velocityControl = .new N.policy.globalVelocityControl ∧
      m.node.feeVelocityControl = .new N.policy.feeVelocityControl := by
  have hsame := (restoreNode_ok h).1
  exact ⟨hsame.velocityControl, hsame.feeVelocityControl⟩

section Turns

open VelocityControl

variable {spec : VelocityControlSpec} {select : NodeState → VelocityControl} {time : Option Nat}
  {host : NodeHost N.size} {m : NodeMemory N.size} {now nonBeneficialSat : Nat}

theorem control_some (hmemory : host.memory = some m) :
    N.control spec select host = select m.node := by
  rw [control, hmemory]

theorem control_none (hmemory : host.memory = none) : N.control spec select host = .new spec := by
  rw [control, hmemory]

theorem empty_new (spec : VelocityControlSpec) : (new spec).Empty :=
  fun _ hb => List.eq_of_mem_replicate hb

/-- The control of a process that has ended, or started again, is a new one. -/
theorem turn_of_new {c c' : VelocityControl} (hnew : c' = .new spec) (hempty : c.Empty) :
    Turn spec N.overflow time c [] c' := by
  rw [hnew]
  exact .reset hempty

/-- A request that does not touch the control leaves it, unless it ends the process. -/
theorem turn_of_request (hmemory : host.memory = some m)
    (hselect : ∀ m', (N.step (some m) event).1 = some m' → select m'.node = select m.node)
    (hended : (N.hostStep host (.request event)).1.memory = none → (select m.node).Empty) :
    Turn spec N.overflow time (N.control spec select host) []
      (N.control spec select (N.hostStep host (.request event)).1) := by
  have hafter : (N.hostStep host (.request event)).1.memory = (N.step (some m) event).1 := by
    simp only [hostStep, hmemory]
  rw [control_some hmemory]
  rcases hstep : (N.step (some m) event).1 with _ | m'
  · rw [hafter] at hended
    exact turn_of_new (control_none (hafter.trans hstep)) (hended hstep)
  · rw [control_some (hafter.trans hstep), hselect m' hstep]
    exact .kept

/-- A restart starts the control over. -/
theorem turn_of_restart {sync : Bool}
    (hnew : ∀ m, N.restoreNode host.disk = .ok m → select m.node = .new spec)
    (hempty : ∀ m ∈ host.memory, (select m.node).Empty) :
    Turn spec N.overflow time (N.control spec select host) []
      (N.control spec select (N.hostStep host (.restart sync)).1) := by
  have hbefore : (N.control spec select host).Empty := by
    cases hmemory : host.memory with
    | none =>
      rw [control_none hmemory]
      exact empty_new spec
    | some m =>
      rw [control_some hmemory]
      exact hempty m hmemory
  refine turn_of_new ?_ hbefore
  cases hrestore : N.restoreNode host.disk with
  | error fault =>
    apply control_none
    simp only [hostStep, hrestore]
  | ok m =>
    have hmemory : (N.hostStep host (.restart sync)).1.memory = some m := by
      simp only [hostStep, hrestore]
    rw [control_some hmemory]
    exact hnew m hrestore

/-- A request to approve a payment counts it against the limit, unless it ends the process. -/
theorem turn_of_adds {now : Nat} {hash : PaymentHash} {state : PaymentState}
    (hmemory : host.memory = some m) (hadds : event.adds = some (now, hash, state))
    (hended : (N.hostStep host (.request event)).1.memory = none → m.node.velocityControl.Empty) :
    Turn N.policy.globalVelocityControl N.overflow (request event).time
      (N.control N.policy.globalVelocityControl (·.velocityControl) host)
      (N.approved (N.hostMachine.entry host (.request event)))
      (N.control N.policy.globalVelocityControl (·.velocityControl)
        (N.hostStep host (.request event)).1) := by
  have htime : (request event).time = some (durationAsSecs now) := by
    rw [time, hadds]
    rfl
  have hstep : N.hostStep host (.request event) =
      (⟨(N.step (some m) event).1, N.diskAfter host.disk m event⟩,
        (N.step (some m) event).2.map .node) := by
    simp only [hostStep, hmemory]
  rw [control_some hmemory]
  rcases serve_adds (m := m) hadds with ⟨fault, hserve⟩ | ⟨added, s, hserve, hadded⟩
  · have hnone : N.approved (N.hostMachine.entry host (.request event)) = [] := by
      have hanswer : (N.hostStep host (.request event)).2 = .error fault := by
        rw [hstep]
        simp only [step, hserve]
        cases fault <;> rfl
      simp only [approved, entry, hostMachine, hanswer]
    rw [hnone]
    cases fault with
    | abort text =>
      have hafter : (N.hostStep host (.request event)).1.memory = none := by
        rw [hstep]
        simp only [step, hserve]
      exact turn_of_new (control_none hafter) (hended hafter)
    | refuse refusal =>
      have hafter : (N.hostStep host (.request event)).1.memory = some m := by
        rw [hstep]
        simp only [step, hserve]
      rw [control_some hafter]
      exact .kept
  · have hafter : (N.hostStep host (.request event)).1.memory = some { m with node := s } := by
      rw [hstep]
      simp only [step, hserve]
    have hanswer : (N.hostStep host (.request event)).2 = .ok (.node (.added added)) := by
      rw [hstep]
      simp only [step, hserve]
      rfl
    rw [control_some hafter]
    cases hadded with
    | known hknown =>
      simp only [approved, entry, hostMachine, hanswer, hmemory, hadds, if_pos hknown]
      exact .kept
    | exceeded _ hinsert =>
      simp only [approved, entry, hostMachine, hanswer]
      exact .refused htime hinsert
    | approved hnew hinsert =>
      simp only [approved, entry, hostMachine, hanswer, hmemory, hadds, if_neg hnew]
      exact .added htime hinsert

theorem hostStep_onchainTx {r : Result Unit} {s : NodeState} (hmemory : host.memory = some m)
    (hexec : (checkOnchainFee N.overflow N.validator now nonBeneficialSat).exec m.node = (r, s)) :
    N.hostStep host (.onchainTx now nonBeneficialSat) =
      ({ host with memory := if isAborted r then none else some { m with node := s } },
        r.map fun _ => .onchainTx) := by
  simp only [hostStep, hmemory, onchainTx, hexec]

/-- The check of an on-chain transaction counts its fee against the limit, unless it ends the
process. -/
theorem turn_of_onchainTx (hmemory : host.memory = some m)
    (hfilter : N.validator.filter.filter "policy-onchain-fee-range" = .error)
    (hfits : N.overflow = .checked ∨ nonBeneficialSat * 1000 < 2 ^ 64)
    (hended : (N.hostStep host (.onchainTx now nonBeneficialSat)).1.memory = none →
      m.node.feeVelocityControl.Empty) :
    Turn N.policy.feeVelocityControl N.overflow
      (.onchainTx now nonBeneficialSat : HostEvent N.size).time
      (N.control N.policy.feeVelocityControl (·.feeVelocityControl) host)
      (N.spentFees (N.hostMachine.entry host (.onchainTx now nonBeneficialSat)))
      (N.control N.policy.feeVelocityControl (·.feeVelocityControl)
        (N.hostStep host (.onchainTx now nonBeneficialSat)).1) := by
  rcases hexec : (checkOnchainFee N.overflow N.validator now nonBeneficialSat).exec m.node
    with ⟨r, s⟩
  have hstep := hostStep_onchainTx hmemory hexec
  rw [control_some hmemory]
  rcases checkOnchainFee_exec hexec with ⟨fault, rfl, rfl⟩ |
    ⟨amount, fits, control, message, hamount, hinsert, rfl, rfl⟩
  · have hnone : N.spentFees (N.hostMachine.entry host (.onchainTx now nonBeneficialSat)) = [] := by
      simp only [spentFees, entry, hostMachine, hstep]
      rfl
    rw [hnone]
    cases fault with
    | abort text =>
      have hafter : (N.hostStep host (.onchainTx now nonBeneficialSat)).1.memory = none := by
        rw [hstep]
        rfl
      exact turn_of_new (control_none hafter) (hended hafter)
    | refuse refusal =>
      have hafter : (N.hostStep host (.onchainTx now nonBeneficialSat)).1.memory = some m := by
        rw [hstep]
        rfl
      rw [control_some hafter]
      exact .kept
  · obtain rfl := Overflow.eq_of_u64 hamount hfits
    have hafter : (N.hostStep host (.onchainTx now nonBeneficialSat)).1.memory =
        some { m with node := { m.node with feeVelocityControl := control } } := by
      rw [hstep]
      cases hr : N.validator.filter.policyErr (fits = false) "policy-onchain-fee-range"
          "check_onchain_tx" message with
      | ok u => rfl
      | error fault =>
        cases fault with
        | refuse refusal => rfl
        | abort text => exact absurd hr PolicyFilter.policyErr_ne_abort
    rw [control_some hafter]
    cases fits with
    | true =>
      rw [PolicyFilter.policyErr_of_not (by decide)] at hstep
      simp only [spentFees, entry, hostMachine, hstep]
      exact .added rfl hinsert
    | false =>
      rw [PolicyFilter.policyErr, if_pos rfl, PolicyFilter.policyError, if_pos hfilter] at hstep
      simp only [spentFees, entry, hostMachine, hstep]
      exact .refused rfl hinsert

/-- What a harmless step can do to the control of payments. -/
theorem payment_turn (host : NodeHost N.size) (event : HostEvent N.size)
    (hharmless : N.Harmless (N.hostMachine.entry host event)) :
    Turn N.policy.globalVelocityControl N.overflow event.time
      (N.control N.policy.globalVelocityControl (·.velocityControl) host)
      (N.approved (N.hostMachine.entry host event))
      (N.control N.policy.globalVelocityControl (·.velocityControl)
        (N.hostStep host event).1) := by
  cases event with
  | request event =>
    cases hmemory : host.memory with
    | none =>
      simp only [approved, entry, hostMachine, hostStep, hmemory]
      exact .kept
    | some m =>
      have hended (hafter : (N.hostStep host (.request event)).1.memory = none) :
          m.node.velocityControl.Empty :=
        (hharmless.ended (.inr hafter) m hmemory).1
      cases hadds : event.adds with
      | none =>
        have hnone : N.approved (N.hostMachine.entry host (.request event)) = [] := by
          unfold approved
          split
          · rename_i hevent _ _
            obtain rfl := request.inj hevent
            rw [hadds]
          · rfl
        rw [hnone]
        refine turn_of_request hmemory ?_ hended
        intro m' hstep
        rcases (step_moved hstep).controls with hsame | ⟨hsome, -⟩
        · exact hsame.velocity
        · rw [hadds] at hsome
          cases hsome
      | some payment => exact turn_of_adds hmemory hadds hended
  | onchainTx now nonBeneficialSat =>
    cases hmemory : host.memory with
    | none =>
      simp only [approved, entry, hostMachine, hostStep, hmemory]
      exact .kept
    | some m =>
      have hended (hafter : (N.hostStep host (.onchainTx now nonBeneficialSat)).1.memory = none) :
          m.node.velocityControl.Empty :=
        (hharmless.ended (.inr hafter) m hmemory).1
      rcases hexec : (checkOnchainFee N.overflow N.validator now nonBeneficialSat).exec
        m.node with ⟨r, s⟩
      obtain ⟨control, rfl⟩ := checkOnchainFee_frame hexec
      simp only [approved, entry]
      rw [control_some hmemory]
      by_cases haborted : isAborted r = true
      · have hafter : (N.hostStep host (.onchainTx now nonBeneficialSat)).1.memory = none := by
          rw [hostStep_onchainTx hmemory hexec]
          exact if_pos haborted
        exact turn_of_new (control_none hafter) (hended hafter)
      · have hafter : (N.hostStep host (.onchainTx now nonBeneficialSat)).1.memory =
            some { m with node := { m.node with feeVelocityControl := control } } := by
          rw [hostStep_onchainTx hmemory hexec]
          exact if_neg haborted
        rw [control_some hafter]
        exact .kept
  | restart sync =>
    exact turn_of_restart (fun m h => (controls_of_restoreNode h).1)
      fun m hm => (hharmless.ended (.inl ⟨sync, rfl⟩) m hm).1

/-- What a harmless step can do to the control of fees, where fees are limited. -/
theorem fee_turn (hfilter : N.validator.filter.filter "policy-onchain-fee-range" = .error)
    (host : NodeHost N.size) (event : HostEvent N.size)
    (hharmless : N.Harmless (N.hostMachine.entry host event)) :
    Turn N.policy.feeVelocityControl N.overflow event.time
      (N.control N.policy.feeVelocityControl (·.feeVelocityControl) host)
      (N.spentFees (N.hostMachine.entry host event))
      (N.control N.policy.feeVelocityControl (·.feeVelocityControl)
        (N.hostStep host event).1) := by
  cases event with
  | request event =>
    simp only [spentFees, entry]
    cases hmemory : host.memory with
    | none =>
      simp only [hostStep, hmemory]
      exact .kept
    | some m =>
      have hended (hafter : (N.hostStep host (.request event)).1.memory = none) :
          m.node.feeVelocityControl.Empty :=
        (hharmless.ended (.inr hafter) m hmemory).2
      refine turn_of_request hmemory ?_ hended
      intro m' hstep
      rcases (step_moved hstep).controls with hsame | ⟨-, hfee⟩
      · exact hsame.fee
      · exact hfee
  | onchainTx now nonBeneficialSat =>
    cases hmemory : host.memory with
    | none =>
      simp only [spentFees, entry, hostMachine, hostStep, hmemory]
      exact .kept
    | some m =>
      exact turn_of_onchainTx hmemory hfilter (hharmless.fee now nonBeneficialSat rfl) fun hafter =>
        (hharmless.ended (.inr hafter) m hmemory).2
  | restart sync =>
    exact turn_of_restart (fun m h => (controls_of_restoreNode h).2)
      fun m hm => (hharmless.ended (.inl ⟨sync, rfl⟩) m hm).2

end Turns

end Node

/-- A restarted node has the velocity controls it had exactly when they were new.  Over every run
with restarts in which the clock does not run backwards and the process only ends while the controls
hold nothing, what is approved over any span of the buckets stays within the limit, and so does what
is spent in fees where fees are limited. -/
theorem restart_keeps_limits (N : Node) :
    (∀ s stored m, N.restoreNode ⟨.ofState s, stored⟩ = .ok m →
      ((m.node.velocityControl.startSec = s.velocityControl.startSec ∧
          m.node.velocityControl.buckets = s.velocityControl.buckets) ∧
        (m.node.feeVelocityControl.startSec = s.feeVelocityControl.startSec ∧
          m.node.feeVelocityControl.buckets = s.feeVelocityControl.buckets) ↔
        (s.velocityControl.startSec = 0 ∧
          s.velocityControl.buckets = List.replicate N.policy.globalVelocityControl.size 0) ∧
        s.feeVelocityControl.startSec = 0 ∧
          s.feeVelocityControl.buckets = List.replicate N.policy.feeVelocityControl.size 0)) ∧
    ∀ values events, (events.filterMap HostEvent.time).Pairwise (· ≤ ·) →
      (∀ x ∈ N.hostMachine.trace (N.newHost values) events, N.Harmless x) → ∀ K,
      (N.policy.globalVelocityControl.limit < 2 ^ 64 - 1 →
        within ((N.hostMachine.trace (N.newHost values) events).flatMap N.approved)
          N.policy.globalVelocityControl.size K ≤ N.policy.globalVelocityControl.limit) ∧
      (N.policy.feeVelocityControl.limit < 2 ^ 64 - 1 →
        N.validator.filter.filter "policy-onchain-fee-range" = .error →
        within ((N.hostMachine.trace (N.newHost values) events).flatMap N.spentFees)
          N.policy.feeVelocityControl.size K ≤ N.policy.feeVelocityControl.limit) := by
  constructor
  · intro s stored m hrestore
    obtain ⟨hvelocity, hfee⟩ := Node.controls_of_restoreNode hrestore
    rw [hvelocity, hfee, new_eq, new_eq]
    constructor
    · rintro ⟨⟨h₁, h₂⟩, h₃, h₄⟩
      exact ⟨⟨h₁.symm, h₂.symm⟩, h₃.symm, h₄.symm⟩
    · rintro ⟨⟨h₁, h₂⟩, h₃, h₄⟩
      exact ⟨⟨h₁.symm, h₂.symm⟩, h₃.symm, h₄.symm⟩
  · intro values events hclock hharmless K
    constructor
    · intro hlimit
      obtain ⟨S, htracks, -⟩ := tracks_run (o := N.overflow) N.hostMachine
        (N.control N.policy.globalVelocityControl (·.velocityControl)) time N.approved rfl
        hlimit events hclock fun x hx => by
          obtain ⟨first, event, second, -, rfl⟩ := N.hostMachine.exists_of_mem_trace hx
          exact Node.payment_turn _ event (hharmless _ hx)
      exact htracks.limited K
    · intro hlimit hfilter
      obtain ⟨S, htracks, -⟩ := tracks_run (o := N.overflow) N.hostMachine
        (N.control N.policy.feeVelocityControl (·.feeVelocityControl)) time N.spentFees
          rfl
        hlimit events hclock fun x hx => by
          obtain ⟨first, event, second, -, rfl⟩ := N.hostMachine.exists_of_mem_trace hx
          exact Node.fee_turn hfilter _ event (hharmless _ hx)
      exact htracks.limited K

open Sample

/-- A node that may approve 150000 satoshi an hour. -/
def Sample.limitedSigner : Node :=
  signer ⟨{ makeSimplePolicy .bitcoin with globalVelocityControl := ⟨150000000, .hourly⟩ },
    .checked, library, checks⟩ setup 1 (by decide)

/-- The node restarts and approves an invoice of 100000 satoshi. -/
def Sample.restartAndApprove : List (HostEvent 1) :=
  [.restart false, .request (.addInvoice true 0 (invoice 100000000))]

/-- A restart before anything is approved does no harm. -/
theorem restart_keeps_limits_sample :
    within ((limitedSigner.hostMachine.trace (limitedSigner.newHost fun _ => 1000000)
      restartAndApprove).flatMap limitedSigner.approved)
      limitedSigner.policy.globalVelocityControl.size 0 ≤ 150000000 := by
  have hrun : ∀ x ∈ limitedSigner.hostMachine.trace
      (limitedSigner.newHost fun _ => 1000000) restartAndApprove,
      ((∃ sync, x.event = .restart sync) ∨ x.after.memory = none →
        ∀ m ∈ x.before.memory, m.node.velocityControl.Empty ∧ m.node.feeVelocityControl.Empty) := by
    decide +kernel
  exact ((restart_keeps_limits limitedSigner).2 (fun _ => 1000000) restartAndApprove
    (by decide) (fun x hx => ⟨hrun x hx, fun _ _ _ => .inl rfl⟩) 0).1 (by decide)

/-- Two invoices of 100000 satoshi are approved at the same time, with a restart between them. -/
def Sample.approveTwice : List (HostEvent 1) :=
  [.request (.addInvoice true 0 (invoice 100000000)), .restart false,
    .request (.addInvoice true 0 { invoice 100000000 with paymentHash := 1 })]

/-- A restart forgets what was approved, and the limit is exceeded. -/
theorem restart_exceeds_limit :
    (approveTwice.filterMap HostEvent.time).Pairwise (· ≤ ·) ∧
    (∃ m ∈ (limitedSigner.hostMachine.final
        (limitedSigner.newHost fun _ => 1000000) (approveTwice.take 1)).memory,
      ∃ m' ∈ (limitedSigner.restoreNode ⟨.ofState m.node, m.stored⟩).toOption,
        m'.node.velocityControl.buckets ≠ m.node.velocityControl.buckets) ∧
    limitedSigner.policy.globalVelocityControl.limit <
      within ((limitedSigner.hostMachine.trace
        (limitedSigner.newHost fun _ => 1000000) approveTwice).flatMap
        limitedSigner.approved) limitedSigner.policy.globalVelocityControl.size
          0 := by
  decide +kernel

end ValidatingSigner
