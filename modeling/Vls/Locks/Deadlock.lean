import Vls.Base.Lock

/-!
# When the calls of a node can wait for each other for ever

Most calls take the locks of a node in one order: the tracker, the channels, one channel, the
payment state.  A call that creates a channel and one that signs an on-chain transaction take the
tracker while they hold the channels.  Calls of both kinds at the same time can get into a deadlock,
and only these.
-/

namespace ValidatingSigner

open Base LockAction LockConfig

/-!
## The locks of a node

Where a call takes a lock depends on what it finds, so it is given with the path that it takes.
-/

/-- The locks of a node. -/
inductive NodeLock where
  | tracker
  | channels
  | slot (channel : Nat)
  | state
  deriving DecidableEq

/-- How `new_channel` ends. -/
inductive NewChannelPath where
  /-- There are too many channels. -/
  | full
  /-- There is a channel with this identifier. -/
  | existing (channel : Nat)
  | created
  deriving DecidableEq

/-- How `ready_channel` ends. -/
inductive ReadyChannelPath where
  /-- There is no channel with this identifier. -/
  | missing
  /-- The channel is ready already, or its setup is refused. -/
  | unchanged (channel : Nat)
  | readied (channel : Nat)
  deriving DecidableEq

/-- The calls that may run at the same time on a node. -/
inductive NodeCall where
  | newChannel (path : NewChannelPath)
  | readyChannel (path : ReadyChannelPath)
  /-- Looks at every channel for stubs that are to be dropped. -/
  | getHeartbeat (channels : List Nat)
  /-- Searches channels for each output and looks at those that it finds; then accounts for the fee,
  unless the transaction is refused. -/
  | checkOnchainTx (searched found : List Nat) (stateLocks : Nat)
  /-- Searches channels for each output and, if it can sign, tells those that it finds. -/
  | uncheckedSignOnchainTx (searched : List Nat) (found : Option (List Nat))
  /-- Sums over the channels, those that are ready with the payments. -/
  | channelBalance (channels : List (Nat × Bool))
  /-- Adds, removes or streams a block, or reads the chain. -/
  | processBlock
  /-- Works on invoices and payments. -/
  | invoiceOperation (stateLocks : Nat)
  /-- Looks up a channel and works on it, if there is one. -/
  | withReadyChannel (found : Option (Nat × Nat))
  deriving DecidableEq

namespace NodeCall

/-- Lock channels one after the other. -/
def eachSlot (channels : List Nat) : List (LockAction NodeLock) :=
  channels.flatMap fun channel => locked (.slot channel) []

/-- Lock the payment state some number of times. -/
def stateLocked (times : Nat) : List (LockAction NodeLock) :=
  (List.replicate times ()).flatMap fun _ => locked .state []

/-- What a call does with the locks. -/
def program : NodeCall → List (LockAction NodeLock)
  | newChannel path => locked .channels (match path with
    | .full => []
    | .existing channel => locked (.slot channel) []
    | .created => locked .tracker [])
  | readyChannel path => locked .tracker (match path with
    | .missing => locked .channels []
    | .unchanged channel => locked .channels (locked (.slot channel) [])
    | .readied channel => locked .channels (locked (.slot channel) []) ++ locked .channels [])
  | getHeartbeat channels =>
    locked .state [] ++ locked .tracker (locked .channels (eachSlot channels))
  | checkOnchainTx searched found stateLocks =>
    locked .channels (eachSlot searched ++ eachSlot found) ++ stateLocked stateLocks
  | uncheckedSignOnchainTx searched found =>
    locked .channels (eachSlot searched ++ match found with
      | none => []
      | some found => locked .tracker (eachSlot found))
  | channelBalance channels => locked .channels (channels.flatMap fun channel =>
      locked (.slot channel.1) (if channel.2 then locked .state [] else []))
  | processBlock => locked .tracker []
  | invoiceOperation stateLocks => stateLocked stateLocks
  | withReadyChannel found => locked .channels [] ++ match found with
      | none => []
      | some (channel, stateLocks) => locked (.slot channel) (stateLocked stateLocks)

/-- Whether the call takes the tracker while it holds the channels. -/
def trackerInChannels : NodeCall → Bool
  | newChannel .created => true
  | uncheckedSignOnchainTx _ (some _) => true
  | _ => false

/-- Whether the call takes the channels while it holds the tracker. -/
def channelsInTracker : NodeCall → Bool
  | readyChannel _ => true
  | getHeartbeat _ => true
  | _ => false

end NodeCall

/-- The order in which locks are taken, with the tracker before or after the channels. -/
def NodeLock.rank (trackerFirst : Bool) : NodeLock → Nat
  | tracker => if trackerFirst then 0 else 1
  | channels => if trackerFirst then 1 else 0
  | slot _ => 2
  | state => 3

namespace NodeCall

variable {trackerFirst : Bool} {held : List NodeLock} {call : NodeCall}

theorem scoped_slot (h : ∀ other ∈ held, other.rank trackerFirst < 2) (channel : Nat) :
    Scoped (NodeLock.rank trackerFirst) held (locked (.slot channel) []) :=
  .locked h .nil

theorem scoped_eachSlot (h : ∀ other ∈ held, other.rank trackerFirst < 2) (channels : List Nat) :
    Scoped (NodeLock.rank trackerFirst) held (eachSlot channels) :=
  .flatMap fun channel _ => scoped_slot h channel

theorem scoped_state (h : ∀ other ∈ held, other.rank trackerFirst < 3) :
    Scoped (NodeLock.rank trackerFirst) held (locked .state []) :=
  .locked h .nil

theorem scoped_stateLocked (h : ∀ other ∈ held, other.rank trackerFirst < 3) (times : Nat) :
    Scoped (NodeLock.rank trackerFirst) held (stateLocked times) :=
  .flatMap fun _ _ => scoped_state h

/-- A call takes the locks in the order that its kind allows. -/
theorem scoped_program (trackerFirst : Bool)
    (h : if trackerFirst then call.trackerInChannels = false else call.channelsInTracker = false) :
    Scoped (NodeLock.rank trackerFirst) [] call.program := by
  have hnil (lock : NodeLock) : ∀ other ∈ ([] : List NodeLock),
      other.rank trackerFirst < lock.rank trackerFirst :=
    fun _ hother => absurd hother List.not_mem_nil
  have hchannels : ∀ other ∈ [NodeLock.channels], other.rank trackerFirst < 2 := by
    cases trackerFirst <;> decide
  cases call with
  | newChannel path =>
    refine .locked (hnil _) ?_
    cases path with
    | full => exact .nil
    | existing channel => exact scoped_slot hchannels channel
    | created =>
      cases trackerFirst with
      | false => exact .locked (by decide) .nil
      | true => cases h
  | readyChannel path =>
    cases trackerFirst with
    | false => cases h
    | true =>
      refine .locked (hnil _) ?_
      have hslot : ∀ other ∈ [NodeLock.channels, .tracker], other.rank true < 2 := by decide
      cases path with
      | missing => exact .locked (by decide) .nil
      | unchanged channel => exact .locked (by decide) (scoped_slot hslot channel)
      | readied channel =>
        exact .append (.locked (by decide) (scoped_slot hslot channel)) (.locked (by decide) .nil)
  | getHeartbeat channels =>
    cases trackerFirst with
    | false => cases h
    | true =>
      refine .append (scoped_state (hnil .state)) (.locked (hnil _) (.locked (by decide) ?_))
      exact scoped_eachSlot (by decide) channels
  | checkOnchainTx searched found stateLocks =>
    refine .append (.locked (hnil _) ?_) (scoped_stateLocked (hnil .state) stateLocks)
    exact .append (scoped_eachSlot hchannels searched) (scoped_eachSlot hchannels found)
  | uncheckedSignOnchainTx searched found =>
    refine .locked (hnil _) (.append (scoped_eachSlot hchannels searched) ?_)
    cases found with
    | none => exact .nil
    | some found =>
      cases trackerFirst with
      | false => exact .locked (by decide) (scoped_eachSlot (by decide) found)
      | true => cases h
  | channelBalance channels =>
    refine .locked (hnil _) (.flatMap fun channel _ => .locked hchannels ?_)
    split_ifs
    · refine scoped_state ?_
      cases trackerFirst <;> simp [NodeLock.rank]
    · exact .nil
  | processBlock => exact .locked (hnil _) .nil
  | invoiceOperation stateLocks => exact scoped_stateLocked (hnil .state) stateLocks
  | withReadyChannel found =>
    refine .append (.locked (hnil _) .nil) ?_
    cases found with
    | none => exact .nil
    | some found =>
      refine .locked (hnil _) (scoped_stateLocked ?_ found.2)
      simp [NodeLock.rank]

/-! ## Calls that hold one lock and take another -/

/-- The call gets to where it holds just one lock and takes another, which it has not taken before.
-/
def GetsTo (call : NodeCall) (held next : NodeLock) : Prop :=
  ∃ first rest, call.program = first ++ .acquire next :: rest ∧ after [] first = [held] ∧
    Ordered (NodeLock.rank true) [] first ∧ .acquire next ∉ first

theorem acquire_tracker_notMem_eachSlot (channels : List Nat) :
    .acquire .tracker ∉ eachSlot channels := by
  intro hmem
  obtain ⟨channel, -, hmem⟩ := List.mem_flatMap.mp hmem
  simp [locked] at hmem

theorem getsTo_tracker (h : call.trackerInChannels = true) : call.GetsTo .channels .tracker := by
  have hfirst (searched : List Nat) :
      after [] (.acquire .channels :: eachSlot searched) = [NodeLock.channels] ∧
        Ordered (NodeLock.rank true) [] (.acquire .channels :: eachSlot searched) ∧
          .acquire .tracker ∉ .acquire NodeLock.channels :: eachSlot searched := by
    have hscoped : Scoped (NodeLock.rank true) [.channels] (eachSlot searched) :=
      scoped_eachSlot (by decide) searched
    refine ⟨hscoped.after, ⟨fun _ hother => absurd hother List.not_mem_nil, hscoped.ordered⟩, ?_⟩
    rw [List.mem_cons, not_or]
    exact ⟨by decide, acquire_tracker_notMem_eachSlot searched⟩
  match call, h with
  | newChannel .created, _ =>
    exact ⟨[.acquire .channels], [.release .tracker, .release .channels], rfl, hfirst []⟩
  | uncheckedSignOnchainTx searched (some found), _ =>
    refine ⟨.acquire .channels :: eachSlot searched,
      eachSlot found ++ [.release .tracker, .release .channels], ?_, hfirst searched⟩
    simp [program, locked]

theorem getsTo_channels (h : call.channelsInTracker = true) : call.GetsTo .tracker .channels := by
  have hnil (lock : NodeLock) :
      ∀ other ∈ ([] : List NodeLock), other.rank true < lock.rank true :=
    fun _ hother => absurd hother List.not_mem_nil
  match call, h with
  | readyChannel path, _ =>
    have hrest : ∃ rest, (readyChannel path).program =
        [.acquire .tracker] ++ .acquire .channels :: rest := by
      cases path with
      | missing => exact ⟨_, rfl⟩
      | unchanged channel => exact ⟨_, rfl⟩
      | readied channel => exact ⟨_, rfl⟩
    obtain ⟨rest, hrest⟩ := hrest
    exact ⟨[.acquire .tracker], rest, hrest, rfl, ⟨hnil _, trivial⟩, by decide⟩
  | getHeartbeat channels, _ =>
    have hordered : Ordered (NodeLock.rank true) [] (locked .state [] ++ [.acquire .tracker]) :=
      ordered_append.mpr ⟨(scoped_state (hnil .state)).ordered, hnil _, trivial⟩
    exact ⟨locked .state [] ++ [.acquire .tracker], _, rfl, rfl, hordered, by decide⟩

/-- A call that takes the tracker inside the channels and one that takes the channels inside the
tracker can get into a deadlock. -/
theorem exists_deadlocked {n : Nat} {calls : Fin n → NodeCall} {i j : Fin n}
    (hi : (calls i).trackerInChannels = true) (hj : (calls j).channelsInTracker = true) :
    ∃ c, Reachable (fun k => (calls k).program) c ∧ c.Deadlocked := by
  have hne : j ≠ i := by
    rintro rfl
    match calls j, hi, hj with
    | newChannel .created, _, hj => cases hj
    | uncheckedSignOnchainTx _ (some _), _, hj => cases hj
  obtain ⟨first, rest, hprogram, hafter, hordered, hother⟩ := getsTo_tracker hi
  obtain ⟨first', rest', hprogram', hafter', hordered', -⟩ := getsTo_channels hj
  let c₀ : LockConfig (Fin n) NodeLock := start fun k => (calls k).program
  let c₁ := Function.update c₀ j ⟨[.tracker], .acquire .channels :: rest'⟩
  let c₂ := Function.update c₁ i ⟨[.channels], .acquire .tracker :: rest⟩
  have hj₁ : c₁ j = ⟨[.tracker], .acquire .channels :: rest'⟩ := Function.update_self ..
  have hother₁ (k : Fin n) (hk : k ≠ j) : c₁ k = ⟨[], (calls k).program⟩ :=
    Function.update_of_ne hk _ _
  have hi₂ : c₂ i = ⟨[.channels], .acquire .tracker :: rest⟩ := Function.update_self ..
  have hj₂ : c₂ j = ⟨[.tracker], .acquire .channels :: rest'⟩ :=
    (Function.update_of_ne hne _ _).trans hj₁
  have h₁ : machine.final c₀ (List.replicate first'.length j) = c₁ := by
    have hstart : c₀ j = ⟨[], first' ++ .acquire .channels :: rest'⟩ := by
      rw [← hprogram']
      rfl
    rw [final_replicate hstart hordered'
      fun _ _ _ _ hmem => absurd hmem List.not_mem_nil, hafter']
  have h₂ : machine.final c₁ (List.replicate first.length i) = c₂ := by
    have hstart : c₁ i = ⟨[], first ++ .acquire .tracker :: rest⟩ := by
      rw [← hprogram]
      exact hother₁ i hne.symm
    rw [final_replicate hstart hordered, hafter]
    intro lock hlock k hk hmem
    by_cases hkj : k = j
    · rw [hkj, hj₁] at hmem
      obtain rfl := List.mem_singleton.mp hmem
      exact hother hlock
    · rw [hother₁ k hkj] at hmem
      exact absurd hmem List.not_mem_nil
  refine ⟨c₂, ⟨_, by rw [machine.final_append, h₁, h₂]⟩, {i, j}, ⟨i, .inl rfl⟩, ?_⟩
  rintro k (rfl | rfl)
  · exact ⟨j, .inr rfl, hne, .tracker, rest, by rw [hi₂], by rw [hj₂]; exact List.mem_cons_self⟩
  · exact ⟨i, .inl rfl, hne.symm, .channels, rest', by rw [hj₂],
      by rw [hi₂]; exact List.mem_cons_self⟩

end NodeCall

/-- Calls on one node cannot get into a deadlock, in any interleaving, exactly when no call takes
the tracker inside the channels or no call takes the channels inside the tracker. -/
theorem node_calls_deadlock_free_iff {n : Nat} (calls : Fin n → NodeCall) :
    (∀ c, LockConfig.Reachable (fun i => (calls i).program) c → ¬ c.Deadlocked) ↔
      (∀ i, (calls i).trackerInChannels = false) ∨ ∀ i, (calls i).channelsInTracker = false := by
  constructor
  · intro hfree
    by_contra hboth
    rw [not_or, not_forall, not_forall] at hboth
    obtain ⟨⟨i, hi⟩, j, hj⟩ := hboth
    obtain ⟨c, hc, hdeadlocked⟩ := NodeCall.exists_deadlocked
      (Bool.eq_true_of_not_eq_false hi) (Bool.eq_true_of_not_eq_false hj)
    exact hfree c hc hdeadlocked
  · rintro (h | h) c hc
    · exact hc.not_deadlocked fun i => (NodeCall.scoped_program true (h i)).ordered
    · exact hc.not_deadlocked fun i => (NodeCall.scoped_program false (h i)).ordered

namespace Sample

/-- One call creates a channel while another makes a channel ready. -/
def newAndReady (i : Fin 2) : NodeCall :=
  if i = 0 then .newChannel .created else .readyChannel (.readied 0)

end Sample

/-- Of a call that creates a channel and one that makes another channel ready, each can hold the
lock that the other waits for. -/
theorem node_calls_deadlock :
    ∃ c, LockConfig.Reachable (fun i => (Sample.newAndReady i).program) c ∧ c.Deadlocked := by
  have hnew : (Sample.newAndReady 0).trackerInChannels = true := rfl
  have hready : (Sample.newAndReady 1).channelsInTracker = true := rfl
  exact NodeCall.exists_deadlocked hnew hready

end ValidatingSigner
