import Mathlib.Data.List.ReduceOption
import Vls.Keys.Invariant

/-!
# Channel keys survive restarts

Over every run in which a channel's keys are always derived at one index, or in a style that does
not read the index, all signers with one identifier of keys have the same keys, and every restart
brings back every stored channel.
-/

namespace ValidatingSigner

open Base Effect List

variable {ξ : Type}

/-- One step in the life of a node. -/
abbrev KeyEntry (ξ : Type) := Entry (KeyHost ξ) KeyEvent KeyReply

/-- The signers that a step hands out, signs with or leaves in memory. -/
def KeyEntry.signers (x : KeyEntry ξ) : List KeyedSigner := x.answer.signers ++ x.after.signers

/-- The event does not give a channel the first identifier of another channel. -/
def KeyHost.Separate (host : KeyHost ξ) : KeyEvent → Prop
  | .readyChannel channelId0 (some id) _ _ => id = channelId0 ∨ id ∉ host.store
  | _ => True

instance (host : KeyHost ξ) (event : KeyEvent) : Decidable (host.Separate event) :=
  match event with
  | .readyChannel channelId0 (some id) _ _ =>
    inferInstanceAs (Decidable (id = channelId0 ∨ id ∉ host.store))
  | .readyChannel _ none _ _ => isTrue trivial
  | .newChannel _ _ => isTrue trivial
  | .pruneChannels _ => isTrue trivial
  | .spendOutputs _ _ => isTrue trivial
  | .restart _ _ _ => isTrue trivial

namespace KeyNode

/-- What a step keeps: a restart succeeds, every stored channel is in memory with keys of its own
identifier, stored channels are only lost by pruning, and a channel that is created is stored. -/
structure KeepsChannels (N : KeyNode ξ) (x : KeyEntry ξ) : Prop where
  restarted : ∀ secs nanos blockheight, x.event = .restart secs nanos blockheight →
    x.after.memory ≠ none
  present : ∀ memory ∈ x.after.memory, ∀ id0 ∈ x.after.store, ∃ slot,
    memory.channels.lookup id0 = some slot ∧ slot.id0 = id0 ∧
      slot.signer.channelKeysId = N.keysId id0
  stored : ∀ id0 ∈ x.before.store, id0 ∉ x.after.store →
    ∃ currentBlockheight, x.event = .pruneChannels currentBlockheight
  created : ∀ channelId slot, x.answer = .channel (.ok (channelId, slot)) →
    (∃ memory ∈ x.before.memory, memory.channels.lookup channelId = some slot) ∨
      channelId ∈ x.after.store

/-- The node keeps the keys of its channels, whether it runs or not. -/
structure Kept (N : KeyNode ξ) (masterKey : ξ) (indexOf : Bytes32 → Nat) (host : KeyHost ξ) :
    Prop where
  reloadable : N.Reloadable masterKey indexOf host.store
  loaded : ∀ memory ∈ host.memory, N.Loaded masterKey indexOf
    (fun id0 entry => host.store.lookup id0 = some entry) memory

/-! ## Calls -/

section Calls

variable {N : KeyNode ξ} {masterKey : ξ} {indexOf : Bytes32 → Nat} {s s' : KeyState ξ}
  {event : KeyEvent} {optChannelId : Option ChannelId}

/-- The state that a call leaves is sound, it hands out signers that have their keys, and stored
channels are only lost by pruning. -/
structure SoundCall (N : KeyNode ξ) (masterKey : ξ) (indexOf : Bytes32 → Nat) (event : KeyEvent)
    (s s' : KeyState ξ) (signers : List KeyedSigner) : Prop where
  sound : N.Sound masterKey indexOf s'
  signers : ∀ signer ∈ signers, N.Keyed masterKey indexOf signer
  stored : ∀ id0 ∈ s.store, id0 ∉ s'.store →
    ∃ currentBlockheight, event = .pruneChannels currentBlockheight

theorem SoundCall.untouched {signers : List KeyedSigner} (h : N.Sound masterKey indexOf s)
    (huntouched : Untouched s s')
    (hsigners : ∀ signer ∈ signers, N.Keyed masterKey indexOf signer) :
    N.SoundCall masterKey indexOf event s s' signers := by
  constructor
  · exact h.untouched huntouched
  · exact hsigners
  · intro id0 hid0 hlost
    rw [huntouched.store] at hlost
    exact absurd hid0 hlost

theorem NewChannel.sound {blockheight : Nat} {r : Result (ChannelId × ChannelSlot)}
    (hcall : N.NewChannel s optChannelId s' r) (h : N.Sound masterKey indexOf s)
    (hagrees : ∀ d ∈ N.callDerivations s.memory (.newChannel optChannelId blockheight),
      N.Agrees masterKey indexOf d) :
    N.SoundCall masterKey indexOf event s s' (KeyReply.channel r).signers := by
  cases hcall with
  | failed huntouched => exact .untouched h huntouched nofun
  | found huntouched hold =>
    refine .untouched h huntouched fun signer hsigner => ?_
    rw [mem_singleton.mp hsigner]
    exact h.loaded.signers _ _ hold
  | @made channelId manager manager' signer height hchosen hroom hnew hderived hstate =>
    obtain ⟨hkeys, hindex⟩ := chooseChannelId_ok hchosen
    have hmaster : manager.masterKey = masterKey := hkeys.masterKey.trans h.loaded.master
    have hbase := hkeys.channelSeedBase.trans h.loaded.seedBase
    have hat : N.Agrees masterKey indexOf (N.keysId channelId, manager.lndBasepointIndex) := by
      apply hagrees
      rw [callDerivations, hchosen]
      simp only [if_pos (And.intro hroom hnew), hindex, mem_singleton]
    obtain ⟨hkeys, -, hid, hadvanced⟩ := getChannelKeysWithKeysId_eq_ok.mp hderived
    have hid : signer.channelKeysId = N.keysId channelId := by rw [hid, hbase, keysId]
    have hkeyed : N.Keyed masterKey indexOf signer := by
      rw [Keyed, hid, ← hat, ← hkeys, hbase, hmaster]
      rfl
    rw [hstate]
    constructor
    · exact h.made (by rw [hadvanced, hmaster]) (by rw [hadvanced, hbase]) hkeyed hid hnew
    · intro other hother
      rw [mem_singleton.mp hother]
      exact hkeyed
    · intro id0 hid0 hlost
      exact absurd ((AList.mem_insert _).mpr (.inr hid0)) hlost

theorem ReadyChannel.sound {channelId0 : ChannelId} {r : Result ChannelSlot}
    (hcall : ReadyChannel s channelId0 optChannelId s' r) (h : N.Sound masterKey indexOf s)
    (hpermanent : ∀ id, optChannelId = some id → id = channelId0 ∨ id ∉ s.store) :
    N.SoundCall masterKey indexOf event s s' (KeyReply.ready r).signers := by
  cases hcall with
  | failed huntouched => exact .untouched h huntouched nofun
  | found huntouched hold =>
    refine .untouched h huntouched fun signer hsigner => ?_
    rw [mem_singleton.mp hsigner]
    exact h.loaded.signers _ _ hold
  | made hold hstored hstate =>
    rw [hstate]
    constructor
    · exact h.ready hold hstored hpermanent
    · intro other hother
      have hkeyed := h.loaded.signers _ _ hold
      rw [mem_singleton.mp hother]
      exact hkeyed
    · intro id0 hid0 hlost
      exact absurd ((AList.mem_insert _).mpr (.inr hid0)) hlost

theorem spendOutputs_sound {descriptors : List SpendableOutputDescriptor} {affordable : Bool}
    {r : Result (List (Option KeyedSigner))} (h : N.Sound masterKey indexOf s)
    (hagrees : ∀ d ∈ N.callDerivations s.memory (.spendOutputs descriptors affordable),
      N.Agrees masterKey indexOf d)
    (hexec : exec (N.spendOutputs descriptors affordable) s = (r, s')) :
    N.SoundCall masterKey indexOf event s s' (KeyReply.spent r).signers := by
  rw [spendOutputs, exec_get_bind, exec_lift_bind_iff] at hexec
  obtain ⟨e, -, rfl, rfl⟩ | ⟨⟨signers, manager⟩, hspend, hexec⟩ := hexec
  · exact .untouched h (.refl s') nofun
  simp only [exec_set_bind, exec_pure, Prod.mk.injEq] at hexec
  obtain ⟨rfl, rfl⟩ := hexec
  obtain ⟨inputValue, hsum, hspend⟩ := bind_ok hspend
  obtain ⟨_, hpaid, hspend⟩ := bind_ok hspend
  rw [refuseIf_eq_ok, Bool.not_eq_false] at hpaid
  simp only [callDerivations, hsum, hpaid, if_true] at hagrees
  have hderived : ∀ signer : KeyedSigner, ∀ index, (signer.channelKeysId, index) ∈
      inputDerivations descriptors none s.memory.manager.lndBasepointIndex →
      N.keysAt s.memory.manager.masterKey signer.channelKeysId index = .ok signer.keys →
      N.Keyed masterKey indexOf signer := by
    intro signer index hmem hkeys
    rw [h.loaded.master] at hkeys
    exact (hagrees _ hmem).symm.trans hkeys
  obtain ⟨hsigners, index, hmanager⟩ := signInputs_ok nofun hderived hspend
  refine .untouched h ⟨rfl, rfl, ?_⟩ fun signer hsigner => ?_
  · rw [hmanager]
    exact ⟨rfl, rfl⟩
  · exact hsigners signer (reduceOption_mem_iff.mp hsigner)

theorem pruneChannels_sound (h : N.Sound masterKey indexOf s) (currentBlockheight : Nat) :
    N.SoundCall masterKey indexOf (.pruneChannels currentBlockheight) s
      (pruneChannels currentBlockheight s) [] := by
  constructor
  · exact h.pruned currentBlockheight
  · exact nofun
  · intro _ _ _
    exact ⟨currentBlockheight, rfl⟩

end Calls

/-! ## Steps -/

variable {manager : KeysManager ξ}

section Steps

variable {N : KeyNode ξ} {masterKey : ξ} {indexOf : Bytes32 → Nat} {host : KeyHost ξ}
  {event : KeyEvent}

/-- A call is answered by a node that is down, or it is executed; the node stops where the call
aborts. -/
theorem serve_cases {α : Type} (host : KeyHost ξ) (reply : Result α → KeyReply)
    (operation : Effect (KeyState ξ) Refusal α) :
    (host.memory = none ∧ host.serve reply operation = (host, .down)) ∨
      ∃ memory r s', host.memory = some memory ∧
        exec operation ⟨memory, host.store⟩ = (r, s') ∧
        (host.serve reply operation).2 = reply r ∧
        (host.serve reply operation).1.store = s'.store ∧
        ∀ m ∈ (host.serve reply operation).1.memory, m = s'.memory := by
  cases hmemory : host.memory with
  | none => exact .inl ⟨rfl, by rw [KeyHost.serve, hmemory]⟩
  | some memory =>
    rcases hexec : exec operation ⟨memory, host.store⟩ with ⟨r, s'⟩
    refine .inr ⟨memory, r, s', rfl, hexec, ?_⟩
    simp only [KeyHost.serve, hmemory, hexec]
    rcases r with (e | message) | a
    · exact ⟨rfl, rfl, fun m hm => (Option.some.inj hm).symm⟩
    · exact ⟨rfl, rfl, nofun⟩
    · exact ⟨rfl, rfl, fun m hm => (Option.some.inj hm).symm⟩

/-- A step leaves a node that keeps the keys, its answer hands out signers that have theirs, stored
channels are only lost by pruning, and a restart succeeds. -/
structure KeptStep (N : KeyNode ξ) (masterKey : ξ) (indexOf : Bytes32 → Nat) (host : KeyHost ξ)
    (event : KeyEvent) (next : KeyHost ξ × KeyReply) : Prop where
  kept : N.Kept masterKey indexOf next.1
  signers : ∀ signer ∈ next.2.signers, N.Keyed masterKey indexOf signer
  stored : ∀ id0 ∈ host.store, id0 ∉ next.1.store →
    ∃ currentBlockheight, event = .pruneChannels currentBlockheight
  restarted : ∀ secs nanos blockheight, event = .restart secs nanos blockheight →
    next.1.memory ≠ none

theorem derivations_of_memory {memory : KeyMemory ξ} (hmemory : host.memory = some memory) :
    ∀ d ∈ N.callDerivations memory event, d ∈ N.derivations host event := by
  intro d hd
  cases event with
  | restart secs nanos blockheight => exact absurd hd not_mem_nil
  | newChannel optChannelId blockheight =>
    simp only [derivations, hmemory]
    exact hd
  | readyChannel channelId0 optChannelId setup path => exact absurd hd not_mem_nil
  | pruneChannels currentBlockheight => exact absurd hd not_mem_nil
  | spendOutputs descriptors affordable =>
    simp only [derivations, hmemory]
    exact hd

/-- The signers in memory have their keys. -/
theorem Kept.signers (h : N.Kept masterKey indexOf host) :
    ∀ signer ∈ host.signers, N.Keyed masterKey indexOf signer := by
  intro signer hsigner
  rw [KeyHost.signers] at hsigner
  cases hmemory : host.memory with
  | none =>
    rw [hmemory] at hsigner
    exact absurd hsigner not_mem_nil
  | some memory =>
    rw [hmemory] at hsigner
    obtain ⟨entry, hentry, rfl⟩ := mem_map.mp hsigner
    exact (h.loaded memory hmemory).signers entry.1 entry.2 (AList.mem_lookup_iff.mpr hentry)

theorem Kept.present (h : N.Kept masterKey indexOf host) : ∀ memory ∈ host.memory,
    ∀ id0 ∈ host.store, ∃ slot, memory.channels.lookup id0 = some slot ∧ slot.id0 = id0 ∧
      slot.signer.channelKeysId = N.keysId id0 := by
  intro memory hmemory id0 hid0
  obtain ⟨entry, hentry⟩ := Option.isSome_iff_exists.mp (AList.lookup_isSome.mpr hid0)
  exact (h.loaded memory hmemory).channels id0 entry hentry

/-- A call that is served soundly keeps the keys. -/
theorem Kept.call {α : Type} {reply : Result α → KeyReply}
    {operation : Effect (KeyState ξ) Refusal α} (h : N.Kept masterKey indexOf host)
    (hagrees : ∀ d ∈ N.derivations host event, N.Agrees masterKey indexOf d)
    (hcall : ∀ secs nanos blockheight, event ≠ .restart secs nanos blockheight)
    (hsound : ∀ memory r s', N.Sound masterKey indexOf ⟨memory, host.store⟩ →
      (∀ d ∈ N.callDerivations memory event, N.Agrees masterKey indexOf d) →
      exec operation ⟨memory, host.store⟩ = (r, s') →
      N.SoundCall masterKey indexOf event ⟨memory, host.store⟩ s' (reply r).signers) :
    N.KeptStep masterKey indexOf host event (host.serve reply operation) := by
  obtain ⟨-, hserve⟩ | ⟨memory, r, s', hmemory, hexec, hreply, hstore, hafter⟩ :=
    serve_cases host reply operation
  · rw [hserve]
    exact ⟨h, nofun, fun _ hid0 hlost => absurd hid0 hlost, fun _ _ _ hevent =>
      absurd hevent (hcall _ _ _)⟩
  · obtain ⟨⟨hloaded, hreloadable⟩, hsigners, hstored⟩ :=
      hsound memory r s' ⟨h.loaded memory hmemory, h.reloadable⟩
        (fun d hd => hagrees d (derivations_of_memory hmemory d hd)) hexec
    refine ⟨⟨?_, fun m hm => ?_⟩, ?_, ?_, fun _ _ _ hevent => absurd hevent (hcall _ _ _)⟩
    · rw [hstore]
      exact hreloadable
    · rw [hstore, hafter m hm]
      exact hloaded
    · rw [hreply]
      exact hsigners
    · rw [hstore]
      exact hstored

/-- A step keeps the keys if every derivation agrees with the fixed indices. -/
theorem Kept.keyStep {secs nanos : Nat} (hstart : N.newManager secs nanos = .ok manager)
    (h : N.Kept manager.masterKey indexOf host) (hseparate : host.Separate event)
    (hagrees : ∀ d ∈ N.derivations host event, N.Agrees manager.masterKey indexOf d) :
    N.KeptStep manager.masterKey indexOf host event (N.keyStep host event) := by
  cases event with
  | newChannel optChannelId blockheight =>
    exact h.call hagrees nofun fun memory r s' hsound hagrees hexec =>
      (exec_newChannel hexec).sound hsound hagrees
  | readyChannel channelId0 optChannelId setup path =>
    refine h.call hagrees nofun fun memory r s' hsound hagrees hexec =>
      (exec_readyChannel hexec).sound hsound ?_
    intro id hid
    subst hid
    exact hseparate
  | pruneChannels currentBlockheight =>
    rw [KeyNode.keyStep]
    refine h.call hagrees nofun fun memory r s' hsound hagrees hexec => ?_
    cases hexec
    exact pruneChannels_sound hsound currentBlockheight
  | spendOutputs descriptors affordable =>
    exact h.call hagrees nofun fun memory r s' hsound hagrees hexec =>
      spendOutputs_sound hsound hagrees hexec
  | restart secs' nanos' blockheight =>
    obtain ⟨memory, hrestore, hloaded⟩ := restoreNode_total hstart h.reloadable secs'
      nanos' blockheight hagrees
    have hstep : N.keyStep host (.restart secs' nanos' blockheight) =
        (⟨some memory, host.store⟩, .done) := by
      simp only [KeyNode.keyStep, hrestore]
    rw [hstep]
    refine ⟨⟨h.reloadable, fun m hm => ?_⟩, nofun, fun _ hid0 hlost => absurd hid0 hlost,
      fun _ _ _ _ => nofun⟩
    cases hm
    exact hloaded

/-- A channel that is handed out was in memory, or it is stored. -/
theorem stored_of_created {channelId : ChannelId} {slot : ChannelSlot}
    (h : (N.keyStep host event).2 = .channel (.ok (channelId, slot))) :
    (∃ memory ∈ host.memory, memory.channels.lookup channelId = some slot) ∨
      channelId ∈ (N.keyStep host event).1.store := by
  have hother {α : Type} {reply : Result α → KeyReply} {operation : Effect (KeyState ξ) Refusal α}
      (hreply : ∀ r, reply r ≠ .channel (.ok (channelId, slot))) :
      (host.serve reply operation).2 ≠ .channel (.ok (channelId, slot)) := by
    obtain ⟨-, hserve⟩ | ⟨memory, r, s', -, -, hanswer, -, -⟩ := serve_cases host reply operation
    · rw [hserve]
      exact nofun
    · rw [hanswer]
      exact hreply r
  cases event with
  | newChannel optChannelId blockheight =>
    rw [keyStep] at h ⊢
    obtain ⟨-, hserve⟩ | ⟨memory, r, s', hmemory, hexec, hreply, hstore, -⟩ :=
      serve_cases host KeyReply.channel (N.newChannel optChannelId blockheight)
    · rw [hserve] at h
      cases h
    · rw [hreply] at h
      obtain rfl := KeyReply.channel.inj h
      rw [hstore]
      cases exec_newChannel hexec with
      | found huntouched hold => exact .inl ⟨memory, hmemory, hold⟩
      | made hchosen hroom hnew hderived hstate =>
        rw [hstate]
        exact .inr ((AList.mem_insert _).mpr (.inl rfl))
  | readyChannel channelId0 optChannelId setup path => exact absurd h (hother nofun)
  | pruneChannels currentBlockheight => exact absurd h (hother nofun)
  | spendOutputs descriptors affordable => exact absurd h (hother nofun)
  | restart secs nanos blockheight =>
    rw [keyStep] at h
    split at h <;> cases h

/-- A step whose derivations agree with the fixed indices keeps the keys and the channels. -/
theorem Kept.step {secs nanos : Nat} (hstart : N.newManager secs nanos = .ok manager)
    (h : N.Kept manager.masterKey indexOf host) (hseparate : host.Separate event)
    (hagrees : ∀ d ∈ N.derivations host event, N.Agrees manager.masterKey indexOf d) :
    N.Kept manager.masterKey indexOf (N.keyStep host event).1 ∧
      (∀ signer ∈ KeyEntry.signers (N.keyMachine.entry host event),
        N.Keyed manager.masterKey indexOf signer) ∧
      N.KeepsChannels (N.keyMachine.entry host event) := by
  obtain ⟨hkept, hsigners, hstored, hrestarted⟩ := h.keyStep hstart hseparate hagrees
  refine ⟨hkept, fun signer hsigner => ?_, ?_⟩
  · rcases mem_append.mp hsigner with hsigner | hsigner
    · exact hsigners signer hsigner
    · exact hkept.signers signer hsigner
  · constructor
    · exact hrestarted
    · exact hkept.present
    · exact hstored
    · intro channelId slot hanswer
      exact stored_of_created hanswer

end Steps

/-! ## Runs -/

/-- Derivations that never meet the same identifier at two indices, or whose style does not read the
index, agree with fixed indices. -/
theorem exists_index (N : KeyNode ξ) (masterKey : ξ) {derivations : List (Bytes32 × Nat)}
    (hindex : N.style = .lnd → ∀ d ∈ derivations, ∀ d' ∈ derivations, d.1 = d'.1 → d.2 = d'.2) :
    ∃ indexOf, ∀ d ∈ derivations, N.Agrees masterKey indexOf d := by
  refine ⟨fun keysId => ((derivations.find? (·.1 == keysId)).map Prod.snd).getD 0, fun d hd => ?_⟩
  by_cases hstyle : N.style = .lnd
  · cases hfind : derivations.find? (·.1 == d.1) with
    | none => exact absurd (find?_eq_none.mp hfind d hd) (by simp)
    | some d' =>
      have hsame : d'.1 = d.1 := by simpa using find?_some hfind
      have heq := hindex hstyle d' (mem_of_find?_eq_some hfind) d hd hsame
      rw [Agrees, hfind, Option.map_some, Option.getD_some, heq]
  · unfold Agrees KeyNode.keysAt KeyNode.derive
    cases h : N.style with
    | native => rfl
    | ldk => rfl
    | lnd => exact absurd h hstyle

theorem Kept.newKeyHost {N : KeyNode ξ} {secs nanos : Nat}
    (hstart : N.newManager secs nanos = .ok manager) (indexOf : Bytes32 → Nat) :
    N.Kept manager.masterKey indexOf (newKeyHost manager) := by
  refine ⟨⟨fun id0 hid0 => absurd hid0 (AList.notMem_empty id0), nofun, nofun⟩,
    fun memory hmemory => ?_⟩
  cases hmemory
  exact ⟨rfl, (newManager_ok hstart).2.1, nofun, nofun, nofun⟩

/-- Every run whose derivations agree with fixed indices keeps the keys and the channels. -/
theorem Kept.run {N : KeyNode ξ} {secs nanos : Nat} {indexOf : Bytes32 → Nat}
    (hstart : N.newManager secs nanos = .ok manager) (events : List KeyEvent)
    (hsteps : ∀ x ∈ N.keyMachine.trace (KeyNode.newKeyHost manager) events,
      x.before.Separate x.event ∧
      ∀ d ∈ N.derivations x.before x.event, N.Agrees manager.masterKey indexOf d) :
    ∀ x ∈ N.keyMachine.trace (KeyNode.newKeyHost manager) events,
      (∀ signer ∈ KeyEntry.signers x, N.Keyed manager.masterKey indexOf signer) ∧
        N.KeepsChannels x := by
  refine N.keyMachine.trace_induction (P := N.Kept manager.masterKey indexOf)
    (Kept.newKeyHost hstart indexOf) ?_ events hsteps
  intro host event hkept ⟨hevent, hderivations⟩
  exact hkept.step hstart hevent hderivations

end KeyNode

/-- Over every run in which no channel gets the first identifier of another and, in the style of
LND, the keys with one identifier are always derived at one index: all signers with one identifier
of keys have the same keys, every restart succeeds, and every stored channel is in memory with its
keys. -/
theorem channel_keys_survive_restart (N : KeyNode ξ) {secs nanos : Nat} {manager : KeysManager ξ}
    (hstart : N.newManager secs nanos = .ok manager) (events : List KeyEvent)
    (hseparate : ∀ x ∈ N.keyMachine.trace (KeyNode.newKeyHost manager) events,
      x.before.Separate x.event)
    (hindex : N.style = .lnd →
      ∀ d ∈ (N.keyMachine.trace (KeyNode.newKeyHost manager) events).flatMap
          fun x => N.derivations x.before x.event,
        ∀ d' ∈ (N.keyMachine.trace (KeyNode.newKeyHost manager) events).flatMap
            fun x => N.derivations x.before x.event,
          d.1 = d'.1 → d.2 = d'.2) :
    (∀ x ∈ N.keyMachine.trace (KeyNode.newKeyHost manager) events,
      ∀ y ∈ N.keyMachine.trace (KeyNode.newKeyHost manager) events,
        ∀ a ∈ KeyEntry.signers x, ∀ b ∈ KeyEntry.signers y,
          a.channelKeysId = b.channelKeysId → a.keys = b.keys) ∧
      ∀ x ∈ N.keyMachine.trace (KeyNode.newKeyHost manager) events, N.KeepsChannels x := by
  obtain ⟨indexOf, hagrees⟩ := N.exists_index manager.masterKey hindex
  have hrun := KeyNode.Kept.run hstart events fun x hx =>
    ⟨hseparate x hx, fun d hd => hagrees d (mem_flatMap.mpr ⟨x, hx, hd⟩)⟩
  constructor
  · intro x hx y hy a ha b hb hid
    have hkeys := (hrun x hx).1 a ha
    rw [KeyNode.Keyed, hid] at hkeys
    exact Except.ok.inj (hkeys.symm.trans ((hrun y hy).1 b hb))
  · intro x hx
    exact (hrun x hx).2

namespace Keys.Sample

/-- Two channels are created in the order of the store, one becomes ready, and the node restarts. -/
def createInOrder : List KeyEvent :=
  [.newChannel (some (channel 1)) 0, .newChannel (some (channel 2)) 0,
    .readyChannel (channel 1) (some (channel 3)) setup [], .restart 1 0 0]

/-- Two channels are created against the order of the store, and the node restarts. -/
def createOutOfOrder : List KeyEvent :=
  [.newChannel (some (channel 2)) 0, .newChannel (some (channel 1)) 0, .restart 1 0 0]

/-- A channel is created, and an output of it is spent. -/
def createAndSpend (style : KeyDerivationStyle) : List KeyEvent :=
  [.newChannel (some (channel 1)) 0,
    .spendOutputs [.delayedPaymentOutput ⟨0, 0⟩ 1000 ((node style).keysId (channel 1)) 1000000]
      true]

/-- A channel gets the first identifier of another as its permanent one, and the node restarts. -/
def takeIdentifier : List KeyEvent :=
  [.newChannel (some (channel 1)) 0, .newChannel (some (channel 2)) 0,
    .readyChannel (channel 1) (some (channel 2)) setup [], .restart 1 0 0]

/-- The keys of a channel in the memory of a node. -/
def keysOf (host : KeyHost (List Nat)) (id : ChannelId) : Option ChannelKeys :=
  host.memory.bind fun memory => (memory.channels.lookup id).map (·.signer.keys)

end Keys.Sample

open Keys.Sample in
/-- A node in the style of LND whose channels are created in the order of the store keeps their
keys. -/
theorem channel_keys_survive_restart_sample :
    (∀ x ∈ (node .lnd).keyMachine.trace (KeyNode.newKeyHost manager)
        createInOrder, x.before.Separate x.event) ∧
      ∀ x ∈ (node .lnd).keyMachine.trace (KeyNode.newKeyHost manager)
        createInOrder, (node .lnd).KeepsChannels x := by
  have hseparate : ∀ x ∈ (node .lnd).keyMachine.trace (KeyNode.newKeyHost manager)
      createInOrder, x.before.Separate x.event := by decide +kernel
  exact ⟨hseparate, (channel_keys_survive_restart (node .lnd) (newManager_node .lnd)
    createInOrder hseparate (fun _ => by decide +kernel)).2⟩

open Keys.Sample in
/-- In the style of LND a restart gives channels other keys, and so does spending.  In every style,
a channel that gets the first identifier of another keeps the node from starting again. -/
theorem channel_keys_lost :
    keysOf ((node .lnd).keyMachine.final (KeyNode.newKeyHost manager)
        createOutOfOrder) (channel 2) ≠
      keysOf ((node .lnd).keyMachine.final (KeyNode.newKeyHost manager)
        (createOutOfOrder.take 2)) (channel 2) ∧
    (∃ x ∈ (node .lnd).keyMachine.trace (KeyNode.newKeyHost manager)
        (createAndSpend .lnd),
      ∃ a ∈ x.answer.signers, ∃ b ∈ x.after.signers,
        a.channelKeysId = b.channelKeysId ∧ a.keys ≠ b.keys) ∧
    ∀ style ∈ [KeyDerivationStyle.native, .ldk, .lnd],
      ((node style).keyMachine.final (KeyNode.newKeyHost manager)
        takeIdentifier).memory.isNone := by
  decide +kernel

end ValidatingSigner
