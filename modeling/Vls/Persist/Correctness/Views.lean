import Vls.Persist.MemoContents
import Vls.Persist.Sample

/-!
# Which channels the thread-local persister shows

Over any calls that create, update and delete channels of a node, in any number of contexts, the map
holds the last entry of every channel, and an empty value for every channel that was deleted.  The
list of all channels reads every value and aborts at an empty one; a single channel is looked up
under the key of a node, where there is never one.
-/

namespace ValidatingSigner.ThreadMemo

open Base Effect

/-- What is done with the channels of a node. -/
inductive ChannelCall where
  | enter
  | newChannel (stub : ChannelStub)
  | updateChannel (channel : ReadyChannel)
  | deleteChannel (channelId : ChannelId)
  | exit

/-- What is known of the channels after a call. -/
def ChannelCall.record (history : ChannelHistory) : ChannelCall → ChannelHistory
  | newChannel stub => Function.update history stub.id0 (some (some (.ofStub stub)))
  | updateChannel channel => Function.update history channel.id0 (some (some (.ofChannel channel)))
  | deleteChannel channelId => Function.update history channelId (some none)
  | enter | exit => history

/-- What is known of the channels after some calls. -/
def channelHistory (calls : List ChannelCall) : ChannelHistory :=
  calls.foldl ChannelCall.record fun _ => none

section Run

variable (o : Overflow) (J : Json) (nodeId : PublicKey)

/-- Make a call. -/
def runCall : ChannelCall → PersistOp MemoThread Unit
  | .enter => enter
  | .newChannel stub => newChannel o J nodeId stub
  | .updateChannel channel => updateChannel o J nodeId channel
  | .deleteChannel channelId => deleteChannel o nodeId channelId
  | .exit => do
    let _ ← exit
    return ()

/-- Make calls one after the other. -/
def runCalls : List ChannelCall → PersistOp MemoThread Unit
  | [] => pure ()
  | call :: calls => do
    runCall o J nodeId call
    runCalls calls

end Run

/-- Every channel that was created and not deleted is returned with its last entry. -/
def ReturnsChannels (J : Json) (nodeId : PublicKey) (history : ChannelHistory) (t : MemoThread) :
    Prop :=
  ∀ id entry, history id = some (some entry) →
    (getChannel J nodeId id).exec t = (.ok entry, t)

/-! ## What the map holds -/

/-- The map holds the channels of a history and nothing else. -/
structure Holds (J : Json) (nodeId : PublicKey) (history : ChannelHistory) (store : MemoStore) :
    Prop where
  keys : ∀ key value, store.valueOf key = some value → ∃ id, key = channelKey nodeId id
  values : ∀ id, store.valueOf (channelKey nodeId id) = (history id).map (channelValue J)

section Holds

variable {o : Overflow} {J : Json} {nodeId : PublicKey} {history : ChannelHistory}
  {t t' : MemoThread}

theorem Holds.empty : Holds J nodeId (fun _ => none) ∅ where
  keys _ _ h := by cases h
  values _ := rfl

variable (h : Holds J nodeId history t.store)

include h

/-- A write at the key of a channel is the last one of this channel. -/
theorem Holds.write {w : Write} {id : ChannelId} {entry : Option Persist.ChannelEntry}
    (hwrite : (write o w).exec t = (.ok (), t')) (hkey : w.key = channelKey nodeId id)
    (hvalue : w.value = channelValue J entry) :
    Holds J nodeId (Function.update history id (some entry)) t'.store := by
  obtain ⟨-, -, hvalues⟩ := exec_write_ok hwrite
  constructor
  · intro key value hfound
    rw [hvalues] at hfound
    split_ifs at hfound with hkey'
    · exact ⟨id, hkey'.trans hkey⟩
    · exact h.keys key value hfound
  · intro other
    rw [hvalues, hkey, Function.update_apply]
    by_cases hother : other = id
    · rw [if_pos (congrArg (channelKey nodeId) hother), if_pos hother, hvalue]
      rfl
    · rw [if_neg fun heq => hother (channelKey_inj.mp heq), if_neg hother, h.values]

/-- A call keeps the map in step with the history. -/
theorem Holds.runCall {call : ChannelCall}
    (hcall : (runCall o J nodeId call).exec t = (.ok (), t')) :
    Holds J nodeId (call.record history) t'.store := by
  cases call with
  | enter =>
    rw [ThreadMemo.runCall, enter, exec_get_bind] at hcall
    obtain ⟨_, u, hassert, hset⟩ := exec_bind_eq_ok_iff.mp hcall
    obtain ⟨-, rfl⟩ := Prod.mk.inj hassert
    obtain ⟨-, rfl⟩ := Prod.mk.inj hset
    exact h
  | newChannel stub => exact h.write hcall rfl rfl
  | updateChannel channel => exact h.write hcall rfl rfl
  | deleteChannel channelId => exact h.write hcall rfl rfl
  | exit =>
    obtain ⟨_, u, hexit, hpure⟩ := exec_bind_eq_ok_iff.mp hcall
    obtain ⟨-, rfl⟩ := Prod.mk.inj hpure
    rw [exit, exec_get_bind] at hexit
    obtain ⟨_, u, hexpect, hset⟩ := exec_bind_eq_ok_iff.mp hexit
    obtain ⟨-, rfl⟩ := Prod.mk.inj hexpect
    rw [exec_set_bind] at hset
    obtain ⟨-, rfl⟩ := Prod.mk.inj hset
    exact h

/-- Calls keep the map in step with the history. -/
theorem Holds.runCalls {calls : List ChannelCall}
    (hcalls : (runCalls o J nodeId calls).exec t = (.ok (), t')) :
    Holds J nodeId (calls.foldl ChannelCall.record history) t'.store := by
  induction calls generalizing t history with
  | nil =>
    obtain ⟨-, rfl⟩ := Prod.mk.inj hcalls
    exact h
  | cons call calls ih =>
    obtain ⟨_, u, hcall, hrest⟩ := exec_bind_eq_ok_iff.mp hcalls
    exact ih (h.runCall hcall) hrest

/-! ## What is read -/

theorem Holds.channels :
    HoldsChannels J nodeId history t.store where
  keys key hkey _ := by
    obtain ⟨value, hvalue⟩ := Option.isSome_iff_exists.mp (AList.lookup_isSome.mpr hkey)
    exact h.keys key value.value (by rw [MemoStore.valueOf, hvalue]; rfl)
  values := h.values

/-- A single channel is never found. -/
theorem Holds.exec_getChannel (ht : t.dirty.isSome) (id : ChannelId) :
    (getChannel J nodeId id).exec t = (.error (.abort noneMessage), t) := by
  obtain ⟨dirty, hdirty⟩ := Option.isSome_iff_exists.mp ht
  have hnone : get2 t.store NODE_ENTRY_PREFIX nodeId.serialize id.bytes = none := by
    by_contra hsome
    obtain ⟨value, hvalue⟩ := Option.ne_none_iff_exists'.mp hsome
    obtain ⟨other, hother⟩ := h.keys _ value hvalue
    have hhead : some 'n' = some 'c' := congrArg List.head? hother
    exact absurd hhead (by decide)
  rw [getChannel, exec_read hdirty, hnone]
  rfl

/-- Single channels are returned exactly when there are none. -/
theorem Holds.returnsChannels_iff (ht : t.dirty.isSome) :
    ReturnsChannels J nodeId history t ↔ ∀ id entry, history id ≠ some (some entry) := by
  constructor
  · intro hreturns id entry hlast
    have hread := hreturns id entry hlast
    rw [h.exec_getChannel ht] at hread
    cases hread
  · intro hnone id entry hlast
    exact absurd hlast (hnone id entry)

end Holds

/-! ## Every history -/

/-- After calls in any number of contexts, and in a context, the list of all channels is right
exactly when no channel was deleted last, and single channels are returned exactly when there are
none. -/
theorem channel_views_iff (o : Overflow) (J : Json) (hJ : J.channel.Lawful) (nodeId : PublicKey)
    (calls : List ChannelCall) (t : MemoThread)
    (hrun : (runCalls o J nodeId calls).exec ⟨∅, none⟩ = (.ok (), t)) (ht : t.dirty.isSome) :
    (ListsChannels J nodeId (channelHistory calls) t ↔ ∀ id, channelHistory calls id ≠ some none) ∧
    (ReturnsChannels J nodeId (channelHistory calls) t ↔
      ∀ id entry, channelHistory calls id ≠ some (some entry)) := by
  have hholds := Holds.runCalls (t := ⟨∅, none⟩) Holds.empty hrun
  exact ⟨hholds.channels.listsChannels_iff hJ ht, hholds.returnsChannels_iff ht⟩

/-- A node whose only channel is created in one context and looked at in the next. -/
def createAndLook : List ChannelCall := [.enter, .newChannel ⟨⟨[1]⟩, 0⟩, .exit, .enter]

/-- A node creates two channels and deletes the first one. -/
def createTwoDeleteOne : List ChannelCall :=
  [.enter, .newChannel ⟨⟨[1]⟩, 0⟩, .newChannel ⟨⟨[2]⟩, 0⟩, .deleteChannel ⟨[1]⟩]

theorem channel_views_iff_createAndLook :
    ∃ J : Json, J.channel.Lawful ∧ ∃ t, t.dirty.isSome ∧
      (runCalls .checked J ⟨0⟩ createAndLook).exec ⟨∅, none⟩ = (.ok (), t) ∧
      ListsChannels J ⟨0⟩ (channelHistory createAndLook) t ∧
      ¬ ReturnsChannels J ⟨0⟩ (channelHistory createAndLook) t := by
  obtain ⟨J, hJ⟩ : ∃ J : Json, J.Lawful := ⟨Sample.json, Sample.json_lawful⟩
  refine ⟨J, hJ.channel, _, ?_, rfl, ?_⟩
  · rfl
  · obtain ⟨hlists, hreturns⟩ :=
      channel_views_iff .checked J hJ.channel ⟨0⟩ createAndLook _ rfl rfl
    refine ⟨hlists.mpr ?_, fun h => hreturns.mp h ⟨[1]⟩ (.ofStub ⟨⟨[1]⟩, 0⟩) rfl⟩
    intro id hdeleted
    rw [channelHistory, createAndLook] at hdeleted
    simp only [List.foldl_cons, List.foldl_nil, ChannelCall.record, Function.update_apply]
      at hdeleted
    split_ifs at hdeleted
    cases hdeleted

/-- The channel that was not deleted is neither listed nor returned. -/
theorem deleted_channel_aborts_views :
    ∃ J : Json, J.channel.Lawful ∧ ∃ t, t.dirty.isSome ∧
      (runCalls .checked J ⟨0⟩ createTwoDeleteOne).exec ⟨∅, none⟩ = (.ok (), t) ∧
      channelHistory createTwoDeleteOne ⟨[2]⟩ = some (some (.ofStub ⟨⟨[2]⟩, 0⟩)) ∧
      ¬ ListsChannels J ⟨0⟩ (channelHistory createTwoDeleteOne) t ∧
      (getChannel J ⟨0⟩ ⟨[2]⟩).exec t = (.error (.abort noneMessage), t) := by
  obtain ⟨J, hJ⟩ : ∃ J : Json, J.Lawful := ⟨Sample.json, Sample.json_lawful⟩
  have hrun : ∃ t, (runCalls .checked J ⟨0⟩ createTwoDeleteOne).exec ⟨∅, none⟩ = (.ok (), t) ∧
      t.dirty.isSome := ⟨_, rfl, rfl⟩
  obtain ⟨t, hrun, ht⟩ := hrun
  have hholds := Holds.runCalls (t := ⟨∅, none⟩) Holds.empty hrun
  refine ⟨J, hJ.channel, t, ht, hrun, rfl, ?_, hholds.exec_getChannel ht ⟨[2]⟩⟩
  intro hlists
  exact (hholds.channels.listsChannels_iff hJ.channel ht).mp hlists ⟨[1]⟩ rfl

end ValidatingSigner.ThreadMemo
