import Vls.Persist.FatSteps

/-!
# Harmless power losses of the embedded store

A power loss is harmless when it comes before a call has touched a file, after the call has put its
value in place, or, outside of the directory of the channels, while the value is only written beside
the current file and no later value is shorter.
-/

namespace ValidatingSigner.FatJson

open Base Persist Effect

/-! ## Harmless power losses -/

/-- How a value is written. -/
inductive Mode where
  | upsert
  | insert
  | update
  | delete
  deriving DecidableEq

/-- The number of file operations. -/
def Mode.steps : Mode → Nat
  | upsert => 5
  | insert => 3
  | update => 5
  | delete => 2

/-- The values that are written in a directory. -/
def Written (J : Json) : Bucket → List UInt8 → Prop
  | .node, value => ∃ entry, J.node.toVec entry = value
  | .nodestate, value => ∃ entry, J.state.toVec entry = value
  | .channel, value => ∃ entry, J.channel.toVec entry = value
  | .allowlist, value => ∃ entry, J.allowlist.toVec entry = value
  | .chaintracker, value => ∃ entry, J.tracker.toVec entry = value

/-- No value of the directory is shorter. -/
def Short (J : Json) (bucket : Bucket) (bytes : List UInt8) : Prop :=
  ∀ value, Written J bucket value → bytes.length ≤ value.length

/-- The current file is there when it has to be, and is not when it must not. -/
def FitsAt (files : Files FilePath) (mode : Mode) (bucket : Bucket) (key : Text) : Prop :=
  match mode with
  | .upsert => True
  | .insert => files.lookup ⟨bucket, key, .cur⟩ = none
  | .update | .delete => files.lookup ⟨bucket, key, .cur⟩ ≠ none

/-- Losing the power after some of the file operations does no harm. -/
def SafeAt (J : Json) (files : Files FilePath) (mode : Mode) (bucket : Bucket) (key : Text)
    (value : List UInt8) (count : Nat) : Prop :=
  count = 0 ∨ mode.steps ≤ count ∨
    (mode = .upsert ∧ files.lookup ⟨bucket, key, .cur⟩ = none ∧ 4 ≤ count) ∨
    (mode ≠ .delete ∧ bucket ≠ .channel ∧ (count = 1 ∨ count = 2 ∧ Short J bucket value))

/-- The call is one for an entry that is stored, or for one that is not, as it has to be. -/
def Fits (files : Files FilePath) : PersistCall → Prop
  | .newNode _ _ => FitsAt files .insert .node nodeKey
  | .updateNode _ => FitsAt files .update .nodestate nodestateKey
  | .newChannel stub => FitsAt files .insert .channel (channelKey stub.id0)
  | .deleteChannel channelId => FitsAt files .delete .channel (channelKey channelId)
  | .newChainTracker _ => FitsAt files .upsert .chaintracker chaintrackerKey
  | .updateTracker _ => FitsAt files .update .chaintracker chaintrackerKey
  | .updateChannel channel => FitsAt files .update .channel (channelKey channel.id0)
  | .updateNodeAllowlist _ => FitsAt files .upsert .allowlist allowlistKey

/-- Losing the power after some file operations of a call does no harm. -/
def SafeLoss (J : Json) (files : Files FilePath) : PersistCall → Nat → Prop
  | .newNode config _, count =>
    count < 3 ∧ SafeAt J files .insert .node nodeKey (J.node.toVec (.ofConfig config)) count ∨
      7 ≤ count
  | .updateNode state, count =>
    SafeAt J files .update .nodestate nodestateKey (J.state.toVec (.ofState state)) count
  | .newChannel stub, count =>
    SafeAt J files .insert .channel (channelKey stub.id0) (J.channel.toVec (.ofStub stub)) count
  | .deleteChannel channelId, count =>
    SafeAt J files .delete .channel (channelKey channelId) [] count
  | .newChainTracker tracker, count =>
    SafeAt J files .upsert .chaintracker chaintrackerKey (J.tracker.toVec (.ofTracker tracker))
      count
  | .updateTracker tracker, count =>
    SafeAt J files .update .chaintracker chaintrackerKey (J.tracker.toVec (.ofTracker tracker))
      count
  | .updateChannel channel, count =>
    SafeAt J files .update .channel (channelKey channel.id0)
      (J.channel.toVec (.ofChannel channel)) count
  | .updateNodeAllowlist allowlist, count =>
    SafeAt J files .upsert .allowlist allowlistKey (J.allowlist.toVec allowlist) count

/-! ## Contents in files -/

/-- The current file of a key for what is stored. -/
def currentFile (J : Json) (c : Contents) (bucket : Bucket) (key : Text) : Option (List UInt8) :=
  match bucket with
  | .node => if key = nodeKey then c.node.map J.node.toVec else none
  | .nodestate => if key = nodestateKey then c.state.map J.state.toVec else none
  | .channel => (Text.unhex key).bind fun bytes =>
    if Text.hex bytes = key then (c.channels ⟨bytes⟩).map J.channel.toVec else none
  | .allowlist => if key = allowlistKey then c.allowlist.map J.allowlist.toVec else none
  | .chaintracker => if key = chaintrackerKey then c.tracker.map J.tracker.toVec else none

/-- The files hold what is stored; beside the current files there is nothing, but for short files
outside of the directory of the channels. -/
structure Holds (J : Json) (c : Contents) (files : Files FilePath) : Prop where
  cur : ∀ bucket key, files.lookup ⟨bucket, key, .cur⟩ = currentFile J c bucket key
  old : ∀ bucket key, files.lookup ⟨bucket, key, .old⟩ = none
  new : ∀ bucket key bytes, files.lookup ⟨bucket, key, .new⟩ = some bytes →
    bucket ≠ .channel ∧ Short J bucket bytes

/-- A node is stored with its state. -/
def Whole (c : Contents) : Prop := c.node.isSome = c.state.isSome

section Holds

variable {J : Json} {c c' : Contents} {files files' : Files FilePath} {bucket : Bucket} {key : Text}
  {value : List UInt8} {power : Option Nat} {rest : Unit → FatOp Unit}

theorem Holds.empty : Holds J .empty ∅ where
  cur bucket key := by
    cases bucket with
    | channel =>
      change none = _
      rw [currentFile]
      cases Text.unhex key with
      | none => rfl
      | some bytes => simp [Contents.empty]
    | _ => simp [currentFile, Contents.empty]
  old _ _ := rfl
  new _ _ _ h := by cases h

theorem Holds.overwritten (h : Holds J c files) (hvalue : Written J bucket value) :
    Overwritten files ⟨bucket, key, .new⟩ value := by
  rw [Overwritten]
  cases hnew : files.lookup ⟨bucket, key, .new⟩ with
  | none => exact Nat.zero_le _
  | some bytes => exact (h.new bucket key bytes hnew).2 value hvalue

/-- A value that has been put in place. -/
theorem Holds.stores (h : Holds J c files) (hstores : Stores files files' bucket key (some value))
    (hfile : ∀ b k, currentFile J c' b k =
      if b = bucket ∧ k = key then some value else currentFile J c b k) : Holds J c' files' where
  cur b k := by
    rw [hstores, hfile, ← h.cur]
    simp
  old b k := by
    rw [hstores]
    simp [h.old]
  new b k bytes hbytes := by
    rw [hstores] at hbytes
    split_ifs at hbytes with hcur hnew
    · cases hcur
    · exact h.new b k bytes hbytes

/-- A value that has been deleted. -/
theorem Holds.deleted (h : Holds J c files) (halters : Alters files files' ⟨bucket, key, .cur⟩ none)
    (hfile : ∀ b k, currentFile J c' b k =
      if b = bucket ∧ k = key then none else currentFile J c b k) : Holds J c' files' where
  cur b k := by
    rw [halters, hfile, ← h.cur]
    simp
  old b k := by
    rw [halters]
    simp [h.old]
  new b k bytes hbytes := by
    rw [halters, if_neg (by simp)] at hbytes
    exact h.new b k bytes hbytes

/-- A short file beside the current one. -/
theorem Holds.written (h : Holds J c files)
    (halters : Alters files files' ⟨bucket, key, .new⟩ (some value)) (hbucket : bucket ≠ .channel)
    (hshort : Short J bucket value) : Holds J c files' where
  cur b k := by
    rw [halters, if_neg (by simp)]
    exact h.cur b k
  old b k := by
    rw [halters, if_neg (by simp)]
    exact h.old b k
  new b k bytes hbytes := by
    rw [halters] at hbytes
    split_ifs at hbytes with hpath
    · obtain ⟨rfl, rfl, -⟩ := FilePath.mk.inj hpath
      rw [← Option.some.inj hbytes]
      exact ⟨hbucket, hshort⟩
    · exact h.new b k bytes hbytes

theorem Holds.short_new (h : Holds J c files) :
    Short J bucket ((files.lookup ⟨bucket, key, .new⟩).getD []) := by
  intro value hvalue
  exact h.overwritten hvalue

/-! ## Values -/

/-- What a value operation leaves: it is complete, or the power was lost and nothing has changed. -/
structure Settles (J : Json) (c c' : Contents) (files : Files FilePath) (power : Option Nat)
    (operation : FatOp Unit) : Prop where
  holds : Holds J c' (exec operation ⟨files, power⟩).2.files ∨
    power.isSome ∧ Holds J c (exec operation ⟨files, power⟩).2.files
  ok : power = none → (exec operation ⟨files, power⟩).1 = .ok ()

theorem Settles.completed {operation : FatOp Unit} {device : Device FilePath}
    (hexec : exec operation ⟨files, power⟩ = (.ok (), device)) (h : Holds J c' device.files) :
    Settles J c c' files power operation where
  holds := .inl (by rw [hexec]; exact h)
  ok _ := by rw [hexec]

theorem Settles.interrupted {operation : FatOp Unit} {count : Nat}
    (hexec : exec operation ⟨files, some count⟩ =
      (.error (.abort powerLoss), ⟨files', some 0⟩)) (h : Holds J c files') :
    Settles J c c' files (some count) operation where
  holds := .inr ⟨rfl, by rw [hexec]; exact h⟩
  ok hnone := by cases hnone

/-- The power lasts, or it is lost early. -/
theorem lasts_or_lost (power : Option Nat) (steps : Nat) :
    Lasts power steps ∨ ∃ count, power = some count ∧ count < steps := by
  cases power with
  | none => exact .inl (Lasts.none steps)
  | some count =>
    by_cases hcount : steps ≤ count
    · exact .inl fun left hleft => Option.some.inj hleft ▸ hcount
    · exact .inr ⟨count, rfl, Nat.lt_of_not_le hcount⟩

/-- A harmless power loss while a value is written. -/
theorem Holds.writing {mode : Mode} {count : Nat} (h : Holds J c files)
    (hvalue : Written J bucket value)
    (hrest : ∀ files, exec (rest ()) ⟨files, some 0⟩ =
      (.error (.abort powerLoss), ⟨files, some 0⟩))
    (hsafe : SafeAt J files mode bucket key value count) (hcount : count < mode.steps)
    (hlate : ¬ (mode = .upsert ∧ files.lookup ⟨bucket, key, .cur⟩ = none ∧ 4 ≤ count)) :
    Settles J c c' files (some count) (writeNewFile bucket key value >>= rest) := by
  have hbeside : count = 0 ∨
      bucket ≠ .channel ∧ (count = 1 ∨ count = 2 ∧ Short J bucket value) := by
    rcases hsafe with hzero | hsteps | hupsert | ⟨-, hbeside⟩
    · exact .inl hzero
    · omega
    · exact absurd hupsert hlate
    · exact .inr hbeside
  have htwo : count ≤ 2 := by omega
  obtain ⟨files', hexec, hcases⟩ := exec_writing hrest htwo (h.overwritten hvalue)
  refine .interrupted hexec ?_
  rcases hcases with ⟨-, rfl⟩ | ⟨rfl, halters⟩ | ⟨rfl, halters⟩
  · exact h
  · obtain ⟨hbucket, -⟩ := hbeside.resolve_left (by decide)
    exact h.written halters hbucket h.short_new
  · obtain ⟨hbucket, hshort⟩ := hbeside.resolve_left (by decide)
    exact h.written halters hbucket (hshort.resolve_left (by decide)).2

variable (hfile : ∀ b k, currentFile J c' b k =
  if b = bucket ∧ k = key then some value else currentFile J c b k)

include hfile

/-- An operation that puts its value in place when the power lasts, and is safe when it does not. -/
theorem Holds.puts {mode : Mode} (h : Holds J c files) (hmode : mode ≠ .upsert)
    (hvalue : Written J bucket value)
    (hrest : ∀ files, exec (rest ()) ⟨files, some 0⟩ =
      (.error (.abort powerLoss), ⟨files, some 0⟩))
    (hsafe : ∀ count, power = some count → SafeAt J files mode bucket key value count)
    (hputs : Lasts power mode.steps →
      ∃ files', exec (writeNewFile bucket key value >>= rest) ⟨files, power⟩ =
        (.ok (), ⟨files', spend mode.steps power⟩) ∧ Stores files files' bucket key (some value)) :
    Settles J c c' files power (writeNewFile bucket key value >>= rest) := by
  rcases lasts_or_lost power mode.steps with hlasts | ⟨count, rfl, hcount⟩
  · obtain ⟨files', hexec, hstores⟩ := hputs hlasts
    exact .completed hexec (h.stores hstores hfile)
  · exact h.writing hvalue hrest (hsafe count rfl) hcount fun hlate => hmode hlate.1

theorem Holds.insertValue (h : Holds J c files) (hfits : FitsAt files .insert bucket key)
    (hvalue : Written J bucket value)
    (hsafe : ∀ count, power = some count → SafeAt J files .insert bucket key value count) :
    Settles J c c' files power (insertValue bucket key value) :=
  h.puts hfile (by decide) hvalue (fun _ => rfl) hsafe fun hlasts =>
    exec_insertValue hlasts hfits (h.overwritten hvalue)

theorem Holds.updateValue (h : Holds J c files) (hfits : FitsAt files .update bucket key)
    (hvalue : Written J bucket value)
    (hsafe : ∀ count, power = some count → SafeAt J files .update bucket key value count) :
    Settles J c c' files power (updateValue bucket key value) :=
  h.puts hfile (by decide) hvalue (fun _ => rfl) hsafe fun hlasts =>
    let ⟨files', hexec, _, hstores⟩ :=
      exec_replacing hlasts hfits (h.old bucket key) (h.overwritten hvalue)
    ⟨files', hexec, hstores⟩

theorem Holds.upsertValue (h : Holds J c files) (hvalue : Written J bucket value)
    (hsafe : ∀ count, power = some count → SafeAt J files .upsert bucket key value count) :
    Settles J c c' files power (upsertValue bucket key value) := by
  have hwriting (count : Nat) (hpower : power = some count) (hcount : count < 5)
      (hlate : files.lookup ⟨bucket, key, .cur⟩ = none → count < 4) :
      Settles J c c' files (some count) (FatJson.upsertValue bucket key value) :=
    h.writing hvalue (fun _ => rfl) (hsafe count hpower) hcount fun hupsert =>
      absurd hupsert.2.2 (Nat.not_le_of_lt (hlate hupsert.2.1))
  by_cases hcur : files.lookup ⟨bucket, key, .cur⟩ = none
  · rcases lasts_or_lost power 4 with hlasts | ⟨count, rfl, hcount⟩
    · obtain ⟨r, files', hexec, hstores, hok⟩ :=
        exec_upsertValue_absent hlasts hcur (h.old bucket key) (h.overwritten hvalue)
      constructor
      · left
        rw [hexec]
        exact h.stores hstores hfile
      · rintro rfl
        rw [hexec]
        exact hok (Lasts.none 5)
    · exact hwriting count rfl (Nat.lt_succ_of_lt hcount) fun _ => hcount
  · rcases lasts_or_lost power 5 with hlasts | ⟨count, rfl, hcount⟩
    · obtain ⟨files', -, hexec, hstores⟩ :=
        exec_replacing hlasts hcur (h.old bucket key) (h.overwritten hvalue)
      exact .completed hexec (h.stores hstores hfile)
    · exact hwriting count rfl hcount fun hnone => absurd hnone hcur

omit hfile in
theorem Holds.deleteValue (hfile : ∀ b k, currentFile J c' b k =
      if b = bucket ∧ k = key then none else currentFile J c b k)
    (h : Holds J c files) (hfits : FitsAt files .delete bucket key)
    (hsafe : ∀ count, power = some count → SafeAt J files .delete bucket key value count) :
    Settles J c c' files power (deleteValue bucket key) := by
  rcases lasts_or_lost power 2 with hlasts | ⟨count, rfl, hcount⟩
  · obtain ⟨files', hexec, halters⟩ := exec_deleteValue hlasts hfits (h.old bucket key)
    exact .completed hexec (h.deleted halters hfile)
  · have hzero : count = 0 := by
      rcases hsafe count rfl with hzero | hsteps | ⟨hmode, -⟩ | ⟨hmode, -⟩
      · exact hzero
      · exact absurd hsteps (Nat.not_le_of_lt hcount)
      · cases hmode
      · exact absurd rfl hmode
    subst hzero
    exact .interrupted rfl h

end Holds

/-! ## Calls -/

section Calls

variable {J : Json} {c : Contents} {files files' : Files FilePath} {power : Option Nat}

theorem currentFile_node (entry : Persist.NodeEntry) (b : Bucket) (k : Text) :
    currentFile J { c with node := some entry } b k =
      if b = .node ∧ k = nodeKey then some (J.node.toVec entry) else currentFile J c b k := by
  cases b <;> simp [currentFile]
  split_ifs <;> rfl

theorem currentFile_state (entry : NodeStateEntry) (b : Bucket) (k : Text) :
    currentFile J { c with state := some entry } b k =
      if b = .nodestate ∧ k = nodestateKey then some (J.state.toVec entry)
      else currentFile J c b k := by
  cases b <;> simp [currentFile]
  split_ifs <;> rfl

theorem currentFile_tracker (entry : ChainTrackerEntry) (b : Bucket) (k : Text) :
    currentFile J { c with tracker := some entry } b k =
      if b = .chaintracker ∧ k = chaintrackerKey then some (J.tracker.toVec entry)
      else currentFile J c b k := by
  cases b <;> simp [currentFile]
  split_ifs <;> rfl

theorem currentFile_allowlist (entry : List String) (b : Bucket) (k : Text) :
    currentFile J { c with allowlist := some entry } b k =
      if b = .allowlist ∧ k = allowlistKey then some (J.allowlist.toVec entry)
      else currentFile J c b k := by
  cases b <;> simp [currentFile]
  split_ifs <;> rfl

theorem currentFile_channel (id : ChannelId) :
    currentFile J c .channel (channelKey id) = (c.channels id).map J.channel.toVec := by
  rw [currentFile, channelKey, Text.unhex_hex, Option.bind_some, if_pos rfl]

theorem currentFile_channels (id : ChannelId) (entry : Option Persist.ChannelEntry) (b : Bucket)
    (k : Text) :
    currentFile J { c with channels := Function.update c.channels id entry } b k =
      if b = .channel ∧ k = channelKey id then entry.map J.channel.toVec
      else currentFile J c b k := by
  cases b with
  | channel =>
    by_cases hk : k = channelKey id
    · rw [if_pos ⟨rfl, hk⟩, hk, currentFile_channel]
      exact congrArg (Option.map _) (Function.update_self id entry c.channels)
    · rw [if_neg fun h => hk h.2, currentFile, currentFile]
      refine Option.bind_congr fun bytes _ => ?_
      split_ifs with hhex
      · have hne : (⟨bytes⟩ : ChannelId) ≠ id := by
          rintro rfl
          exact hk hhex.symm
        exact congrArg (Option.map _) (Function.update_of_ne hne entry c.channels)
      · rfl
  | _ => simp [currentFile]

/-- A harmless power loss while a node is created, or none. -/
theorem Holds.newNode (h : Holds J c files) (hwhole : Whole c) {config : NodeConfig}
    {state : NodeState} (hfits : Fits files (.newNode config state))
    (hsafe : ∀ count, power = some count → SafeLoss J files (.newNode config state) count) :
    Settles J c (c.apply (.newNode config state)) files power (newNode J config state) := by
  have hnode : Written J .node (J.node.toVec (.ofConfig config)) := ⟨_, rfl⟩
  have hstate : Written J .nodestate (J.state.toVec (.ofState state)) := ⟨_, rfl⟩
  have hnone : c.state = none := by
    have hcur := (h.cur .node nodeKey).symm.trans hfits
    rw [currentFile, if_pos rfl, Option.map_eq_none_iff] at hcur
    rw [Whole, hcur] at hwhole
    exact Option.not_isSome_iff_eq_none.mp (by rw [← hwhole]; decide)
  rcases lasts_or_lost power 7 with hlasts | ⟨count, rfl, hcount⟩
  · obtain ⟨files₁, hinsert, hstores₁⟩ :=
      exec_insertValue (hlasts.mono (by decide)) hfits (h.overwritten hnode)
    have h₁ : Holds J { c with node := some (.ofConfig config) } files₁ :=
      h.stores hstores₁ fun b k => currentFile_node _ b k
    have habsent : files₁.lookup ⟨.nodestate, nodestateKey, .cur⟩ = none := by
      rw [h₁.cur, currentFile, if_pos rfl, hnone]
      rfl
    obtain ⟨r, files₂, hupsert, hstores₂, hok⟩ := exec_upsertValue_absent (Lasts.spend hlasts)
      habsent (h₁.old _ _) (h₁.overwritten hstate)
    have h₂ : Holds J (c.apply (.newNode config state)) files₂ :=
      h₁.stores hstores₂ (currentFile_state (c := { c with node := some (.ofConfig config) }) _)
    have hexec : exec (FatJson.newNode J config state) ⟨files, power⟩ =
        (r, ⟨files₂, spend 5 (spend 3 power)⟩) := by
      rw [FatJson.newNode, exec_bind, hinsert]
      exact hupsert
    constructor
    · left
      rw [hexec]
      exact h₂
    · rintro rfl
      rw [hexec]
      exact hok (Lasts.none 5)
  · have hearly : count < 3 ∧ SafeAt J files .insert .node nodeKey
        (J.node.toVec (.ofConfig config)) count := by
      rcases hsafe count rfl with hearly | hlate
      · exact hearly
      · exact absurd hlate (Nat.not_le_of_lt hcount)
    rw [FatJson.newNode, FatJson.insertValue, bind_assoc]
    exact h.writing hnode (fun _ => rfl) hearly.2 hearly.1 (by simp)

/-- A call that fits, with a harmless power loss or none, is complete or has changed nothing. -/
theorem Holds.call (h : Holds J c files) (hwhole : Whole c) {call : PersistCall}
    (hfits : Fits files call)
    (hsafe : ∀ count, power = some count → SafeLoss J files call count) :
    Settles J c (c.apply call) files power (FatJson.call J call) := by
  cases call with
  | newNode config state => exact h.newNode hwhole hfits hsafe
  | updateNode state =>
    exact h.updateValue (fun b k => currentFile_state _ b k) hfits ⟨_, rfl⟩ hsafe
  | newChannel stub =>
    exact h.insertValue (fun b k => currentFile_channels stub.id0 _ b k) hfits ⟨_, rfl⟩ hsafe
  | deleteChannel channelId =>
    exact h.deleteValue (fun b k => currentFile_channels channelId none b k) hfits hsafe
  | newChainTracker tracker =>
    exact h.upsertValue (fun b k => currentFile_tracker _ b k) ⟨_, rfl⟩ hsafe
  | updateTracker tracker =>
    exact h.updateValue (fun b k => currentFile_tracker _ b k) hfits ⟨_, rfl⟩ hsafe
  | updateChannel channel =>
    exact h.updateValue (fun b k => currentFile_channels channel.id0 _ b k) hfits ⟨_, rfl⟩ hsafe
  | updateNodeAllowlist allowlist =>
    exact h.upsertValue (fun b k => currentFile_allowlist _ b k) ⟨_, rfl⟩ hsafe

/-- A call that fits stores a node with its state. -/
theorem Holds.whole_apply (h : Holds J c files) (hwhole : Whole c) {call : PersistCall}
    (hfits : Fits files call) : Whole (c.apply call) := by
  cases call with
  | newNode config state => rfl
  | updateNode state =>
    have hstate : c.state ≠ none := by
      intro hnone
      apply hfits
      rw [h.cur, currentFile, if_pos rfl, hnone]
      rfl
    rw [Whole, Option.isSome_iff_ne_none.mpr hstate] at hwhole
    exact hwhole
  | _ => exact hwhole

end Calls

end ValidatingSigner.FatJson
