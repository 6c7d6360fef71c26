import Vls.Persist.FatInvariant
import Vls.Persist.Sample

/-!
# Power losses of the embedded store

Over every run whose power losses are harmless, each entry that is read is the one of its last
completed or interrupted call, and every later call succeeds.  A power loss between retiring the
current file and replacing it loses the entry for good.
-/

namespace ValidatingSigner.FatJson

open Base Persist Effect Option

/-! ## Reading -/

/-- What is stored is read back. -/
structure Reads (J : Json) (c : Contents) (files : Files FilePath) : Prop where
  nodes : ∀ sha256 nodeId, getNodes J files sha256 nodeId = .ok (match c.node, c.state with
    | some entry, some state => [(nodeId, entry.withState sha256 state)]
    | _, _ => [])
  tracker : ∀ entry, c.tracker = some entry → getTracker J files = .ok entry.intoTracker
  allowlist : ∀ allowlist, c.allowlist = some allowlist →
    getNodeAllowlist J files = .ok allowlist
  channels : ∃ channels, getNodeChannels J files = .ok channels ∧
    (channels.map Prod.fst).Nodup ∧
    ∀ id entry, (id, entry) ∈ channels ↔ c.channels id = some entry

section Reads

variable {J : Json} {c : Contents} {files : Files FilePath}

theorem readValue_eq {bucket : Bucket} {key : Text} {value : List UInt8}
    (h : files.lookup ⟨bucket, key, .cur⟩ = some value) :
    readValue bucket key files = .ok value := by
  rw [readValue, h]

theorem fromStr_toVec {α : Type} {C : Codec α} (h : C.Lawful) (a : α) :
    fromStr C (C.toVec a) = .ok a := by
  rw [fromStr, h.reads]

variable (h : Holds J c files)

include h

theorem Holds.getNodes (hwhole : Whole c) (hJ : J.Lawful) (sha256 : Bytes32 → Bytes32)
    (nodeId : PublicKey) :
    getNodes J files sha256 nodeId = .ok (match c.node, c.state with
      | some entry, some state => [(nodeId, entry.withState sha256 state)]
      | _, _ => []) := by
  have hnode := h.cur .node nodeKey
  have hstate := h.cur .nodestate nodestateKey
  rw [currentFile, if_pos rfl] at hnode
  rw [currentFile, if_pos rfl] at hstate
  rw [Whole] at hwhole
  cases hentry : c.node with
  | none =>
    rw [hentry, map_none] at hnode
    rw [FatJson.getNodes, readValue, hnode]
  | some entry =>
    obtain ⟨state, hs⟩ := isSome_iff_exists.mp (show c.state.isSome by
      rw [← hwhole, hentry]
      rfl)
    rw [hentry, map_some] at hnode
    rw [hs, map_some] at hstate
    rw [hs, FatJson.getNodes, readValue_eq hnode, readValue_eq hstate]
    simp only [fromStr_toVec hJ.node, fromStr_toVec hJ.state, ok_bind]
    rfl

/-- All files in the directory of the channels are current ones. -/
theorem Holds.kind_eq_cur {path : FilePath} (hpath : path ∈ files)
    (hbucket : path.bucket = .channel) : path.kind = .cur := by
  obtain ⟨bytes, hbytes⟩ := isSome_iff_exists.mp (AList.lookup_isSome.mpr hpath)
  obtain ⟨bucket, key, kind⟩ := path
  cases kind with
  | cur => rfl
  | old =>
    rw [h.old] at hbytes
    cases hbytes
  | new => exact absurd hbucket (h.new bucket key bytes hbytes).1

/-- A listed channel is read with its entry. -/
theorem Holds.readChannel (hJ : J.Lawful) {key : Text} (hkey : ⟨.channel, key, .cur⟩ ∈ files) :
    ∃ id entry, key = channelKey id ∧ c.channels id = some entry ∧
      readChannel J files key = .ok (id, entry) := by
  obtain ⟨bytes, hbytes⟩ := isSome_iff_exists.mp (AList.lookup_isSome.mpr hkey)
  obtain ⟨id, -, hid⟩ := bind_eq_some_iff.mp ((h.cur .channel key).symm.trans hbytes)
  split_ifs at hid with hhex
  obtain ⟨entry, hentry, rfl⟩ := map_eq_some_iff.mp hid
  subst hhex
  refine ⟨⟨id⟩, entry, rfl, hentry, ?_⟩
  rw [FatJson.readChannel, Text.unhex_hex]
  change (readValue .channel _ files >>= _) = _
  rw [readValue_eq hbytes, ok_bind, fromStr_toVec hJ.channel]
  rfl

theorem Holds.getNodeChannels (hJ : J.Lawful) :
    ∃ channels, getNodeChannels J files = .ok channels ∧ (channels.map Prod.fst).Nodup ∧
      ∀ id entry, (id, entry) ∈ channels ↔ c.channels id = some entry := by
  obtain ⟨keys, hkeys, hnodup, hmem⟩ := Clean.listKeys fun path => h.kind_eq_cur
  obtain ⟨channels, hchannels⟩ : ∃ channels, keys.mapM (FatJson.readChannel J files) =
      .ok channels := by
    rw [mapM_ok_iff]
    intro key hkey
    obtain ⟨id, entry, -, -, hread⟩ := h.readChannel hJ ((hmem key).mp hkey)
    exact ⟨_, hread⟩
  refine ⟨channels, ?_, ?_, fun id entry => ?_⟩
  · rw [FatJson.getNodeChannels, hkeys, ok_bind, hchannels]
  · have hids : (channels.map Prod.fst).map channelKey = keys := by
      rw [List.map_map]
      refine (map_mapM_eq (q := id) (fun key hkey channel hread => ?_) hchannels).trans
        (List.map_id keys)
      obtain ⟨id, entry, rfl, -, hread'⟩ := h.readChannel hJ ((hmem key).mp hkey)
      rw [hread, Except.ok.injEq] at hread'
      rw [hread']
      rfl
    exact List.Nodup.of_map channelKey (hids ▸ hnodup)
  · rw [mem_mapM_iff hchannels]
    constructor
    · rintro ⟨key, hkey, hread⟩
      obtain ⟨id', entry', -, hentry, hread'⟩ := h.readChannel hJ ((hmem key).mp hkey)
      rw [hread, Except.ok.injEq, Prod.mk.injEq] at hread'
      rw [hread'.1, hread'.2]
      exact hentry
    · intro hentry
      have hpath : (⟨.channel, channelKey id, .cur⟩ : FilePath) ∈ files := by
        rw [← AList.lookup_isSome, h.cur, currentFile_channel, hentry]
        rfl
      obtain ⟨id', entry', hkey, hentry', hread⟩ := h.readChannel hJ hpath
      refine ⟨channelKey id, (hmem _).mpr hpath, ?_⟩
      obtain rfl : id = id' := by
        cases id
        cases id'
        exact congrArg ChannelId.mk (Text.hex_injective hkey)
      rw [hread, ← some.inj (hentry.symm.trans hentry')]

/-- Files that hold what is stored are read as such. -/
theorem Holds.reads (hwhole : Whole c) (hJ : J.Lawful) : Reads J c files where
  nodes := h.getNodes hwhole hJ
  tracker entry hentry := by
    have hcur := h.cur .chaintracker chaintrackerKey
    rw [currentFile, if_pos rfl, hentry, map_some] at hcur
    rw [getTracker, readValue_eq hcur, ok_bind, fromStr_toVec hJ.tracker]
    rfl
  allowlist allowlist hallowlist := by
    have hcur := h.cur .allowlist allowlistKey
    rw [currentFile, if_pos rfl, hallowlist, map_some] at hcur
    rw [getNodeAllowlist, readValue_eq hcur, ok_bind, fromStr_toVec hJ.allowlist]
  channels := h.getNodeChannels hJ

end Reads

/-! ## Runs -/

/-- A call of the persister, and after how many file operations the power is lost if it is. -/
abbrev PowerEvent := PersistCall × Option Nat

/-- The store as a machine: it goes on with the files after each call, whether the power was lost or
not. -/
def fatMachine (J : Json) :
    Machine (Files FilePath) PowerEvent (Except (Fault PersistError) Unit) where
  step files event :=
    let (r, device) := exec (call J event.1) ⟨files, event.2⟩
    (device.files, r)

/-- What may be stored after some calls: those that were completed count, and those during which the
power was lost may count. -/
inductive Explains : List PowerEvent → Contents → Prop where
  | start : Explains [] .empty
  | completed {events : List PowerEvent} {c : Contents} (call : PersistCall)
      (power : Option Nat) : Explains events c → Explains (events ++ [(call, power)]) (c.apply call)
  | interrupted {events : List PowerEvent} {c : Contents} (call : PersistCall) (count : Nat) :
      Explains events c → Explains (events ++ [(call, some count)]) c

/-- The call fits what is stored, and a power loss during it does no harm. -/
def Harmless (J : Json) (x : Entry (Files FilePath) PowerEvent (Except (Fault PersistError) Unit)) :
    Prop :=
  Fits x.before x.event.1 ∧
    ∀ count, x.event.2 = some count → SafeLoss J x.before x.event.1 count

/-- The files hold what may be stored, over every run with harmless power losses. -/
theorem exists_holds (J : Json) (events : List PowerEvent)
    (hsafe : ∀ x ∈ (fatMachine J).trace ∅ events, Harmless J x) :
    ∃ c, Explains events c ∧ Holds J c ((fatMachine J).final ∅ events) ∧ Whole c := by
  induction events using List.reverseRecOn with
  | nil => exact ⟨.empty, .start, Holds.empty, rfl⟩
  | append_singleton events event ih =>
    rw [Machine.trace_append] at hsafe
    obtain ⟨c, hexplains, hholds, hwhole⟩ := ih fun x hx => hsafe x (List.mem_append_left _ hx)
    obtain ⟨hfits, hloss⟩ := hsafe _ List.mem_concat_self
    obtain ⟨call, power⟩ := event
    rw [Machine.final_append]
    rcases (hholds.call hwhole hfits hloss).holds with hafter | ⟨hpower, hafter⟩
    · exact ⟨c.apply call, hexplains.completed call power, hafter, hholds.whole_apply hwhole hfits⟩
    · obtain ⟨count, rfl⟩ := isSome_iff_exists.mp hpower
      exact ⟨c, hexplains.interrupted call count, hafter, hwhole⟩

/-- After every run in which each power loss is harmless, everything that was stored is read back,
with the value of the last completed or of an interrupted call, and every further call succeeds and
is read back too. -/
theorem power_losses_survived (J : Json) (hJ : J.Lawful) (events : List PowerEvent)
    (hsafe : ∀ x ∈ (fatMachine J).trace ∅ events, Harmless J x) :
    ∃ c, Explains events c ∧ Reads J c ((fatMachine J).final ∅ events) ∧
      ∀ next, Fits ((fatMachine J).final ∅ events) next →
        ((fatMachine J).step ((fatMachine J).final ∅ events) (next, none)).2 = .ok () ∧
        Reads J (c.apply next)
          ((fatMachine J).step ((fatMachine J).final ∅ events) (next, none)).1 := by
  obtain ⟨c, hexplains, hholds, hwhole⟩ := exists_holds J events hsafe
  refine ⟨c, hexplains, hholds.reads hwhole hJ, fun next hfits => ?_⟩
  have hsettles : Settles J c (c.apply next) ((fatMachine J).final ∅ events) none (call J next) :=
    hholds.call hwhole hfits (fun _ h => by cases h)
  refine ⟨hsettles.ok rfl, ?_⟩
  rcases hsettles.holds with hafter | ⟨hpower, -⟩
  · exact hafter.reads (hholds.whole_apply hwhole hfits) hJ
  · cases hpower

/-- A tracker without listeners. -/
def sampleTracker : MonitorTracker :=
  ⟨[], ⟨⟨1, 0, 0, 0, 0, 0⟩, 0⟩, 0, .regtest, ∅, none⟩

/-- The power is lost while a tracker is written beside the current one. -/
def lossBeside : List PowerEvent :=
  [(.newChainTracker sampleTracker, none), (.updateTracker sampleTracker, some 1)]

/-- The power is lost after the current tracker has been retired. -/
def lossAfterRetire : List PowerEvent :=
  [(.newChainTracker sampleTracker, none), (.updateTracker sampleTracker, some 3)]

theorem power_losses_survived_beside : ∃ J : Json, J.Lawful ∧
    (∀ x ∈ (fatMachine J).trace ∅ lossBeside, Harmless J x) ∧
    ∃ c, Explains lossBeside c ∧ Reads J c ((fatMachine J).final ∅ lossBeside) := by
  obtain ⟨J, hJ⟩ : ∃ J : Json, J.Lawful := ⟨Sample.json, Sample.json_lawful⟩
  have hsafe : ∀ x ∈ (fatMachine J).trace ∅ lossBeside, Harmless J x := by
    intro x hx
    simp only [lossBeside, Machine.trace_cons, Machine.trace_nil, List.mem_cons,
      List.not_mem_nil, or_false] at hx
    rcases hx with rfl | rfl
    · exact ⟨trivial, fun _ h => by cases h⟩
    · refine ⟨(fun h => by cases h), fun count hcount => ?_⟩
      obtain rfl : 1 = count := some.inj hcount
      exact .inr (.inr (.inr ⟨by decide, by decide, .inl rfl⟩))
  obtain ⟨c, hexplains, hreads, -⟩ := power_losses_survived J hJ lossBeside hsafe
  exact ⟨J, hJ, hsafe, c, hexplains, hreads⟩

/-- A tracker that was stored and then updated when the power was lost can neither be read nor
updated again. -/
theorem tracker_lost_after_retire : ∃ J : Json, J.Lawful ∧
    getTracker J ((fatMachine J).final ∅ lossAfterRetire) =
      .error (.refuse (.notFound "NotFound")) ∧
    ((fatMachine J).step ((fatMachine J).final ∅ lossAfterRetire)
      (.updateTracker sampleTracker, none)).2 = .error (.refuse (.notFound "NotFound")) := by
  obtain ⟨J, hJ⟩ : ∃ J : Json, J.Lawful := ⟨Sample.json, Sample.json_lawful⟩
  exact ⟨J, hJ, rfl, rfl⟩

end ValidatingSigner.FatJson
