import Vls.Storage.Sled

/-!
# Every run of the embedded store is linear

The values a run stores for a key of a client carry the versions 0, 1, 2 and so on, and the store
holds the last of them.  This needs only that no put meets a key whose version is the largest one:
in a build that wraps, the version after it is the smallest one.
-/

namespace ValidatingSigner.Storage.SledDatabase

open Base Machine List Int64

variable {o : Overflow} {db : SledDatabase} {log : List (Entry SledDatabase DbCall DbReply)}
  {client : List UInt8} {key : Text} {kvs : KeyValues Int64} {kv : Text × Value}
  {values : List Value}

/-- The versions are 0, 1, 2 and so on. -/
def Consecutive (values : List Value) : Prop :=
  values.map (·.version.toInt) = (List.range values.length).map Int.ofNat

/-- The store holds the last value of each history, and the histories are consecutive. -/
structure Linear (log : List (Entry SledDatabase DbCall DbReply)) (db : SledDatabase) : Prop where
  current : ∀ client key, db.lookup (sledKey client key) = (history client key log).getLast?
  versions : ∀ client key, Consecutive (history client key log)

theorem consecutive_concat {value : Value} (h : Consecutive values)
    (hv : value.version.toInt = values.length) : Consecutive (values ++ [value]) := by
  unfold Consecutive at h ⊢
  rw [map_append, h, length_append, length_singleton, range_succ,
    map_append, map_singleton, map_singleton, hv]
  rfl

/-- The last version of a consecutive history is one less than its length. -/
theorem Consecutive.getLast {last : Value} (h : Consecutive values)
    (hlast : values.getLast? = some last) : last.version.toInt + 1 = values.length := by
  obtain ⟨front, rfl⟩ := getLast?_eq_some_iff.mp hlast
  unfold Consecutive at h
  rw [map_append, length_append, length_singleton, range_succ,
    map_append] at h
  have hpair := (append_inj' h rfl).2
  have hversion : last.version.toInt = Int.ofNat front.length := (cons.inj hpair).1
  rw [hversion, length_append, length_singleton]
  rfl

/-- The next version of a key with a consecutive history is the length of the history. -/
theorem toInt_nextVersion {version : Int64} (h : Consecutive values)
    (hnext : nextVersion o values.getLast? = .ok version)
    (hfit : o = .checked ∨ ∀ last, values.getLast? = some last → last.version ≠ maxValue) :
    version.toInt = values.length := by
  cases hlast : values.getLast? with
  | none =>
    rw [hlast] at hnext
    cases hnext
    rw [getLast?_eq_none_iff.mp hlast]
    rfl
  | some last =>
    rw [hlast] at hnext
    rw [← h.getLast hlast]
    apply Overflow.toInt_of_i64 hnext
    rcases hfit with ho | hmax
    · exact .inl ho
    · right
      have hne := hmax last hlast
      have hlower := last.version.le_toInt
      have hupper := last.version.toInt_lt
      have hlast : last.version.toInt ≠ 2 ^ 63 - 1 := by
        intro heq
        exact hne (toInt_inj.mp heq)
      omega

/-- A list with distinct keys holds at most the one entry of a key. -/
theorem filter_key_of_mem (hkeys : (kvs.map Prod.fst).Nodup) (hkv : kv ∈ kvs) :
    kvs.filter (fun kv' => kv'.1 = kv.1) = [kv] := by
  induction kvs with
  | nil => cases hkv
  | cons first kvs ih =>
    rw [map_cons, nodup_cons] at hkeys
    rcases mem_cons.mp hkv with rfl | hkv
    · have hrest : kvs.filter (fun kv' => kv'.1 = kv.1) = [] := by
        rw [filter_eq_nil_iff]
        intro kv' hkv' heq
        exact hkeys.1 (of_decide_eq_true heq ▸ mem_map_of_mem hkv')
      rw [filter_cons_of_pos (by simp), hrest]
    · have hne : first.1 ≠ kv.1 := fun heq => hkeys.1 (heq ▸ mem_map_of_mem hkv)
      rw [filter_cons_of_neg (by simpa using hne), ih hkeys.2 hkv]

theorem eq_of_nodup_keys (hkeys : (kvs.map Prod.fst).Nodup) :
    ∀ a ∈ kvs, ∀ b ∈ kvs, a.1 = b.1 → a = b := by
  intro a ha b hb heq
  exact inj_on_of_nodup_map hkeys ha hb heq

/-! ## One step -/

/-- The lists put have distinct keys, and no stored version they meet is the largest one in a build
that wraps. -/
def Fits (o : Overflow) (x : Entry SledDatabase DbCall DbReply) : Prop :=
  ∀ client kvs, x.event = .put client kvs → (kvs.map Prod.fst).Nodup ∧
    (o = .checked ∨ ∀ kv ∈ kvs, ∀ value, x.before.lookup (sledKey client kv.1) = some value →
      value.version ≠ maxValue)

/-- A put is accepted with the next version of every key, or changes nothing and stores nothing. -/
theorem step_put (db : SledDatabase) (client : List UInt8) (kvs : KeyValues Int64) :
    ((∀ kv ∈ kvs, nextVersion o (db.lookup (sledKey client kv.1)) = .ok kv.2.version) ∧
        (database o).machine.step db (.put client kvs) = (insertAll client kvs db, .put (.ok ()))) ∨
      ∃ e, (database o).machine.step db (.put client kvs) = (db, .put (.error e)) := by
  have hstep : (database o).machine.step db (.put client kvs) =
      (((put o client kvs).exec db).2, .put ((put o client kvs).exec db).1) := rfl
  rcases hput : (put o client kvs).exec db with ⟨e | u, db'⟩
  · right
    rw [hstep, hput, eq_of_exec_put_error hput]
    exact ⟨e, rfl⟩
  · left
    obtain ⟨hnext, rfl⟩ := exec_put_eq_ok_iff.mp hput
    rw [hstep, hput]
    exact ⟨hnext, rfl⟩

/-- An entry with the next version of its key carries the length of the key's history. -/
theorem Linear.version_eq (h : Linear log db)
    (hnext : nextVersion o (db.lookup (sledKey client kv.1)) = .ok kv.2.version)
    (hfit : o = .checked ∨ ∀ value, db.lookup (sledKey client kv.1) = some value →
      value.version ≠ maxValue) : kv.2.version.toInt = (history client kv.1 log).length := by
  rw [h.current] at hnext hfit
  exact toInt_nextVersion (h.versions client kv.1) hnext hfit

/-- An accepted put extends the history of each of its keys by its value, and no other. -/
theorem Linear.accepted (h : Linear log db) (hkeys : (kvs.map Prod.fst).Nodup)
    (hnext : ∀ kv ∈ kvs, nextVersion o (db.lookup (sledKey client kv.1)) = .ok kv.2.version)
    (hfit : o = .checked ∨ ∀ kv ∈ kvs, ∀ value, db.lookup (sledKey client kv.1) = some value →
      value.version ≠ maxValue) :
    Linear (log ++ [⟨db, .put client kvs, .put (.ok ()), insertAll client kvs db⟩])
      (insertAll client kvs db) := by
  have hcase (client' : List UInt8) (key : Text) :
      (insertAll client kvs db).lookup (sledKey client' key) =
          (history client' key log ++ written client' key
            (⟨db, .put client kvs, .put (.ok ()), insertAll client kvs db⟩ :
              Entry _ _ _)).getLast? ∧
        Consecutive (history client' key log ++ written client' key
          (⟨db, .put client kvs, .put (.ok ()), insertAll client kvs db⟩ : Entry _ _ _)) := by
    simp only [written]
    by_cases hmem : client = client' ∧ key ∈ kvs.map Prod.fst
    · obtain ⟨rfl, hkey⟩ := hmem
      obtain ⟨kv, hkv, rfl⟩ := mem_map.mp hkey
      have hversion := h.version_eq (hnext kv hkv) (hfit.imp_right fun hmax => hmax kv hkv)
      rw [if_pos rfl, filter_key_of_mem hkeys hkv, map_singleton]
      constructor
      · rw [lookup_insertAll_of_mem hkv (eq_of_nodup_keys hkeys), getLast?_concat]
      · exact consecutive_concat (h.versions client kv.1) hversion
    · have hnil : (if client = client' then (kvs.filter fun kv => kv.1 = key).map (·.2) else []) =
          ([] : List Value) := by
        split_ifs with hclient
        · rw [map_eq_nil_iff, filter_eq_nil_iff]
          intro kv hkv heq
          exact hmem ⟨hclient, of_decide_eq_true heq ▸ mem_map_of_mem hkv⟩
        · rfl
      have hne : ∀ kv ∈ kvs, sledKey client' key ≠ sledKey client kv.1 := by
        intro kv hkv heq
        obtain ⟨rfl, rfl⟩ := sledKey_inj.mp heq
        exact hmem ⟨rfl, mem_map_of_mem hkv⟩
      rw [hnil, append_nil]
      constructor
      · rw [lookup_insertAll_of_ne hne, h.current]
      · exact h.versions client' key
  constructor
  · intro client' key
    rw [history_concat]
    exact (hcase client' key).1
  · intro client' key
    rw [history_concat]
    exact (hcase client' key).2

/-- A step that stores nothing and leaves the store alone keeps it linear. -/
theorem Linear.unchanged (h : Linear log db) {event : DbCall} {answer : DbReply}
    (hwritten : ∀ client key,
      written client key (⟨db, event, answer, db⟩ : Entry SledDatabase _ _) = []) :
    Linear (log ++ [⟨db, event, answer, db⟩]) db := by
  constructor
  · intro client key
    rw [history_concat, hwritten, append_nil]
    exact h.current client key
  · intro client key
    rw [history_concat, hwritten, append_nil]
    exact h.versions client key

/-- Every step that fits keeps the store linear. -/
theorem Linear.step (h : Linear log db) {event : DbCall}
    (hfits : Fits o ((database o).machine.entry db event)) :
    Linear (log ++ [(database o).machine.entry db event])
      ((database o).machine.step db event).1 := by
  cases event with
  | put client kvs =>
    obtain ⟨hkeys, hfit⟩ := hfits client kvs rfl
    rcases step_put (o := o) db client kvs with ⟨hnext, hstep⟩ | ⟨e, hstep⟩
    · rw [entry, hstep]
      exact h.accepted hkeys hnext hfit
    · rw [entry, hstep]
      exact h.unchanged fun _ _ => rfl
  | getWithPrefix client start => exact h.unchanged fun _ _ => rfl

/-! ## Whole runs -/

theorem linear_of_run (events : List DbCall)
    (hfits : ∀ x ∈ (database o).machine.trace ∅ events, Fits o x) :
    Linear ((database o).machine.trace ∅ events) ((database o).machine.final ∅ events) := by
  apply (database o).machine.run_induction (C := Fits o) (P := Linear) _ _ events hfits
  · exact ⟨fun _ _ => rfl, fun _ _ => rfl⟩
  · intro log db event h hfit
    exact h.step hfit

/-- An accepted put carries, for each of its keys, the length of the key's history. -/
theorem version_of_accepted (h : Linear log db)
    (hfits : Fits o ((database o).machine.entry db (.put client kvs)))
    (hanswer : ((database o).machine.step db (.put client kvs)).2 = .put (.ok ()))
    (hkv : kv ∈ kvs) : kv.2.version.toInt = (history client kv.1 log).length := by
  rcases step_put (o := o) db client kvs with ⟨hnext, -⟩ | ⟨e, hstep⟩
  · exact h.version_eq (hnext kv hkv) ((hfits client kvs rfl).2.imp_right fun hmax => hmax kv hkv)
  · rw [hstep] at hanswer
    cases hanswer

/-- A list that was accepted once and is not empty is not accepted again. -/
theorem not_accepted_again {events : List DbCall}
    (hfits : ∀ x ∈ (database o).machine.trace ∅ events, Fits o x)
    {first middle last : List (Entry SledDatabase DbCall DbReply)}
    {x y : Entry SledDatabase DbCall DbReply}
    (htrace : (database o).machine.trace ∅ events = first ++ x :: (middle ++ y :: last))
    (hx : x.event = .put client kvs) (hy : y.event = .put client kvs) (hne : kvs ≠ [])
    (hxanswer : x.answer = .put (.ok ())) : y.answer ≠ .put (.ok ()) := by
  intro hyanswer
  obtain ⟨kv, hkv⟩ := exists_mem_of_ne_nil kvs hne
  have htrace' : (database o).machine.trace ∅ events = (first ++ x :: middle) ++ y :: last := by
    rw [htrace, append_assoc, cons_append]
  obtain ⟨before, event, after, rfl, hfirst, rfl⟩ := trace_eq_append_cons _ htrace
  obtain ⟨before', event', after', hevents, hfirst', rfl⟩ := trace_eq_append_cons _ htrace'
  obtain rfl : event = .put client kvs := hx
  obtain rfl : event' = .put client kvs := hy
  have hlinear := linear_of_run before fun z hz => hfits z (by
    rw [htrace]
    exact mem_append_left _ (hfirst ▸ hz))
  have hlinear' := linear_of_run before' fun z hz => hfits z (by
    rw [htrace']
    exact mem_append_left _ (hfirst' ▸ hz))
  have hversion := version_of_accepted hlinear (hfits _ (by simp [htrace])) hxanswer hkv
  have hversion' := version_of_accepted hlinear' (hfits _ (by simp [htrace'])) hyanswer hkv
  have hlength : 0 < (written client kv.1 ((database o).machine.entry
      ((database o).machine.final ∅ before) (.put client kvs))).length := by
    rw [written, hxanswer]
    simp only [Machine.entry_event, if_true]
    exact length_pos_of_mem (mem_map_of_mem (mem_filter.mpr ⟨hkv, by simp⟩))
  rw [← hfirst] at hversion
  rw [← hfirst'] at hversion'
  simp only [history, flatMap_append, flatMap_cons,
    length_append] at hversion hversion'
  omega

/-- In every run from the empty store whose lists have distinct keys and in which no put meets the
largest version in a build that wraps: the versions stored for a key are 0, 1, 2 and so on, a
rejected put changes nothing, an accepted list that is not empty is not accepted again, and a get
returns exactly the client's keys that begin with the text, with their last values. -/
theorem sled_store_linear {o : Overflow} {events : List DbCall}
    (hfits : ∀ x ∈ (database o).machine.trace ∅ events, Fits o x) :
    (∀ client key, Consecutive (history client key ((database o).machine.trace ∅ events))) ∧
    (∀ x ∈ (database o).machine.trace ∅ events, ∀ client kvs, x.event = .put client kvs →
      x.answer ≠ .put (.ok ()) → x.after = x.before) ∧
    (∀ first x middle y last client kvs,
      (database o).machine.trace ∅ events = first ++ x :: (middle ++ y :: last) →
      x.event = .put client kvs → y.event = .put client kvs → kvs ≠ [] →
      x.answer = .put (.ok ()) → y.answer ≠ .put (.ok ())) ∧
    (∀ client start, ∃ l,
      getWithPrefix client start ((database o).machine.final ∅ events) = .ok l ∧
      (l.map Prod.fst).Nodup ∧ ∀ key value, (key, value) ∈ l ↔ start <+: key ∧
        (history client key ((database o).machine.trace ∅ events)).getLast? = some value) := by
  have hlinear := linear_of_run events hfits
  refine ⟨hlinear.versions, ?_, ?_, ?_⟩
  · intro x hx client kvs hevent hanswer
    obtain ⟨before, event, after, rfl, rfl⟩ := exists_of_mem_trace _ hx
    obtain rfl : event = .put client kvs := hevent
    rcases step_put (o := o) ((database o).machine.final ∅ before) client kvs with
      ⟨-, hstep⟩ | ⟨e, hstep⟩
    · exact absurd (congrArg Prod.snd hstep) hanswer
    · exact congrArg Prod.fst hstep
  · intro first x middle y last client kvs htrace hx hy hne hxanswer
    exact not_accepted_again hfits htrace hx hy hne hxanswer
  · intro client start
    have hget := getWithPrefix_eq client start ((database o).machine.final ∅ events)
    refine ⟨_, hget, nodup_keys_getWithPrefix hget, ?_⟩
    intro key value
    rw [mem_getWithPrefix hget, hlinear.current]

/-! ## The last version -/

namespace Sample

/-- The put of an empty value with the version `n` under the key `a`. -/
def putA (n : Nat) : DbCall := .put [] [(['a'], ⟨ofNat n, []⟩)]

/-- The puts of the first `n` versions. -/
def puts (n : Nat) : List DbCall := (List.range n).map putA

/-- The first two versions are stored in turn. -/
theorem sled_store_linear_sample :
    Consecutive (history [] ['a'] ((database .checked).machine.trace ∅ (puts 2))) := by
  refine (sled_store_linear ?_).1 [] ['a']
  intro x hx client kvs hevent
  have hmem := event_mem_of_mem_trace _ hx
  rw [hevent] at hmem
  obtain ⟨n, -, hput⟩ := mem_map.mp hmem
  obtain ⟨-, rfl⟩ := DbCall.put.inj hput
  exact ⟨by simp, .inl rfl⟩

/-- In a build that wraps, every next version is accepted. -/
theorem nextVersion_ofNat (n : Nat) :
    nextVersion .wrapping (some ⟨ofNat n, []⟩) = .ok (ofNat (n + 1)) := by
  have hvalue : ofInt ((ofNat n).toInt + 1) = ofNat (n + 1) := by
    rw [ofInt_add, ofInt_toInt, ofNat_add]
    rfl
  rw [nextVersion, Overflow.i64, hvalue, ite_self]

/-- After the puts of the first versions, the last of them is stored, and no put was refused. -/
theorem puts_stored (n : Nat) :
    ((database .wrapping).machine.final ∅ (puts n)).lookup (sledKey [] ['a']) =
        (history [] ['a'] ((database .wrapping).machine.trace ∅ (puts n))).getLast? ∧
      history [] ['a'] ((database .wrapping).machine.trace ∅ (puts n)) =
        (range n).map fun i => ⟨ofNat i, []⟩ := by
  induction n with
  | zero => exact ⟨rfl, rfl⟩
  | succ n ih =>
    obtain ⟨hlookup, hhistory⟩ := ih
    have hnext : nextVersion .wrapping (((database .wrapping).machine.final ∅ (puts n)).lookup
        (sledKey [] ['a'])) = .ok (ofNat n) := by
      rw [hlookup, hhistory]
      cases n with
      | zero => rfl
      | succ m =>
        rw [range_succ, map_append, map_singleton, getLast?_concat]
        exact nextVersion_ofNat m
    have hstep : (database .wrapping).machine.step ((database .wrapping).machine.final ∅ (puts n))
        (putA n) = (insertAll [] [(['a'], ⟨ofNat n, []⟩)]
          ((database .wrapping).machine.final ∅ (puts n)), .put (.ok ())) := by
      have hput : (put .wrapping [] [(['a'], ⟨ofNat n, []⟩)]).exec
          ((database .wrapping).machine.final ∅ (puts n)) = (.ok (), _) :=
        exec_put_eq_ok_iff.mpr ⟨fun kv hkv => mem_singleton.mp hkv ▸ hnext, rfl⟩
      exact Prod.ext (congrArg Prod.snd hput) (congrArg DbReply.put (congrArg Prod.fst hput))
    have hputs : puts (n + 1) = puts n ++ [putA n] := by
      rw [puts, range_succ, map_append, map_singleton]
      rfl
    have htrace : history [] ['a'] ((database .wrapping).machine.trace ∅ (puts (n + 1))) =
        (range (n + 1)).map fun i => ⟨ofNat i, []⟩ := by
      rw [hputs, trace_append, trace_cons, trace_nil, history_concat,
        hhistory, range_succ, map_append, entry, hstep]
      rfl
    constructor
    · rw [htrace, hputs, final_append, range_succ, map_append,
        map_singleton, getLast?_concat]
      change ((database .wrapping).machine.step _ (putA n)).1.lookup _ = _
      rw [hstep]
      exact AList.lookup_insert _
    · exact htrace

/-- In a build that wraps, the version stored after the largest one is the smallest one. -/
theorem sled_version_wraps :
    (history [] ['a'] ((database .wrapping).machine.trace ∅ (puts (2 ^ 63 + 1)))).getLast? =
        some ⟨minValue, []⟩ ∧
      ¬ Consecutive (history [] ['a']
        ((database .wrapping).machine.trace ∅ (puts (2 ^ 63 + 1)))) := by
  have hlast : (history [] ['a']
      ((database .wrapping).machine.trace ∅ (puts (2 ^ 63 + 1)))).getLast? =
        some ⟨minValue, []⟩ := by
    rw [(puts_stored _).2, range_succ, map_append, map_singleton,
      getLast?_concat]
    rfl
  refine ⟨hlast, ?_⟩
  intro h
  have hversion := h.getLast hlast
  rw [toInt_minValue] at hversion
  omega

end Sample

end ValidatingSigner.Storage.SledDatabase
