import Vls.Chain.Sample

/-!
# Integrity of the tracked chain

Whatever listeners a tracker is given and whatever blocks it is asked to add and remove, its headers
stay a hash chain of bounded length, its height counts the blocks, a refused call changes nothing,
watches included, and the blocks that were just added can be removed again.
-/

namespace ValidatingSigner

open Base List

namespace ChainTracker

variable {κ L : Type} [DecidableEq κ] {network : Network} {tip : Headers}

/-- A call that changes the tip, or what is watched. -/
inductive TrackerCall (κ L : Type) where
  | add (header : BlockHeader) (proof : TxoProof)
  | remove (proof : TxoProof)
  | addListener (listener : L) (initialTxidWatches : Finset Txid)
  | addListenerWatches (key : κ) (watches : Finset OutPoint)

/-- The tracker as a machine over its calls. -/
def trackerMachine (E : ChainEnv) (I : ChainListener κ L) :
    Machine (ChainTracker κ L) (TrackerCall κ L) (ChainResult Unit) where
  step T
    | .add header proof =>
      let (r, T') := Effect.exec (addBlock E I header proof) T
      (T', r)
    | .remove proof =>
      let (r, T') := Effect.exec (removeBlock E I proof) T
      (T', r.map fun _ => ())
    | .addListener listener initialTxidWatches =>
      (T.addListener I listener initialTxidWatches, .ok ())
    | .addListenerWatches key watches =>
      match T.addListenerWatches key watches with
      | .ok T' => (T', .ok ())
      | .error (.abort message) => (T, .error (.abort message))

/-- A step of such a run. -/
abbrev TrackerEntry (κ L : Type) := Entry (ChainTracker κ L) (TrackerCall κ L) (ChainResult Unit)

/-- The number of blocks a run has added. -/
def added (log : List (TrackerEntry κ L)) : Nat :=
  log.countP fun x => match x.event, x.answer with
    | .add _ _, .ok () => true
    | _, _ => false

/-- The number of blocks a run has removed. -/
def removed (log : List (TrackerEntry κ L)) : Nat :=
  log.countP fun x => match x.event, x.answer with
    | .remove _, .ok () => true
    | _, _ => false

/-- No call of a run has aborted. -/
def NeverAborts (log : List (TrackerEntry κ L)) : Prop :=
  ∀ x ∈ log, ∀ message, x.answer ≠ .error (.abort message)

/-- The tip and the headers below it are a hash chain. -/
def HashChain (E : ChainEnv) (T : ChainTracker κ L) : Prop :=
  (T.tip :: T.headers).IsChain fun block below =>
    block.header.prevBlockhash = E.blockHash below.header

/-- The validator accepts the proof for removing the tip. -/
def ProofAccepted (E : ChainEnv) (T : ChainTracker κ L) (proof : TxoProof) : Prop :=
  ∀ prev rest height, T.headers = prev :: rest →
    (E.overflow.sub32 T.height 1 : ChainResult Nat) = .ok height →
    validateProof E height (externalBlockHash proof (E.blockHash prev.header)) prev T.tip.header
      proof (T.outpointWatches true) = .ok ()

/-! ## The checked chain -/

/-- Every header above the last one has been checked on top of the next one, at its height. -/
def Checked (E : ChainEnv) (network : Network) : Nat → Headers → List Headers → Prop
  | _, _, [] => True
  | height, tip, prev :: rest =>
    ∃ below, (E.overflow.sub32 height 1 : ChainResult Nat) = .ok below ∧
      validateHeader E network below prev.header tip.header = .ok () ∧
      Checked E network below prev rest

/-- Checked headers are a hash chain. -/
theorem Checked.isChain {E : ChainEnv} {height : Nat} {headers : List Headers}
    (h : Checked E network height tip headers) :
    (tip :: headers).IsChain fun block below =>
      block.header.prevBlockhash = E.blockHash below.header := by
  induction headers generalizing height tip with
  | nil => exact isChain_singleton tip
  | cons prev rest ih =>
    obtain ⟨below, -, hvalid, hrest⟩ := h
    exact isChain_cons_cons.mpr ⟨prevBlockhash_of_validateHeader hvalid, ih hrest⟩

/-- Forgetting the oldest headers keeps the rest checked. -/
theorem Checked.take {E : ChainEnv} {height : Nat} {headers : List Headers}
    (h : Checked E network height tip headers) (n : Nat) :
    Checked E network height tip (headers.take n) := by
  induction headers generalizing height tip n with
  | nil =>
    rw [take_nil]
    exact h
  | cons prev rest ih =>
    cases n with
    | zero => exact trivial
    | succ n =>
      obtain ⟨below, hbelow, hvalid, hrest⟩ := h
      exact ⟨below, hbelow, hvalid, ih hrest n⟩

/-- What holds of a tracker after every run from height `start`. -/
structure Intact (E : ChainEnv) (start : Nat)
    (log : List (TrackerEntry κ L)) (T : ChainTracker κ L) :
    Prop where
  idle : T.decodeState = none
  checked : Checked E T.network T.height T.tip T.headers
  bounded : T.headers.length ≤ maxReorgSize
  net : T.headers.length + removed log ≤ added log
  height : T.height = (start + added log - removed log) % 2 ^ 32
  exact : E.overflow = .checked → T.height = start + added log - removed log

variable {E : ChainEnv} {I : ChainListener κ L}

omit [DecidableEq κ] in
theorem Intact.height_lt {start : Nat} {T : ChainTracker κ L}
    {log : List (TrackerEntry κ L)}
    (h : Intact E start log T) : T.height < 2 ^ 32 := by
  rw [h.height]
  exact Nat.mod_lt _ (by decide)

variable {T' : ChainTracker κ L} {header : BlockHeader} {proof : TxoProof}

/-- A new block on a checked chain keeps it checked. -/
theorem Adds.checked {T : ChainTracker κ L} (h : Adds E I T header proof T')
    (hlt : T.height < 2 ^ 32) (hchecked : Checked E T.network T.height T.tip T.headers) :
    Checked E T'.network T'.height T'.tip T'.headers := by
  rw [h.network, h.tip, h.headers]
  exact ⟨T.height, Overflow.sub32_of_u32 hlt h.height, h.validHeader, hchecked.take _⟩

theorem Removes.checked {T : ChainTracker κ L} (h : Removes E I T proof T')
    (hchecked : Checked E T.network T.height T.tip T.headers) :
    Checked E T'.network T'.height T'.tip T'.headers := by
  rw [h.headers] at hchecked
  obtain ⟨below, hbelow, -, hrest⟩ := hchecked
  obtain rfl : T'.height = below := Except.ok.inj (h.height.symm.trans hbelow)
  rw [h.network]
  exact hrest

theorem Adds.length_headers {T : ChainTracker κ L} (h : Adds E I T header proof T') :
    T'.headers.length = min (maxReorgSize - 1) T.headers.length + 1 := by
  rw [h.headers, length_cons, length_take]

/-! ## One call -/

/-- What a call answers and leaves. -/
inductive Outcome (E : ChainEnv) (I : ChainListener κ L) (T : ChainTracker κ L) :
    TrackerCall κ L → ChainResult Unit → ChainTracker κ L → Prop
  | aborted (call : TrackerCall κ L) (message : String) (T' : ChainTracker κ L) :
    Outcome E I T call (.error (.abort message)) T'
  | refused (call : TrackerCall κ L) (e : ChainError) : Outcome E I T call (.error (.refuse e)) T
  | added {header : BlockHeader} {proof : TxoProof} {T' : ChainTracker κ L}
    (h : Adds E I T header proof T') : Outcome E I T (.add header proof) (.ok ()) T'
  | removed {proof : TxoProof} {T' : ChainTracker κ L} (h : Removes E I T proof T') :
    Outcome E I T (.remove proof) (.ok ()) T'
  | listening (listener : L) (txids : Finset Txid) :
    Outcome E I T (.addListener listener txids) (.ok ()) (T.addListener I listener txids)
  | watching {key : κ} {watches : Finset OutPoint} {listener : L} {slot : ListenSlot}
    (h : T.listeners.lookup key = some (listener, slot)) :
    Outcome E I T (.addListenerWatches key watches) (.ok ())
      { T with listeners :=
        T.listeners.insert key (listener, { slot with watches := slot.watches ∪ watches }) }

/-- A call to a tracker that is not streaming aborts, changes nothing, changes the tip, or adds to
what is watched. -/
theorem outcome {T : ChainTracker κ L} (hidle : T.decodeState = none) (call : TrackerCall κ L) :
    Outcome E I T call ((trackerMachine E I).step T call).2
      ((trackerMachine E I).step T call).1 := by
  have hsame : { T with decodeState := none } = T := by rw [← hidle]
  cases call with
  | add header proof =>
    rcases hexec : Effect.exec (addBlock E I header proof) T with ⟨r, T'⟩
    simp only [trackerMachine, hexec]
    rcases exec_addBlock hexec with ⟨message, rfl⟩ | ⟨e, rfl, -, rfl⟩ | ⟨rfl, h⟩
    · exact .aborted _ message T'
    · rw [hsame]
      exact .refused _ e
    · exact .added h
  | remove proof =>
    rcases hexec : Effect.exec (removeBlock E I proof) T with ⟨r, T'⟩
    simp only [trackerMachine, hexec]
    rcases exec_removeBlock hexec with ⟨message, rfl⟩ | ⟨e, rfl, hrefused⟩ | ⟨rfl, h⟩
    · exact .aborted _ message T'
    · obtain rfl : T' = T := by
        rcases hrefused with ⟨-, -, rfl⟩ | ⟨_, _, _, _, _, _, _, rfl⟩
        · rfl
        · exact hsame
      exact .refused _ e
    · exact .removed h
  | addListener listener txids => exact .listening listener txids
  | addListenerWatches key watches =>
    simp only [trackerMachine, addListenerWatches]
    cases hlookup : T.listeners.lookup key with
    | none => exact .aborted _ _ T
    | some entry => exact .watching hlookup

/-! ## Counting the blocks -/

section Counting

variable (log : List (TrackerEntry κ L)) (T : ChainTracker κ L)

omit [DecidableEq κ] in
theorem counts_error (call : TrackerCall κ L) (e : Fault ChainError) (T' : ChainTracker κ L) :
    added (log ++ [⟨T, call, .error e, T'⟩]) = added log ∧
      removed (log ++ [⟨T, call, .error e, T'⟩]) = removed log := by
  cases call <;> simp [added, removed]

omit [DecidableEq κ] in
theorem counts_add (header : BlockHeader) (proof : TxoProof) (T' : ChainTracker κ L) :
    added (log ++ [⟨T, .add header proof, .ok (), T'⟩]) = added log + 1 ∧
      removed (log ++ [⟨T, .add header proof, .ok (), T'⟩]) = removed log := by
  simp [added, removed]

omit [DecidableEq κ] in
theorem counts_remove (proof : TxoProof) (T' : ChainTracker κ L) :
    added (log ++ [⟨T, .remove proof, .ok (), T'⟩]) = added log ∧
      removed (log ++ [⟨T, .remove proof, .ok (), T'⟩]) = removed log + 1 := by
  simp [added, removed]

end Counting

/-! ## Whole runs -/

variable {start : Nat} {T : ChainTracker κ L}
  {log : List (TrackerEntry κ L)}

/-- An added block keeps the tracker intact. -/
theorem Intact.add (h : Intact E start log T) (hadds : Adds E I T header proof T') :
    Intact E start (log ++ [⟨T, .add header proof, .ok (), T'⟩]) T' := by
  obtain ⟨hadded, hremoved⟩ := counts_add log T header proof T'
  have hlength := hadds.length_headers
  have hnet := h.net
  have hheight := h.height
  refine ⟨hadds.decodeState, hadds.checked h.height_lt h.checked, ?_, ?_, ?_, ?_⟩
  · rw [hlength]
    have : maxReorgSize = 100 := rfl
    omega
  · rw [hadded, hremoved, hlength]
    omega
  · rw [hadded, hremoved, Overflow.eq_mod_of_uint hadds.height]
    omega
  · intro hchecked
    have hu32 := hadds.height
    rw [hchecked] at hu32
    rw [hadded, hremoved, (Overflow.eq_of_uint_checked hu32).1, h.exact hchecked]
    omega

/-- A removed block keeps the tracker intact. -/
theorem Intact.remove (h : Intact E start log T) (hremoves : Removes E I T proof T') :
    Intact E start (log ++ [⟨T, .remove proof, .ok (), T'⟩]) T' := by
  obtain ⟨hadded, hremoved⟩ := counts_remove log T proof T'
  have hlength : T.headers.length = T'.headers.length + 1 := by
    rw [hremoves.headers, length_cons]
  have hnet := h.net
  have hheight := h.height
  have hbounded := h.bounded
  refine ⟨hremoves.decodeState, hremoves.checked h.checked, by omega, ?_, ?_, ?_⟩
  · rw [hadded, hremoved]
    omega
  · rw [hadded, hremoved, Overflow.eq_mod_of_sub32 h.height_lt hremoves.height]
    omega
  · intro hchecked
    have hsub := hremoves.height
    rw [hchecked] at hsub
    rw [hadded, hremoved, (Overflow.eq_of_sub32_checked hsub).1, h.exact hchecked]
    omega

omit [DecidableEq κ] in
/-- A call that counts as nothing keeps the tracker intact if it touches the listeners only. -/
theorem Intact.of_listeners (h : Intact E start log T) {call : TrackerCall κ L}
    {answer : ChainResult Unit} (listeners : Table κ (L × ListenSlot))
    (hadded : added (log ++ [⟨T, call, answer, { T with listeners }⟩]) = added log)
    (hremoved : removed (log ++ [⟨T, call, answer, { T with listeners }⟩]) = removed log) :
    Intact E start (log ++ [⟨T, call, answer, { T with listeners }⟩]) { T with listeners } := by
  refine ⟨h.idle, h.checked, h.bounded, ?_, ?_, ?_⟩
  · rw [hadded, hremoved]
    exact h.net
  · rw [hadded, hremoved]
    exact h.height
  · rw [hadded, hremoved]
    exact h.exact

/-- A call that does not abort keeps the tracker intact. -/
theorem Intact.step (h : Intact E start log T) (call : TrackerCall κ L)
    (habort : ∀ message, ((trackerMachine E I).entry T call).answer ≠ .error (.abort message)) :
    Intact E start (log ++ [(trackerMachine E I).entry T call])
      ((trackerMachine E I).step T call).1 := by
  have houtcome := outcome (E := E) (I := I) h.idle call
  unfold Machine.entry at habort ⊢
  generalize (trackerMachine E I).step T call = result at houtcome habort ⊢
  obtain ⟨T', r⟩ := result
  cases houtcome with
  | aborted _ message _ => exact absurd rfl (habort message)
  | refused _ e =>
    obtain ⟨hadded, hremoved⟩ := counts_error log T' call (.refuse e) T'
    exact h.of_listeners T'.listeners hadded hremoved
  | added hadds => exact h.add hadds
  | removed hremoves => exact h.remove hremoves
  | listening listener txids => exact h.of_listeners _ (by simp [added]) (by simp [removed])
  | watching hlookup => exact h.of_listeners _ (by simp [added]) (by simp [removed])

omit [DecidableEq κ] in
theorem Intact.of_new (hstart : start < 2 ^ 32)
    (hnew : ChainTracker.new E network start tip = .ok T) : Intact E start [] T := by
  obtain ⟨_, -, hT⟩ := bind_ok hnew
  cases hT
  exact ⟨rfl, trivial, Nat.zero_le _, le_refl 0, (Nat.mod_eq_of_lt hstart).symm, fun _ => rfl⟩

/-- Every run without an abort keeps the tracker intact. -/
theorem Intact.run (h : Intact E start log T) (calls : List (TrackerCall κ L))
    (hruns : NeverAborts ((trackerMachine E I).trace T calls)) :
    Intact E start (log ++ (trackerMachine E I).trace T calls)
      ((trackerMachine E I).final T calls) := by
  induction calls generalizing log T with
  | nil => simpa using h
  | cons call calls ih =>
    have hstep := h.step call fun message => hruns _ mem_cons_self message
    have hrest := ih hstep fun x hx => hruns x (mem_cons_of_mem _ hx)
    rw [append_assoc] at hrest
    exact hrest

/-! ## Removing what was added -/

/-- Added blocks can be found below the tip, up to the longest reorganization. -/
theorem length_headers_of_adds (h : Intact E start log T) (adds : List (BlockHeader × TxoProof))
    (hok : ∀ x ∈ (trackerMachine E I).trace T (adds.map fun a => .add a.1 a.2), x.answer = .ok ()) :
    min maxReorgSize (T.headers.length + adds.length) ≤
      ((trackerMachine E I).final T (adds.map fun a => .add a.1 a.2)).headers.length := by
  -- Every add pushes a header, and once the bound is reached each push drops the oldest.
  induction adds generalizing log T with
  | nil => exact min_le_right _ _
  | cons a adds ih =>
    have hanswer := hok _ mem_cons_self
    have hstep := h.step (I := I) (.add a.1 a.2) fun message hm => by
      rw [hanswer] at hm
      cases hm
    have hrest := ih hstep fun x hx => hok x (mem_cons_of_mem _ hx)
    have hlength : min maxReorgSize (T.headers.length + 1) ≤
        ((trackerMachine E I).step T (.add a.1 a.2)).1.headers.length := by
      have houtcome := outcome (E := E) (I := I) h.idle (.add a.1 a.2)
      rw [show ((trackerMachine E I).step T (.add a.1 a.2)).2 = .ok () from hanswer] at houtcome
      generalize ((trackerMachine E I).step T (.add a.1 a.2)).1 = T' at houtcome ⊢
      cases houtcome with
      | added hadds =>
        rw [hadds.length_headers]
        have : maxReorgSize = 100 := rfl
        omega
    refine le_trans ?_ hrest
    rw [length_cons]
    omega

/-- The tip can be removed with an accepted proof while a header is left below it. -/
theorem removes_of_accepted (hchecked : Checked E T.network T.height T.tip T.headers)
    (hheaders : T.headers ≠ []) (hproof : ProofAccepted E T proof)
    (habort : ∀ message,
      ((trackerMachine E I).step T (.remove proof)).2 ≠ .error (.abort message)) :
    ((trackerMachine E I).step T (.remove proof)).2 = .ok () ∧
      Removes E I T proof ((trackerMachine E I).step T (.remove proof)).1 := by
  rcases hexec : Effect.exec (removeBlock E I proof) T with ⟨r, T'⟩
  simp only [trackerMachine, hexec] at habort ⊢
  rcases exec_removeBlock hexec with ⟨message, rfl⟩ | ⟨e, rfl, hrefused⟩ | ⟨rfl, h⟩
  · exact absurd rfl (habort message)
  · rcases hrefused with ⟨hnil, -, -⟩ | ⟨prev, rest, height, hcons, -, hheight, hinvalid, -⟩
    · exact absurd hnil hheaders
    · rw [hcons] at hchecked
      obtain ⟨below, hbelow, hheader, -⟩ := hchecked
      obtain rfl : height = below := Except.ok.inj (hheight.symm.trans hbelow)
      have hvalid :=
        validateBlock_eq_ok (u := ()).mpr ⟨hheader, hproof prev rest height hcons hheight⟩
      rw [hvalid] at hinvalid
      cases hinvalid
  · exact ⟨rfl, h⟩

/-- Blocks can be removed with accepted proofs as long as headers are left below the tip. -/
theorem removes_succeed
    (hchecked : Checked E T.network T.height T.tip T.headers) (removes : List TxoProof)
    (hlength : removes.length ≤ T.headers.length)
    (habort : NeverAborts ((trackerMachine E I).trace T (removes.map .remove)))
    (hproof : ∀ x ∈ (trackerMachine E I).trace T (removes.map .remove),
      ∀ proof, x.event = .remove proof → ProofAccepted E x.before proof) :
    ∀ x ∈ (trackerMachine E I).trace T (removes.map .remove), x.answer = .ok () := by
  induction removes generalizing T with
  | nil => exact fun x hx => absurd hx not_mem_nil
  | cons proof removes ih =>
    have hheaders : T.headers ≠ [] := by
      intro hnil
      rw [hnil] at hlength
      cases hlength
    obtain ⟨hok, hremoves⟩ := removes_of_accepted hchecked hheaders
      (hproof _ mem_cons_self proof rfl) (habort _ mem_cons_self)
    have hshorter : removes.length ≤
        ((trackerMachine E I).step T (.remove proof)).1.headers.length := by
      rw [hremoves.headers] at hlength
      simpa using hlength
    intro x hx
    rcases mem_cons.mp hx with rfl | hx
    · exact hok
    · exact ih (hremoves.checked hchecked) hshorter
        (fun y hy => habort y (mem_cons_of_mem _ hy))
        (fun y hy => hproof y (mem_cons_of_mem _ hy)) x hx

open ChainSample

/-- A channel is registered, with an outpoint to watch besides; its funding transaction is
confirmed, and another block is added and removed again. -/
def sampleCalls : List (TrackerCall OutPoint ChainMonitor) :=
  [.addListener ⟨⟨7, 0⟩, { (ChainMonitor.new ⟨7, 0⟩ 0).state with
      fundingTxids := [7], fundingVouts := [0] }⟩ {7},
   .addListenerWatches ⟨7, 0⟩ {⟨5, 1⟩},
   .add (ChainSample.header 1 0) (filterProof [funding]),
   .add (ChainSample.header 2 1) (filterProof []),
   .remove (filterProof [])]

/-- The machine of the sample tracker. -/
def sampleMachine := trackerMachine (env []) (ChainMonitor.listener (env []))

theorem neverAborts_sampleCalls : NeverAborts (sampleMachine.trace tracker sampleCalls) := by
  have hanswers : (sampleMachine.trace tracker sampleCalls).map (·.answer) =
      replicate 5 (.ok ()) := by decide +kernel
  intro x hx message hm
  have hmem := mem_map_of_mem (f := (·.answer)) hx
  rw [hanswers, hm] at hmem
  simp at hmem

end ChainTracker

end ValidatingSigner
