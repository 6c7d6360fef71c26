import Vls.Chain.World

/-!
# A sample chain

A small environment to evaluate the tracker in: transactions are identified by their lock time,
headers by their nonce, every proof verifies, and a stream has one byte for each event.
-/

namespace ValidatingSigner.ChainSample

open Base

/-- Transactions are identified by their lock time. -/
def txid (tx : Transaction) : Txid := BitVec.ofNat 256 tx.lockTime

/-- The sample environment, with the events of the block that is streamed. -/
def env (events : List PushEvent) : ChainEnv where
  overflow := .checked
  filter := .default
  txid := txid
  blockHash header := BitVec.ofNat 256 header.nonce
  target _ := 1
  validatePow _ := true
  compactTargetFromU256 _ := 0
  u256FromCompactTarget _ := 0
  filterHeader _ := 1
  verify _ _ _ _ _ _ := .ok ()
  decoded bytes := if bytes.length ≤ events.length then some (events.take bytes.length) else none
  finished bytes := bytes.length == events.length

/-- The sample environment in which a block is streamed. -/
def streaming (header : BlockHeader) (txs : List Transaction) : ChainEnv :=
  env (blockEvents txid header txs)

/-- The decoder of the sample environment reports the events of the block one by one. -/
theorem lawful (header : BlockHeader) (txs : List Transaction) :
    ChainTracker.LawfulDecoder (streaming header txs) := by
  have htake {bytes : List UInt8} {events : List PushEvent}
      (h : (streaming header txs).decoded bytes = some events) :
      bytes.length ≤ (blockEvents txid header txs).length ∧
        events = (blockEvents txid header txs).take bytes.length := by
    by_cases hle : bytes.length ≤ (blockEvents txid header txs).length
    · simp only [streaming, env, if_pos hle, Option.some.injEq] at h
      exact ⟨hle, h.symm⟩
    · simp only [streaming, env, if_neg hle, reduceCtorEq] at h
  constructor
  · rfl
  · intro bytes events h
    rw [(htake h).2]
    exact ⟨header, txs, List.take_prefix _ _⟩
  · intro bytes chunk before after hbefore hafter
    rw [(htake hbefore).2, (htake hafter).2, List.length_append]
    exact List.take_prefix_take_left (Nat.le_add_right _ _)
  · intro bytes events hfinished h
    have hlength := beq_iff_eq.mp hfinished
    rw [(htake h).2, hlength, List.take_length]
    exact ⟨header, txs, rfl⟩

/-- The header with a nonce on top of another. -/
def header (nonce prev : Nat) : BlockHeader := ⟨1, BitVec.ofNat 256 prev, 0, 0, 0, nonce⟩

/-- A filter proof with transactions. -/
def filterProof (txs : List Transaction) : TxoProof := ⟨[], .filter [] txs⟩

/-- The proof of a block that has been streamed. -/
def externalProof : TxoProof := ⟨[], .externalBlock⟩

/-- A tracker of channel monitors at height zero. -/
def tracker : ChainTracker OutPoint ChainMonitor where
  headers := []
  tip := ⟨header 0 0, 1⟩
  height := 0
  network := .regtest
  listeners := ∅
  decodeState := none

/-- The sample environment when only an empty block can be streamed. -/
def quiet : ChainEnv := streaming (header 0 0) []

theorem lawful_quiet : ChainTracker.LawfulDecoder quiet := lawful _ _

/-! ## A sample tree of blocks -/

/-- The transaction with an identifier that spends outpoints and has a number of outputs. -/
def transaction (id : Nat) (spends : List OutPoint) (outputs : Nat) : Transaction where
  version := 2
  lockTime := id
  input := spends.map fun outpoint => ⟨outpoint, [], 0, []⟩
  output := List.replicate outputs ⟨0, []⟩

/-- The funding transaction of the sample channel, with the funding outpoint `7:0`. -/
def funding : Transaction := transaction 7 [.null] 2

/-- A transaction that closes the sample channel. -/
def closing : Transaction := transaction 8 [⟨7, 0⟩] 1

/-- The chain of blocks with these bodies, oldest first, on top of the tip of the sample tracker. -/
def world {events : List PushEvent} (bodies : List (List Transaction))
    (hlength : bodies.length < 2 ^ 32) (hvalid : ConsensusValid txid bodies.reverse) :
    World (env events) where
  valid block := ∃ n < bodies.length, block = header (n + 1) n
  body block := bodies.getD (block.nonce - 1) []
  chain hash := (bodies.take hash.toNat).reverse
  grows := by
    rintro _ ⟨n, hn, rfl⟩
    have hnext : (BitVec.ofNat 256 (n + 1)).toNat = n + 1 := by
      rw [BitVec.toNat_ofNat]
      omega
    have hprev : (BitVec.ofNat 256 n).toNat = n := by
      rw [BitVec.toNat_ofNat]
      omega
    change (bodies.take (BitVec.ofNat 256 (n + 1)).toNat).reverse = bodies.getD n [] ::
      (bodies.take (BitVec.ofNat 256 n).toNat).reverse
    rw [hnext, hprev, List.take_succ_eq_append_getElem hn, List.reverse_append]
    simp [hn]
  consensus := by
    rintro block -
    change ConsensusValid txid (bodies.take _).reverse
    rw [List.reverse_take]
    exact hvalid.drop _

/-- A chain that funds the sample channel and closes it. -/
def closedWorld : World quiet :=
  world [[funding], [closing]] (by decide) (ConsensusValid.of_validHistory (by decide))

end ValidatingSigner.ChainSample
