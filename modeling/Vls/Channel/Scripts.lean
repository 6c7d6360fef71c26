import Vls.Base.Bytes
import Vls.Channel.Decoding
import Vls.Channel.Machine

/-!
# A script format to run

An instruction is written as a tag, the length of its data and the data.  Scripts written so are
read back, and a commitment is built by sorting its outputs: the assumptions made of the libraries
hold of this format.
-/

namespace ValidatingSigner

open Base Template

namespace Sample

/-! ## Writing and reading instructions -/

/-- The opcodes, each with its place as its tag. -/
def opcodes : List Opcode :=
  [.ifOp, .notIf, .elseOp, .endIf, .drop, .dup, .ifDup, .swap, .size, .equal, .equalVerify,
    .hash160, .checkSig, .checkSigVerify, .checkMultiSig, .cltv, .csv, .pushNum 1, .pushNum 2,
    .pushNum 16]

/-- The bytes of an instruction. -/
def writeInstruction : Instruction → Script
  | .op code => [UInt8.ofNat (opcodes.idxOf code + 1), 0]
  | .pushBytes data => 0 :: UInt8.ofNat data.length :: data

/-- The script with the given instructions. -/
def assemble (instructions : List Instruction) : Script := instructions.flatMap writeInstruction

/-- The instruction with a tag and data. -/
def readInstruction (tag : UInt8) (data : List UInt8) : Except String Instruction :=
  if tag = 0 then .ok (.pushBytes data)
  else match opcodes[tag.toNat - 1]? with
    | some code => .ok (.op code)
    | none => .error "unknown opcode"

/-- The first `count` instructions of a script. -/
def disassemble : Nat → Script → List (Except String Instruction)
  | count + 1, tag :: length :: rest =>
    readInstruction tag (rest.take length.toNat) :: disassemble count (rest.drop length.toNat)
  | _, _ => []

/-- The instructions that can be written. -/
def Writable : Instruction → Prop
  | .op code => code ∈ opcodes
  | .pushBytes data => data.length < 256

theorem readInstruction_op {code : Opcode} (h : code ∈ opcodes) :
    readInstruction (UInt8.ofNat (opcodes.idxOf code + 1)) [] = .ok (.op code) := by
  revert code
  decide

/-- An instruction that can be written is read back, and the rest of the script with it. -/
theorem disassemble_write {ins : Instruction} (h : Writable ins) (count : Nat) (rest : Script) :
    disassemble (count + 1) (writeInstruction ins ++ rest) = .ok ins :: disassemble count rest := by
  cases ins with
  | op code =>
    change readInstruction _ (rest.take 0) :: disassemble count (rest.drop 0) = _
    rw [List.take_zero, List.drop_zero, readInstruction_op h]
  | pushBytes data =>
    have hlength : (UInt8.ofNat data.length).toNat = data.length :=
      UInt8.toNat_ofNat_of_lt h
    change readInstruction 0 ((data ++ rest).take (UInt8.ofNat data.length).toNat) ::
      disassemble count ((data ++ rest).drop (UInt8.ofNat data.length).toNat) = _
    rw [hlength, List.take_left, List.drop_left]
    rfl

/-- A script is read back as the instructions it was written from. -/
theorem disassemble_assemble {instructions : List Instruction}
    (h : ∀ ins ∈ instructions, Writable ins) {count : Nat} (hcount : instructions.length ≤ count) :
    disassemble count (assemble instructions) = instructions.map .ok := by
  induction instructions generalizing count with
  | nil => cases count <;> rfl
  | cons ins instructions ih =>
    obtain ⟨count, rfl⟩ : ∃ n, count = n + 1 := ⟨count - 1, by simp at hcount; omega⟩
    rw [assemble, List.flatMap_cons, disassemble_write (h ins List.mem_cons_self)]
    exact congrArg _ (ih (fun i hi => h i (List.mem_cons_of_mem _ hi)) (by simpa using hcount))

theorem length_le_assemble (instructions : List Instruction) :
    instructions.length ≤ (assemble instructions).length := by
  induction instructions with
  | nil => exact Nat.zero_le _
  | cons ins instructions ih =>
    rw [assemble, List.flatMap_cons, List.length_append, List.length_cons]
    have hone : 1 ≤ (writeInstruction ins).length := by
      cases ins <;> simp [writeInstruction]
    exact (Nat.add_le_add ih hone).trans_eq (Nat.add_comm _ _)

/-! ## The libraries -/

/-- The bytes of a number: four if it is below `2 ^ 31`, five otherwise. -/
def scriptNumber (n : Nat) : List UInt8 := if n < 2 ^ 31 then beBytes 4 n else beBytes 5 n

theorem length_scriptNumber_lt (n : Nat) : (scriptNumber n).length < 256 := by
  unfold scriptNumber
  split_ifs <;> rw [length_beBytes] <;> decide

/-- Scripts read with the format. -/
def scripts : ScriptLibrary where
  instructions := fun script => disassemble script.length script
  readScriptint := fun data =>
    if data.length ≤ 4 then .ok (readBe data) else .error "numeric overflow"
  isV0P2wpkh := fun script => script.head? == some 1
  isV0P2wsh := fun script => script.head? == some 2
  toV0P2wsh := fun script => 2 :: script
  payloadFromScript := some
  publicKeyFromSlice := fun data => .ok ⟨readBe data⟩

/-- Scripts written with the format. -/
def writer : ScriptWriter where
  isPoint := fun key => key.bytes < 256 ^ 33
  serialize := fun key => beBytes 33 key.bytes
  pushInt := fun n => .pushBytes (scriptNumber n)
  pubkeyHash := fun key => beBytes 20 key.bytes
  ripemd160 := fun hash => beBytes 20 hash.toNat
  p2wpkh := fun key => 1 :: beBytes 20 key.bytes
  getRevokeableRedeemscript := fun revocationKey delay delayedKey => assemble
    [.op .ifOp, .pushBytes (beBytes 33 revocationKey.bytes), .op .elseOp,
      .pushBytes (scriptNumber delay), .op .csv, .op .drop,
      .pushBytes (beBytes 33 delayedKey.bytes), .op .endIf, .op .checkSig]
  getAnchorRedeemscript := fun key => assemble
    [.pushBytes (beBytes 33 key.bytes), .op .checkSig, .op .ifDup, .op .notIf, .op (.pushNum 16),
      .op .csv, .op .endIf]
  getToCountersignatoryWithAnchorsRedeemscript := fun key => assemble
    [.pushBytes (beBytes 33 key.bytes), .op .checkSigVerify, .op (.pushNum 1), .op .csv]

/-- The script of an HTLC. -/
def htlcRedeemscript (h : HTLCOutputInCommitment) (isAnchors : Bool) (keys : TxCreationKeys) :
    Script :=
  assemble (if h.offered then writer.offeredHtlc h isAnchors keys
    else writer.receivedHtlc h isAnchors keys)

theorem instructions_assemble {instructions : List Instruction}
    (h : ∀ ins ∈ instructions, Writable ins) :
    scripts.instructions (assemble instructions) = instructions.map .ok :=
  disassemble_assemble h (length_le_assemble instructions)

/-- The sample library with HTLC scripts in the format. -/
def htlcLibrary : Library := { library with getHtlcRedeemscript := htlcRedeemscript }

/-- The sample library with commitments whose outputs are sorted. -/
def scriptLibrary : Library :=
  { htlcLibrary with
    builtTransaction := fun tx => ⟨2, 0, [], (tx.outputs.map
      (CommitmentOutput.txOut htlcLibrary writer scripts tx.isAnchors tx.keys)).insertionSort
        OutputBefore⟩ }

/-- What is assumed of the libraries holds of the format. -/
theorem writer_lawful : writer.Lawful scripts scriptLibrary where
  instructions_nil := rfl
  revokeable := fun _ _ _ => instructions_assemble
    (by simp [Writable, opcodes, length_scriptNumber_lt])
  anchor := fun _ => instructions_assemble (by simp [Writable, opcodes])
  toCountersignatory := fun _ => instructions_assemble (by simp [Writable, opcodes])
  htlc := fun h isAnchors keys => instructions_assemble (by
    cases h.offered <;> cases isAnchors <;>
      simp [ScriptWriter.offeredHtlc, ScriptWriter.receivedHtlc, ScriptWriter.htlcStart, htlcEnd,
        htlcSuffix, writer, Writable, opcodes, length_scriptNumber_lt])
  number := fun n => by
    change (scripts.readScriptint (scriptNumber n)).toOption = _
    by_cases hn : n < 2 ^ 31
    · rw [scriptNumber, if_pos hn, if_pos hn]
      change some ((readBe (beBytes 4 n) : Nat) : Int) = some (n : Int)
      rw [readBe_beBytes, Nat.mod_eq_of_lt (by omega)]
    · rw [scriptNumber, if_neg hn, if_neg hn]
      rfl
  ripemd160_length := fun hash => length_beBytes 20 hash.toNat
  pubkey := by
    rintro ⟨bytes⟩ hbytes
    change Except.ok (⟨readBe (beBytes 33 bytes)⟩ : PublicKey) = _
    rw [readBe_beBytes, Nat.mod_eq_of_lt hbytes]
  p2wpkh := fun _ => rfl
  p2wsh := fun _ => rfl
  p2wsh_not_p2wpkh := fun _ => rfl

/-- Every commitment is built from its outputs in some order. -/
theorem exists_written (tx : CommitmentTransaction) : ∃ witscripts,
    tx.WrittenAs scriptLibrary writer scripts (scriptLibrary.builtTransaction tx) witscripts := by
  let place := CommitmentOutput.txOut scriptLibrary writer scripts tx.isAnchors tx.keys
  let order := tx.outputs.insertionSort fun a b => OutputBefore (place a) (place b)
  refine ⟨order.map (CommitmentOutput.witscript scriptLibrary writer tx.isAnchors tx.keys), rfl,
    order, List.perm_insertionSort _ _, ?_, rfl⟩
  exact (List.map_insertionSort _ OutputBefore place tx.outputs fun _ _ _ _ => Iff.rfl).symm

/-- The channel whose validator reads scripts in the format. -/
def scriptChannel (o : Overflow) (setup : ChannelSetup) : Channel :=
  ⟨scriptLibrary, SimpleValidator.toValidator ⟨makeSimplePolicy .bitcoin, o, scriptLibrary,
    { checks with decodeCommitmentTx := decodeCommitmentTx .default o scripts }⟩, keys, setup,
    ⟨[0]⟩⟩

end Sample

end ValidatingSigner
