import Mathlib.Logic.Encodable.Pi
import Mathlib.Logic.Equiv.Finset
import Mathlib.Tactic.DeriveEncodable
import Vls.Persist.Basic

/-!
# A serialization of the entries

Every entry has a number, and is written as a JSON number is.
-/

namespace ValidatingSigner

open Base

instance encodableBitVec (width : Nat) : Encodable (BitVec width) :=
  .ofLeftInverse BitVec.toNat (BitVec.ofNat width) fun v => by simp

instance encodableUInt8 : Encodable UInt8 :=
  .ofLeftInverse UInt8.toNat UInt8.ofNat fun _ => UInt8.ofNat_toNat

instance encodableChar : Encodable Char :=
  .ofLeftInverse Char.toNat Char.ofNat Char.ofNat_toNat

instance encodableString : Encodable String :=
  .ofLeftInverse String.toList String.ofList fun _ => String.ofList_toList

instance encodableTable {κ β : Type} [DecidableEq κ] [Encodable κ] [Encodable β] :
    Encodable (Table κ β) where
  encode t := Encodable.encode t.entries
  decode code := (Encodable.decode code).bind fun entries =>
    if h : entries.keys.Nodup then some ⟨entries, h⟩ else none
  encodek t := by
    have h : t.entries.keys.Nodup := t.nodupKeys
    simp [h]

deriving instance Encodable for PublicKey
deriving instance Encodable for Signature
deriving instance Encodable for ChannelId
deriving instance Encodable for OutPoint
deriving instance Encodable for TxIn
deriving instance Encodable for TxOut
deriving instance Encodable for Transaction
deriving instance Encodable for ChannelPublicKeys
deriving instance Encodable for CommitmentType
deriving instance Encodable for ChannelSetup
deriving instance Encodable for HTLCInfo2
deriving instance Encodable for CommitmentInfo2
deriving instance Encodable for CommitmentSignatures
deriving instance Encodable for CounterpartyCommitmentSecrets
deriving instance Encodable for EnforcementState
deriving instance Encodable for Persist.ChannelEntry
deriving instance Encodable for Persist.NodeEntry
deriving instance Encodable for PaymentType
deriving instance Encodable for PaymentState
deriving instance Encodable for VelocityControl
deriving instance Encodable for NodeStateEntry
deriving instance Encodable for Network
deriving instance Encodable for BlockHeader
deriving instance Encodable for Headers
deriving instance Encodable for Monitor.StateChange
deriving instance Encodable for Monitor.BlockDecodeState
deriving instance Encodable for Monitor.State
deriving instance Encodable for ListenSlot
deriving instance Encodable for ChainTrackerEntry

/-- Entries written as numbers. -/
def Sample.json : Json := ⟨.decimal _, .decimal _, .decimal _, .decimal _, .decimal _⟩

theorem Sample.json_lawful : Sample.json.Lawful :=
  ⟨Codec.decimal_lawful _, Codec.decimal_lawful _, Codec.decimal_lawful _,
    Codec.decimal_lawful _, Codec.decimal_lawful _⟩

end ValidatingSigner
