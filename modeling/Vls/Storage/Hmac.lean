import Mathlib.Logic.Function.Basic
import Vls.Base.Bytes
import Vls.Base.Text

/-!
# Authenticated key-value lists

The storage client and the storage server authenticate a list of versioned values by an HMAC over
the shared secret, a nonce and the entries one after the other: the bytes of the key, the version in
eight bytes and the value, with nothing between them.  The server crate and the signer have a copy
of this function each, over signed and over unsigned versions.
-/

namespace ValidatingSigner

open Base

/-- A value with its version. -/
@[ext]
structure Versioned (ν : Type) where
  version : ν
  value : List UInt8
  deriving DecidableEq

namespace Storage

/-- A stored value: versions are signed 64-bit numbers. -/
abbrev Value := Versioned Int64

/-- A list of keys with versioned values. -/
abbrev KeyValues (ν : Type) := List (Text × Versioned ν)

section Input

variable {ν : Type} (be : ν → List UInt8)

/-- The bytes of one entry: its key, its version and its value. -/
def addToHmac (key : Text) (value : Versioned ν) : List UInt8 :=
  key.utf8 ++ be value.version ++ value.value

/-- The bytes of the entries of a list. -/
def entryBytes (kvs : KeyValues ν) : List UInt8 := kvs.flatMap fun kv => addToHmac be kv.1 kv.2

/-- The bytes that are authenticated for a list. -/
def sharedInput (secret nonce : List UInt8) (kvs : KeyValues ν) : List UInt8 :=
  secret ++ nonce ++ entryBytes be kvs

end Input

/-- The big-endian bytes of a signed version. -/
def i64Bytes (version : Int64) : List UInt8 := beBytes 8 version.toUInt64.toNat

/-- The big-endian bytes of an unsigned version. -/
def u64Bytes (version : UInt64) : List UInt8 := beBytes 8 version.toNat

/-- The HMAC of the storage server and its client, under the HMAC function `hmac`. -/
def computeSharedHmac (hmac : List UInt8 → List UInt8 → List UInt8) (secret nonce : List UInt8)
    (kvs : KeyValues Int64) : List UInt8 :=
  hmac secret (sharedInput i64Bytes secret nonce kvs)

end Storage

/-- The values a request has changed, as the signer sends them to the storage. -/
abbrev Mutations := Storage.KeyValues UInt64

namespace Persist

/-- The signer's copy of the shared HMAC. -/
def computeSharedHmac (hmac : List UInt8 → List UInt8 → List UInt8) (secret nonce : List UInt8)
    (kvs : Mutations) : List UInt8 :=
  hmac secret (Storage.sharedInput Storage.u64Bytes secret nonce kvs)

end Persist

/-- The signer's side of the storage protocol. -/
structure ExternalPersistHelper where
  sharedSecret : List UInt8
  lastNonce : List UInt8

namespace ExternalPersistHelper

variable (hmac : List UInt8 → List UInt8 → List UInt8) (helper : ExternalPersistHelper)

/-- Whether the server's HMAC on a get covers the data and the last nonce. -/
def checkHmac (kvs : Mutations) (receivedHmac : List UInt8) : Bool :=
  receivedHmac == Persist.computeSharedHmac hmac helper.sharedSecret helper.lastNonce kvs

end ExternalPersistHelper

namespace Storage

/-! ## Shapes -/

/-- The lengths of the key and of the value of each entry. -/
def shape {ν : Type} (kvs : KeyValues ν) : List (Nat × Nat) :=
  kvs.map fun kv => (kv.1.utf8.length, kv.2.value.length)

/-- The number of bytes a list of this shape takes. -/
def shapeSize (sizes : List (Nat × Nat)) : Nat := (sizes.map fun s => s.1 + 8 + s.2).sum

/-- An eight-byte way of writing versions that tells all versions apart. -/
structure VersionBytes {ν : Type} (be : ν → List UInt8) : Prop where
  length : ∀ v, (be v).length = 8
  injective : Function.Injective be

theorem u64Bytes_versionBytes : VersionBytes u64Bytes where
  length := fun _ => length_beBytes 8 _
  injective := by
    intro v w h
    have hv : v.toNat < 256 ^ 8 := v.toNat_lt
    have hw : w.toNat < 256 ^ 8 := w.toNat_lt
    exact UInt64.toNat_inj.mp (beBytes_inj hv hw h)

theorem i64Bytes_versionBytes : VersionBytes i64Bytes where
  length := fun _ => length_beBytes 8 _
  injective := by
    intro v w h
    have huint : v.toUInt64 = w.toUInt64 := u64Bytes_versionBytes.injective h
    exact Int64.toBitVec_inj.mp (congrArg UInt64.toBitVec huint)

section Entries

variable {ν : Type} {be : ν → List UInt8}

theorem VersionBytes.length_addToHmac (hbe : VersionBytes be) (key : Text) (value : Versioned ν) :
    (addToHmac be key value).length = key.utf8.length + 8 + value.value.length := by
  simp only [addToHmac, List.length_append, hbe.length]

/-- A list takes exactly the bytes of its shape. -/
theorem VersionBytes.length_entryBytes (hbe : VersionBytes be) (kvs : KeyValues ν) :
    (entryBytes be kvs).length = shapeSize (shape kvs) := by
  induction kvs with
  | nil => rfl
  | cons kv kvs ih =>
    have hcons : entryBytes be (kv :: kvs) = addToHmac be kv.1 kv.2 ++ entryBytes be kvs := rfl
    rw [hcons, List.length_append, hbe.length_addToHmac, ih]
    rfl

/-- Lists of one shape have the same bytes only if they are equal. -/
theorem VersionBytes.eq_of_shape (hbe : VersionBytes be) {kvs kvs' : KeyValues ν}
    (hshape : shape kvs = shape kvs') (h : entryBytes be kvs = entryBytes be kvs') :
    kvs = kvs' := by
  have hlength (a b : Text × Versioned ν)
      (hab : (a.1.utf8.length, a.2.value.length) = (b.1.utf8.length, b.2.value.length)) :
      (addToHmac be a.1 a.2).length = (addToHmac be b.1 b.2).length := by
    obtain ⟨hkey, hvalue⟩ := Prod.mk.inj hab
    rw [hbe.length_addToHmac, hbe.length_addToHmac, hkey, hvalue]
  have hencode (a b : Text × Versioned ν)
      (hab : (a.1.utf8.length, a.2.value.length) = (b.1.utf8.length, b.2.value.length))
      (hbytes : addToHmac be a.1 a.2 = addToHmac be b.1 b.2) : a = b := by
    obtain ⟨hkey, hvalue⟩ := Prod.mk.inj hab
    have hfront : (a.1.utf8 ++ be a.2.version).length = (b.1.utf8 ++ be b.2.version).length := by
      rw [List.length_append, List.length_append, hbe.length, hbe.length, hkey]
    obtain ⟨hfront, hvalue⟩ := List.append_inj hbytes hfront
    obtain ⟨hkey, hversion⟩ := List.append_inj hfront hkey
    apply Prod.ext
    · exact Text.utf8_injective hkey
    · exact Versioned.ext (hbe.injective hversion) hvalue
  exact flatMap_inj_of_shape hlength hencode hshape h

end Entries

end Storage

end ValidatingSigner
