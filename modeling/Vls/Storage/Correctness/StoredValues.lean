import Vls.Storage.Server

/-!
# Stored values

A client appends to each value an HMAC over the key, the version and the value, and encrypts the two
when it is built with encryption.  What it can encrypt it reads back, under the same key and
version.  The HMAC of a value covers the key, the version and the value without delimiters, so that
it binds them except where another key, version and value make up the same bytes.
-/

namespace ValidatingSigner.Storage

open Base List

/-- The functions of the cryptographic libraries that a client calls, and how it is built. -/
structure ValueCrypto where
  hmac : List UInt8 → List UInt8 → List UInt8
  sha256 : List UInt8 → List UInt8
  /-- The key stream for a key and a nonce. -/
  keystream : List UInt8 → List UInt8 → Nat → UInt8
  /-- Whether values are encrypted. -/
  crypt : Bool
  length_hmac : ∀ secret input, (hmac secret input).length = 32

namespace ValueCrypto

variable (C : ValueCrypto) (secret : List UInt8) (key : Text)

/-- The HMAC of a value under its key and its version. -/
def computeHmac (version : Int64) (value : List UInt8) : List UInt8 :=
  C.hmac secret (addToHmac i64Bytes key ⟨version, value⟩)

def appendHmacToValue (version : Int64) (value : List UInt8) : List UInt8 :=
  value ++ C.computeHmac secret key version value

/-- The value in front of its HMAC. -/
def removeAndCheckHmac (version : Int64) (value : List UInt8) :
    Except (Fault Unit) (List UInt8) := do
  refuseIf (value.length < 32) ()
  let (value, expectedHmac) := value.splitAt (value.length - 32)
  refuseIf (C.computeHmac secret key version value ≠ expectedHmac) ()
  return value

/-- The number of bytes the cipher has a key stream for: one block of 64 for each value of its
counter but the last. -/
def keystreamLength : Nat := 64 * (2 ^ 32 - 1)

/-- The value combined with the key stream; the nonce is the hash of the key and the version. -/
def cryptValue (version : Int64) (value : List UInt8) : Asserted (List UInt8) := do
  let nonce := (C.sha256 (key.utf8 ++ i64Bytes version)).take 12
  assert (secret.length = 16 ∨ secret.length = 32)
    "assertion failed: key.len() == 16 || key.len() == 32"
  assert (value.length ≤ keystreamLength) "counter is exhausted"
  return value.mapIdx fun i byte => byte ^^^ C.keystream secret nonce i

/-- The encryption of a client that is built with it. -/
def cryptIfBuilt (version : Int64) (value : List UInt8) : Asserted (List UInt8) :=
  if C.crypt then C.cryptValue secret key version value else .ok value

def prepareValueForPut (value : Value) : Asserted Value := do
  let bytes := C.appendHmacToValue secret key value.version value.value
  let bytes ← C.cryptIfBuilt secret key value.version bytes
  return ⟨value.version, bytes⟩

def processValueFromGet (value : Value) : Except (Fault Unit) Value := do
  let bytes ← (C.cryptIfBuilt secret key value.version value.value).lift
  let bytes ← C.removeAndCheckHmac secret key value.version bytes
  return ⟨value.version, bytes⟩

/-! ## Round trips -/

variable {C : ValueCrypto} {secret : List UInt8} {key : Text} {version : Int64}
  {bytes bytes' : List UInt8}

/-- A value followed by 32 bytes is accepted exactly when these are its HMAC. -/
theorem removeAndCheckHmac_append {tag : List UInt8} (htag : tag.length = 32) :
    C.removeAndCheckHmac secret key version (bytes ++ tag) = .ok bytes' ↔
      C.computeHmac secret key version bytes = tag ∧ bytes = bytes' := by
  have hlong : ¬ (bytes ++ tag).length < 32 := by
    rw [length_append]
    omega
  have hsplit : (bytes ++ tag).splitAt ((bytes ++ tag).length - 32) = (bytes, tag) := by
    have hlength : (bytes ++ tag).length - 32 = bytes.length := by
      rw [length_append]
      omega
    rw [hlength, splitAt_eq, take_left, drop_left]
  rw [removeAndCheckHmac, refuseIf_of_not hlong, ok_bind, hsplit]
  change (refuseIf _ () >>= fun _ => pure bytes) = .ok bytes' ↔ _
  rw [bind_eq_ok]
  simp

/-- The cipher takes a secret of 16 or 32 bytes, and no more bytes than it has a key stream for. -/
def Encryptable (C : ValueCrypto) (secret : List UInt8) (length : Nat) : Prop :=
  C.crypt = true → (secret.length = 16 ∨ secret.length = 32) ∧ length ≤ keystreamLength

/-- Nothing else is encrypted. -/
theorem encryptable_of_cryptIfBuilt (h : C.cryptIfBuilt secret key version bytes = .ok bytes') :
    C.Encryptable secret bytes.length := by
  intro hcrypt
  rw [cryptIfBuilt, if_pos hcrypt] at h
  obtain ⟨_, hsecret, h⟩ := bind_ok h
  obtain ⟨_, hlength, -⟩ := bind_ok h
  exact ⟨assert_eq_ok.mp hsecret, assert_eq_ok.mp hlength⟩

/-- The encryption is undone by a second one. -/
theorem Encryptable.exists_crypt (h : C.Encryptable secret bytes.length) :
    ∃ bytes', C.cryptIfBuilt secret key version bytes = .ok bytes' ∧
      C.cryptIfBuilt secret key version bytes' = .ok bytes := by
  unfold cryptIfBuilt
  by_cases hcrypt : C.crypt = true
  · obtain ⟨hsecret, hlength⟩ := h hcrypt
    simp only [if_pos hcrypt]
    have hvalue (bytes' : List UInt8) (h : bytes'.length = bytes.length) :
        C.cryptValue secret key version bytes' = .ok (bytes'.mapIdx fun i byte =>
          byte ^^^ C.keystream secret ((C.sha256 (key.utf8 ++ i64Bytes version)).take 12) i) :=
      bind_eq_ok.mpr ⟨(), assert_eq_ok.mpr hsecret,
        bind_eq_ok.mpr ⟨(), assert_eq_ok.mpr (h ▸ hlength), rfl⟩⟩
    refine ⟨_, hvalue bytes rfl, (hvalue _ length_mapIdx).trans ?_⟩
    refine congrArg Except.ok (ext_getElem (by simp) fun i _ _ => ?_)
    rw [getElem_mapIdx, getElem_mapIdx, UInt8.xor_assoc, UInt8.xor_self, UInt8.xor_zero]
  · simp only [if_neg hcrypt]
    exact ⟨bytes, rfl, rfl⟩

/-- A value is prepared, and read back as it was, iff it can be encrypted with its HMAC. -/
theorem prepared_read_back_iff {value : Value} :
    (∃ stored, C.prepareValueForPut secret key value = .ok stored ∧
      C.processValueFromGet secret key stored = .ok value) ↔
      C.Encryptable secret (value.value.length + 32) := by
  have hlength : (C.appendHmacToValue secret key value.version value.value).length =
      value.value.length + 32 := by
    rw [appendHmacToValue, length_append, computeHmac, C.length_hmac]
  have hchecked : C.removeAndCheckHmac secret key value.version
      (C.appendHmacToValue secret key value.version value.value) = .ok value.value :=
    (removeAndCheckHmac_append (C.length_hmac secret _)).mpr ⟨rfl, rfl⟩
  rw [← hlength]
  constructor
  · rintro ⟨stored, h, -⟩
    obtain ⟨bytes, hbytes, -⟩ := bind_ok h
    exact encryptable_of_cryptIfBuilt hbytes
  · intro h
    obtain ⟨bytes, hbytes, hback⟩ := h.exists_crypt
    exact ⟨⟨value.version, bytes⟩, bind_eq_ok.mpr ⟨bytes, hbytes, rfl⟩, bind_eq_ok.mpr
      ⟨_, Asserted.lift_eq_ok.mpr hback, bind_eq_ok.mpr ⟨_, hchecked, rfl⟩⟩⟩

/-- Entries whose values have one length have the same bytes only if they are equal. -/
theorem eq_of_addToHmac {key' : Text} {value value' : Value}
    (hbytes : addToHmac i64Bytes key' value' = addToHmac i64Bytes key value)
    (hlength : value'.value.length = value.value.length) : key' = key ∧ value' = value := by
  have hsize := congrArg length hbytes
  rw [i64Bytes_versionBytes.length_addToHmac, i64Bytes_versionBytes.length_addToHmac] at hsize
  have hshape : shape [(key', value')] = shape [(key, value)] := by
    simp only [shape, map_cons, map_nil, hlength]
    rw [show key'.utf8.length = key.utf8.length by omega]
  have hentry := i64Bytes_versionBytes.eq_of_shape hshape (by simpa [entryBytes] using hbytes)
  simpa using hentry

end ValueCrypto

/-- What is prepared under a key and a version is read back under them iff the client does not
encrypt, or the cipher takes its secret and the value with its HMAC.  Under an HMAC function that
does not collide on the inputs in question, bytes with the value's HMAC are accepted only under its
key and version and if they are the value, iff no bytes of another length make up the same input
under the other key and version. -/
theorem stored_value_bound (C : ValueCrypto) (secret : List UInt8) (key : Text) (value : Value)
    (inputs : Set (List UInt8)) (hinj : Set.InjOn (C.hmac secret) inputs)
    (hinput : addToHmac i64Bytes key value ∈ inputs) :
    ((∃ stored, C.prepareValueForPut secret key value = .ok stored ∧
        C.processValueFromGet secret key stored = .ok value) ↔
      (C.crypt = true → (secret.length = 16 ∨ secret.length = 32) ∧
        value.value.length + 32 ≤ 64 * (2 ^ 32 - 1))) ∧
      ∀ key' value', addToHmac i64Bytes key' value' ∈ inputs →
        ((∀ bytes, C.removeAndCheckHmac secret key' value'.version
            (value'.value ++ C.computeHmac secret key value.version value.value) = .ok bytes →
          key' = key ∧ value'.version = value.version ∧ value'.value = value.value) ↔
        (addToHmac i64Bytes key' value' = addToHmac i64Bytes key value →
          value'.value.length = value.value.length)) := by
  refine ⟨ValueCrypto.prepared_read_back_iff, fun key' value' hinput' => ⟨?_, ?_⟩⟩
  · intro h hsame
    have hmac : C.computeHmac secret key' value'.version value'.value =
        C.computeHmac secret key value.version value.value := congrArg (C.hmac secret) hsame
    have haccepted := (ValueCrypto.removeAndCheckHmac_append (C.length_hmac secret _)).mpr
      ⟨hmac, rfl⟩
    exact congrArg length (h _ haccepted).2.2
  · intro h bytes haccepted
    have hmac := ((ValueCrypto.removeAndCheckHmac_append (C.length_hmac secret _)).mp haccepted).1
    have hsame := hinj hinput' hinput hmac
    obtain ⟨hkey, hvalue⟩ := ValueCrypto.eq_of_addToHmac hsame (h hsame)
    exact ⟨hkey, congrArg _ hvalue, congrArg _ hvalue⟩

namespace Sample

/-- A client whose HMAC is the message, cut or filled to 32 bytes. -/
def crypto (crypt : Bool) : ValueCrypto where
  hmac _ message := (message ++ 1 :: replicate 32 0).take 32
  sha256 message := [UInt8.ofNat message.length]
  keystream secret nonce i := UInt8.ofNat (secret.length + nonce.length + i)
  crypt := crypt
  length_hmac := by simp

end Sample

open Storage.Sample in
/-- An encrypted value of two bytes is read back, and bound to its key and version also when it is
cut. -/
theorem stored_value_bound_sample :
    (∃ stored, (crypto true).prepareValueForPut (replicate 32 7) ['a'] ⟨3, [5, 6]⟩ = .ok stored ∧
      (crypto true).processValueFromGet (replicate 32 7) ['a'] stored = .ok ⟨3, [5, 6]⟩) ∧
    ∀ bytes, (crypto true).removeAndCheckHmac (replicate 32 7) ['a'] 3
      ([6] ++ (crypto true).computeHmac (replicate 32 7) ['a'] 3 [5, 6]) ≠ .ok bytes := by
  have hinj : Set.InjOn ((crypto true).hmac (replicate 32 7))
      {addToHmac i64Bytes ['a'] ⟨3, [5, 6]⟩, addToHmac i64Bytes ['a'] ⟨3, [6]⟩} :=
    Set.injOn_pair.mpr (by decide)
  obtain ⟨hback, hbound⟩ := stored_value_bound (crypto true) (replicate 32 7) ['a'] ⟨3, [5, 6]⟩
    _ hinj (.inl rfl)
  refine ⟨hback.mpr fun _ => ⟨.inr rfl, by decide⟩, fun bytes h => ?_⟩
  have hvalue := ((hbound ['a'] ⟨3, [6]⟩ (.inr rfl)).mpr (by decide) bytes h).2.2
  exact absurd hvalue (by decide)

/-- Without its first byte, the value `[1]` that is stored under the key `a` and the version 0 is
accepted under another key and version; a secret of no length that the cipher takes aborts. -/
theorem stored_value_confused :
    (∀ (C : ValueCrypto) secret, C.removeAndCheckHmac secret ['a', '\x00'] 1
        ((C.appendHmacToValue secret ['a'] 0 [1]).drop 1) = .ok []) ∧
      (Sample.crypto true).prepareValueForPut [] ['a'] ⟨0, [1]⟩ =
        .error (.abort "assertion failed: key.len() == 16 || key.len() == 32") := by
  refine ⟨fun C secret => ?_, by decide⟩
  have hinput : addToHmac i64Bytes ['a', '\x00'] ⟨1, []⟩ = addToHmac i64Bytes ['a'] ⟨0, [1]⟩ := by
    decide
  have hmac : C.computeHmac secret ['a', '\x00'] 1 [] = C.computeHmac secret ['a'] 0 [1] :=
    congrArg (C.hmac secret) hinput
  change C.removeAndCheckHmac secret _ 1 ([] ++ C.computeHmac secret ['a'] 0 [1]) = .ok []
  exact (ValueCrypto.removeAndCheckHmac_append (C.length_hmac secret _)).mpr ⟨hmac, rfl⟩

end ValidatingSigner.Storage
