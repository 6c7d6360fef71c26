import Vls.Storage.Server

/-!
# What the shared HMAC covers

The authenticated bytes determine a list only together with the lengths of its keys and values.
-/

namespace ValidatingSigner.Storage

open Base List

variable {first second : List (Nat × Nat)}

/-- Lists of the two shapes have the same authenticated value only if they are equal, for every
secret and every two nonces of one length. -/
def Separates {ν : Type} (mac : List UInt8 → List UInt8 → KeyValues ν → List UInt8)
    (first second : List (Nat × Nat)) : Prop :=
  ∀ secret nonce nonce' kvs kvs', nonce.length = nonce'.length → shape kvs = first →
    shape kvs' = second → mac secret nonce kvs = mac secret nonce' kvs' → kvs = kvs'

/-- Shapes that are equal or of different size are told apart by the authenticated bytes. -/
theorem VersionBytes.separates {ν : Type} {be : ν → List UInt8} (hbe : VersionBytes be)
    (h : first = second ∨ shapeSize first ≠ shapeSize second) :
    Separates (sharedInput be) first second := by
  intro secret nonce nonce' kvs kvs' hnonce hfirst hsecond heq
  have hfront : (secret ++ nonce).length = (secret ++ nonce').length := by
    rw [length_append, length_append, hnonce]
  have hbytes := (List.append_inj heq hfront).2
  have hsize := congrArg List.length hbytes
  rw [hbe.length_entryBytes, hbe.length_entryBytes, hfirst, hsecond] at hsize
  have hshapes : first = second := h.resolve_right (not_not.mpr hsize)
  apply hbe.eq_of_shape _ hbytes
  rw [hfirst, hsecond, hshapes]

/-- An injective function of the authenticated bytes tells apart what the bytes do. -/
theorem Separates.of_injective {ν : Type} {be : ν → List UInt8}
    {hmac : List UInt8 → List UInt8 → List UInt8}
    (hinj : ∀ secret, Function.Injective (hmac secret))
    (h : Separates (sharedInput be) first second) :
    Separates (fun secret nonce kvs => hmac secret (sharedInput be secret nonce kvs))
      first second := by
  intro secret nonce nonce' kvs kvs' hnonce hfirst hsecond heq
  exact h secret nonce nonce' kvs kvs' hnonce hfirst hsecond (hinj secret heq)

/-! ## Lists of zeros -/

/-- The list of a shape whose keys, versions and values are zeros. -/
def zeros (sizes : List (Nat × Nat)) : KeyValues Int64 :=
  sizes.map fun s => (List.replicate s.1 '\x00', ⟨0, List.replicate s.2 0⟩)

private theorem utf8_replicate_zero (n : Nat) :
    Text.utf8 (replicate n '\x00') = replicate n 0 := by
  induction n with
  | zero => rfl
  | succ n ih =>
    rw [replicate_succ, Text.utf8_cons, ih, replicate_succ]
    rfl

theorem shape_zeros (sizes : List (Nat × Nat)) : shape (zeros sizes) = sizes := by
  have hentry (s : Nat × Nat) :
      ((Text.utf8 (replicate s.1 '\x00')).length, (replicate s.2 (0 : UInt8)).length) =
        s := by
    rw [utf8_replicate_zero, length_replicate, length_replicate]
  rw [shape, zeros, map_map]
  exact (map_congr_left fun s _ => hentry s).trans (map_id sizes)

theorem entryBytes_zeros (sizes : List (Nat × Nat)) :
    entryBytes i64Bytes (zeros sizes) = replicate (shapeSize sizes) 0 := by
  induction sizes with
  | nil => rfl
  | cons s sizes ih =>
    have hcons : entryBytes i64Bytes (zeros (s :: sizes)) =
        Text.utf8 (replicate s.1 '\x00') ++ i64Bytes 0 ++ replicate s.2 0 ++
          entryBytes i64Bytes (zeros sizes) := rfl
    have hversion : i64Bytes 0 = replicate 8 0 := beBytes_zero 8
    have hsize : shapeSize (s :: sizes) = s.1 + 8 + s.2 + shapeSize sizes := rfl
    rw [hcons, ih, utf8_replicate_zero, hversion, hsize, replicate_append_replicate,
      replicate_append_replicate, replicate_append_replicate]

/-- Different shapes of one size are confused by the authenticated bytes. -/
theorem eq_or_size_ne_of_separates (h : Separates (sharedInput i64Bytes) first second) :
    first = second ∨ shapeSize first ≠ shapeSize second := by
  by_cases hsize : shapeSize first = shapeSize second
  · left
    have hbytes : sharedInput i64Bytes [] [] (zeros first) =
        sharedInput i64Bytes [] [] (zeros second) := by
      rw [sharedInput, sharedInput, entryBytes_zeros, entryBytes_zeros, hsize]
    have hzeros := h [] [] [] _ _ rfl (shape_zeros first) (shape_zeros second) hbytes
    rw [← shape_zeros first, hzeros, shape_zeros]
  · exact .inr hsize

/-! ## The two copies and their comparisons -/

/-- In both copies, lists of two shapes are told apart by the bytes given to HMAC, by the HMAC and
by the signer's comparison exactly when the shapes are equal or of different size. -/
theorem shared_hmac_covers_list {hmac : List UInt8 → List UInt8 → List UInt8}
    (hinj : ∀ secret, Function.Injective (hmac secret)) (first second : List (Nat × Nat)) :
    (Separates (sharedInput i64Bytes) first second ∧ Separates (sharedInput u64Bytes) first second ∧
      Separates (Storage.computeSharedHmac hmac) first second ∧
      Separates (Persist.computeSharedHmac hmac) first second ∧
      ∀ (helper : ExternalPersistHelper) (kvs kvs' : Mutations), shape kvs = first →
        shape kvs' = second → helper.checkHmac hmac kvs' (Persist.computeSharedHmac hmac
          helper.sharedSecret helper.lastNonce kvs) = true → kvs' = kvs) ↔
      first = second ∨ shapeSize first ≠ shapeSize second := by
  constructor
  · intro h
    exact eq_or_size_ne_of_separates h.1
  · intro h
    have hsigned := i64Bytes_versionBytes.separates h
    have hunsigned := u64Bytes_versionBytes.separates h
    have hsigner := hunsigned.of_injective hinj
    refine ⟨hsigned, hunsigned, hsigned.of_injective hinj, hsigner, ?_⟩
    intro helper kvs kvs' hfirst hsecond hcheck
    have heq := eq_of_beq hcheck
    exact (hsigner _ _ _ kvs kvs' rfl hfirst hsecond heq).symm

/-- Lists of two entries of different lengths are told apart from each other, and from one entry of
another size. -/
theorem shared_hmac_covers_list_sample :
    Separates (Storage.computeSharedHmac Sample.framed) [(1, 2), (3, 0)] [(1, 2), (3, 0)] ∧
      Separates (Persist.computeSharedHmac Sample.framed) [(1, 2), (3, 0)] [(4, 9)] :=
  have hcovers := shared_hmac_covers_list (fun _ _ _ h => (Sample.framed_inj h).2) [(1, 2), (3, 0)]
  ⟨((hcovers _).mpr (.inl rfl)).2.2.1, ((hcovers _).mpr (.inr (by decide))).2.2.2.1⟩

/-- One entry whose value is written like a second entry is confused with the two entries, in both
copies and whatever HMAC function, secret and nonce are used. -/
theorem shared_hmac_confuses_lists :
    (∀ hmac secret nonce, Storage.computeSharedHmac hmac secret nonce
        [(['a'], ⟨0, [98, 0, 0, 0, 0, 0, 0, 0, 0, 7]⟩)] =
      Storage.computeSharedHmac hmac secret nonce [(['a'], ⟨0, []⟩), (['b'], ⟨0, [7]⟩)]) ∧
    (∀ hmac (helper : ExternalPersistHelper),
      helper.checkHmac hmac [(['a'], ⟨0, []⟩), (['b'], ⟨0, [7]⟩)]
        (Persist.computeSharedHmac hmac helper.sharedSecret helper.lastNonce
          [(['a'], ⟨0, [98, 0, 0, 0, 0, 0, 0, 0, 0, 7]⟩)]) = true) := by
  have hsigned : entryBytes i64Bytes [(['a'], ⟨0, [98, 0, 0, 0, 0, 0, 0, 0, 0, 7]⟩)] =
      entryBytes i64Bytes [(['a'], ⟨0, []⟩), (['b'], ⟨0, [7]⟩)] := by decide
  have hunsigned : entryBytes u64Bytes [(['a'], ⟨0, [98, 0, 0, 0, 0, 0, 0, 0, 0, 7]⟩)] =
      entryBytes u64Bytes [(['a'], ⟨0, []⟩), (['b'], ⟨0, [7]⟩)] := by decide
  constructor
  · intro hmac secret nonce
    rw [computeSharedHmac, computeSharedHmac, sharedInput, sharedInput, hsigned]
  · intro hmac helper
    rw [ExternalPersistHelper.checkHmac, Persist.computeSharedHmac, Persist.computeSharedHmac,
      sharedInput, sharedInput, hunsigned]
    exact beq_self_eq_true _

end ValidatingSigner.Storage
