import Mathlib.Data.List.Basic
import Mathlib.Data.Nat.Digits.Lemmas
import Mathlib.Data.Nat.ModEq
import Mathlib.Logic.Encodable.Basic

/-!
# Numbers, records and values as bytes

A number is written with its most significant byte first, in a field whose width does not depend on
the number.  The field is read back modulo its capacity, so that two numbers which fit have the same
bytes only if they are equal.  Records written one after the other with nothing between them are
told apart by their shape: lists of records of the same shapes have the same bytes only if they are
equal.  A serialization format promises that every value is read back as it was written, and that no
value is written as nothing at all.
-/

namespace ValidatingSigner.Base

/-- The `width` low bytes of a number, the most significant first. -/
def beBytes : Nat → Nat → List UInt8
  | 0, _ => []
  | width + 1, value => UInt8.ofNat (value / 256 ^ width) :: beBytes width value

/-- The number written in a list of bytes, the most significant first. -/
def readBe : List UInt8 → Nat
  | [] => 0
  | byte :: bytes => byte.toNat * 256 ^ bytes.length + readBe bytes

@[simp] theorem length_beBytes (width value : Nat) : (beBytes width value).length = width := by
  induction width with
  | zero => rfl
  | succ width ih => rw [beBytes, List.length_cons, ih]

/-- Reading a field gives the number modulo the capacity of the field. -/
theorem readBe_beBytes (width value : Nat) :
    readBe (beBytes width value) = value % 256 ^ width := by
  induction width with
  | zero => simp [beBytes, readBe, Nat.mod_one]
  | succ width ih =>
    have hbyte : (UInt8.ofNat (value / 256 ^ width)).toNat = value / 256 ^ width % 256 :=
      UInt8.toNat_ofNat'
    rw [beBytes, readBe, hbyte, length_beBytes, ih, Nat.mod_pow_succ, Nat.add_comm,
      Nat.mul_comm]

/-- Numbers that fit their field have the same bytes only if they are equal. -/
theorem beBytes_inj {width a b : Nat} (ha : a < 256 ^ width) (hb : b < 256 ^ width)
    (h : beBytes width a = beBytes width b) : a = b := by
  have hread := congrArg readBe h
  rwa [readBe_beBytes, readBe_beBytes, Nat.mod_eq_of_lt ha, Nat.mod_eq_of_lt hb] at hread

theorem readBe_lt (bytes : List UInt8) : readBe bytes < 256 ^ bytes.length := by
  induction bytes with
  | nil => exact Nat.one_pos
  | cons byte bytes ih =>
    have hbyte : byte.toNat * 256 ^ bytes.length ≤ 255 * 256 ^ bytes.length :=
      Nat.mul_le_mul_right _ (Nat.le_of_lt_succ byte.toNat_lt)
    rw [readBe, List.length_cons, Nat.pow_succ]
    omega

/-- Fields of one width have the same number only if they are equal. -/
theorem readBe_inj {l l' : List UInt8} (hlength : l.length = l'.length)
    (h : readBe l = readBe l') : l = l' := by
  induction l generalizing l' with
  | nil => exact (List.length_eq_zero_iff.mp hlength.symm).symm
  | cons a l ih =>
    cases l' with
    | nil => cases hlength
    | cons b l' =>
      have hlength := Nat.succ.inj hlength
      have hlt := readBe_lt l
      have hlt' := readBe_lt l'
      rw [readBe, readBe, ← hlength] at h
      rw [← hlength] at hlt'
      have hhead : a.toNat = b.toNat := by
        have hpos : 0 < 256 ^ l.length := Nat.pow_pos (by decide)
        have hdiv := congrArg (· / 256 ^ l.length) h
        simpa [Nat.mul_comm _ (256 ^ l.length), Nat.mul_add_div hpos, Nat.div_eq_of_lt hlt,
          Nat.div_eq_of_lt hlt'] using hdiv
      rw [hhead] at h
      rw [UInt8.toNat_inj.mp hhead, ih hlength (Nat.add_left_cancel h)]

theorem beBytes_zero (width : Nat) : beBytes width 0 = List.replicate width 0 := by
  induction width with
  | zero => rfl
  | succ width ih =>
    rw [beBytes, ih, Nat.zero_div, List.replicate_succ]
    rfl

/-! ## Records -/

/-- Lists whose records have the same shapes, where records of one shape take the same space and
have the same bytes only if they are equal, have the same bytes only if they are equal. -/
theorem flatMap_inj_of_shape {α β γ : Type} {encode : α → List β} {shape : α → γ}
    (hlength : ∀ a b, shape a = shape b → (encode a).length = (encode b).length)
    (hencode : ∀ a b, shape a = shape b → encode a = encode b → a = b) {l l' : List α}
    (hshape : l.map shape = l'.map shape) (h : l.flatMap encode = l'.flatMap encode) : l = l' := by
  induction l generalizing l' with
  | nil => exact (List.map_eq_nil_iff.mp hshape.symm).symm
  | cons a l ih =>
    cases l' with
    | nil => cases hshape
    | cons b l' =>
      rw [List.map_cons, List.map_cons, List.cons.injEq] at hshape
      rw [List.flatMap_cons, List.flatMap_cons] at h
      obtain ⟨hhead, htail⟩ := List.append_inj h (hlength a b hshape.1)
      rw [hencode a b hshape.1 hhead, ih hshape.2 htail]

/-! ## Values -/

/-- How values of a type are written as bytes and read back. -/
structure Codec (α : Type) where
  toVec : α → List UInt8
  fromSlice : List UInt8 → Option α

namespace Codec

variable {α : Type}

/-- What is written is read back, and there is nothing to read in no bytes. -/
structure Lawful (C : Codec α) : Prop where
  reads : ∀ a, C.fromSlice (C.toVec a) = some a
  empty : C.fromSlice [] = none

/-- The character of a decimal digit. -/
def digitByte (digit : Nat) : UInt8 := UInt8.ofNat (48 + digit)

theorem digitByte_toNat {digit : Nat} (h : digit < 10) : (digitByte digit).toNat - 48 = digit := by
  rw [digitByte, UInt8.toNat_ofNat_of_lt' (by omega : 48 + digit < 256), Nat.add_sub_cancel_left]

/-- Values written as the decimal number of their encoding, counted from one. -/
def decimal (α : Type) [Encodable α] : Codec α where
  toVec a := (Nat.digits 10 (Encodable.encode a + 1)).reverse.map digitByte
  fromSlice bytes :=
    match Nat.ofDigits 10 (bytes.reverse.map fun byte => byte.toNat - 48) with
    | 0 => none
    | code + 1 => Encodable.decode code

theorem decimal_lawful (α : Type) [Encodable α] : (decimal α).Lawful where
  reads a := by
    have hdigits : (((Nat.digits 10 (Encodable.encode a + 1)).reverse.map digitByte).reverse.map
        fun byte => byte.toNat - 48) = Nat.digits 10 (Encodable.encode a + 1) := by
      rw [← List.map_reverse, List.reverse_reverse, List.map_map]
      refine (List.map_congr_left fun digit hdigit => ?_).trans (List.map_id _)
      exact digitByte_toNat (Nat.digits_lt_base (by decide) hdigit)
    simp only [decimal, hdigits, Nat.ofDigits_digits, Encodable.encodek]
  empty := rfl

end Codec

end ValidatingSigner.Base
