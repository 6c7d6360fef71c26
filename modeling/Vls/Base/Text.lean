import Mathlib.Data.List.Basic
import Vls.Base.Fault

/-!
# Texts and their UTF-8 bytes

A text is a list of characters; a store that keeps texts sees their UTF-8 bytes.  A text is a
byte-wise beginning of another exactly when it is a beginning of it, texts are ordered as their
bytes are, and a text can be cut only between characters.  A name in front of a separator it does
not contain splits off uniquely, which keeps the names of different owners apart.
-/

namespace ValidatingSigner.Base

open List

/-- A text. -/
abbrev Text := List Char

namespace Text

variable {s t : Text}

/-- The UTF-8 bytes of a text. -/
def utf8 (t : Text) : List UInt8 := t.flatMap String.utf8EncodeChar

@[simp] theorem utf8_cons (c : Char) (t : Text) :
    utf8 (c :: t) = String.utf8EncodeChar c ++ utf8 t := rfl

@[simp] theorem utf8_append (s t : Text) : utf8 (s ++ t) = utf8 s ++ utf8 t :=
  flatMap_append

/-- The bytes of a text begin with those of another exactly when the text begins with the other. -/
theorem utf8_isPrefix_iff : utf8 s <+: utf8 t ↔ s <+: t := by
  constructor
  · intro h
    obtain ⟨rest, hrest⟩ := h
    apply isPrefix_of_utf8Encode_append_eq_utf8Encode rest.toByteArray
    change (utf8 s).toByteArray ++ rest.toByteArray = (utf8 t).toByteArray
    rw [← toByteArray_append, hrest]
  · intro h
    obtain ⟨rest, rfl⟩ := h
    rw [utf8_append]
    exact prefix_append _ _

theorem utf8_injective : Function.Injective utf8 := by
  intro s t h
  have hst : s <+: t := utf8_isPrefix_iff.mp (h ▸ prefix_rfl)
  have hts : t <+: s := utf8_isPrefix_iff.mp (h ▸ prefix_rfl)
  exact hst.eq_of_length (Nat.le_antisymm hst.length_le hts.length_le)

/-! ## Order -/

/-- Texts compared byte by byte. -/
def le (s t : Text) : Prop := utf8 s ≤ utf8 t

instance : DecidableRel le := fun s t => inferInstanceAs (Decidable (utf8 s ≤ utf8 t))

theorem le_antisymm (h : s.le t) (h' : t.le s) : s = t :=
  utf8_injective (List.le_antisymm h h')

theorem le_total (s t : Text) : s.le t ∨ t.le s := List.le_total _ _

theorem le_trans {u : Text} (h : s.le t) (h' : t.le u) : s.le u := List.le_trans h h'

/-- A common beginning does not change how two texts compare. -/
theorem append_le_append_iff {u : Text} : (u ++ s).le (u ++ t) ↔ s.le t := by
  have hbytes (front : List UInt8) :
      front ++ utf8 s ≤ front ++ utf8 t ↔ utf8 s ≤ utf8 t := by
    induction front with
    | nil => rfl
    | cons byte front ih => simp [cons_le_cons_iff, ih]
  rw [le, utf8_append, utf8_append]
  exact hbytes (utf8 u)

theorem le_of_isPrefix (h : s <+: t) : s.le t := by
  have hbytes (a b : List UInt8) (h : a <+: b) : a ≤ b := by
    induction a generalizing b with
    | nil => exact nil_le b
    | cons byte a ih =>
      obtain ⟨rest, rfl⟩ := h
      exact cons_le_cons_iff.mpr (.inr ⟨rfl, ih _ (prefix_append a rest)⟩)
  exact hbytes _ _ (utf8_isPrefix_iff.mpr h)

/-- What lies between a text and one that begins with it begins with it too. -/
theorem isPrefix_of_le_of_le {u : Text} (hst : s.le t) (htu : t.le u) (h : s <+: u) : s <+: t := by
  have hbytes (a b c : List UInt8) (hab : a ≤ b) (hbc : b ≤ c) (h : a <+: c) : a <+: b := by
    induction a generalizing b c with
    | nil => exact nil_prefix
    | cons byte a ih =>
      obtain ⟨rest, rfl⟩ := h
      cases b with
      | nil => exact absurd (nil_lt_cons byte a) hab
      | cons byte' b =>
        rw [cons_append] at hbc
        rcases cons_le_cons_iff.mp hab with hlt | ⟨rfl, hrest⟩
        · rcases cons_le_cons_iff.mp hbc with hlt' | ⟨rfl, -⟩
          · exact absurd hlt' (UInt8.lt_asymm hlt)
          · exact absurd hlt (UInt8.lt_irrefl _)
        · rcases cons_le_cons_iff.mp hbc with hlt' | ⟨-, hrest'⟩
          · exact absurd hlt' (UInt8.lt_irrefl _)
          · exact (prefix_cons_inj _).mpr
              (ih b _ hrest hrest' (prefix_append a rest))
  exact utf8_isPrefix_iff.mp (hbytes _ _ _ hst htu (utf8_isPrefix_iff.mpr h))

/-! ## Cutting -/

/-- The text that remains after the first `n` bytes; cutting inside a character aborts. -/
def splitOff {ε : Type} : Nat → Text → Except (Fault ε) Text
  | 0, t => .ok t
  | _ + 1, [] => .error (.abort "byte index is out of bounds")
  | n + 1, c :: t =>
    if c.utf8Size ≤ n + 1 then splitOff (n + 1 - c.utf8Size) t
    else .error (.abort "byte index is not a char boundary")

/-- Cutting off the bytes of a beginning leaves the rest. -/
theorem splitOff_append {ε : Type} (s t : Text) :
    (splitOff (utf8 s).length (s ++ t) : Except (Fault ε) Text) = .ok t := by
  induction s with
  | nil => cases t <;> rfl
  | cons c s ih =>
    have hpos : 0 < c.utf8Size := Char.utf8Size_pos c
    have hlen : (utf8 (c :: s)).length = c.utf8Size + (utf8 s).length := by
      rw [utf8_cons, length_append, String.length_utf8EncodeChar]
    obtain ⟨n, hn⟩ : ∃ n, c.utf8Size + (utf8 s).length = n + 1 :=
      ⟨c.utf8Size + (utf8 s).length - 1, by omega⟩
    have hle : c.utf8Size ≤ n + 1 := by omega
    have hrest : n + 1 - c.utf8Size = (utf8 s).length := by omega
    rw [hlen, hn, cons_append, splitOff, if_pos hle, hrest, ih]

/-! ## Hexadecimal names -/

/-- The hexadecimal text of a list of bytes. -/
def hex (bytes : List UInt8) : Text :=
  bytes.flatMap fun b => [Nat.digitChar (b.toNat / 16), Nat.digitChar (b.toNat % 16)]

private theorem digitChar_facts :
    ∀ n < 16, Nat.digitChar n ≠ '/' ∧ (Nat.digitChar n).utf8Size = 1 := by
  decide

private theorem digitChar_inj : ∀ m < 16, ∀ n < 16, Nat.digitChar m = Nat.digitChar n → m = n := by
  decide

private theorem digits_lt (b : UInt8) : b.toNat / 16 < 16 ∧ b.toNat % 16 < 16 := by
  have := b.toNat_lt
  omega

theorem slash_notMem_hex (bytes : List UInt8) : '/' ∉ hex bytes := by
  intro h
  obtain ⟨b, -, hb⟩ := mem_flatMap.mp h
  obtain ⟨hhigh, hlow⟩ := digits_lt b
  simp only [mem_cons, not_mem_nil, or_false] at hb
  rcases hb with hb | hb
  · exact (digitChar_facts _ hhigh).1 hb.symm
  · exact (digitChar_facts _ hlow).1 hb.symm

/-- A hexadecimal text has two bytes for each byte it writes. -/
theorem length_utf8_hex (bytes : List UInt8) : (utf8 (hex bytes)).length = bytes.length * 2 := by
  induction bytes with
  | nil => rfl
  | cons b bytes ih =>
    obtain ⟨hhigh, hlow⟩ := digits_lt b
    have hsplit : hex (b :: bytes) =
        Nat.digitChar (b.toNat / 16) :: Nat.digitChar (b.toNat % 16) :: hex bytes := rfl
    rw [hsplit, utf8_cons, utf8_cons, length_append, length_append, ih,
      String.length_utf8EncodeChar, String.length_utf8EncodeChar,
      (digitChar_facts _ hhigh).2, (digitChar_facts _ hlow).2, length_cons]
    omega

/-- Different bytes have different hexadecimal texts. -/
theorem hex_injective : Function.Injective hex := by
  intro a
  induction a with
  | nil =>
    intro b h
    cases b with
    | nil => rfl
    | cons _ _ => cases h
  | cons x a ih =>
    intro b h
    cases b with
    | nil => cases h
    | cons y b =>
      obtain ⟨hhigh, h⟩ := cons.inj h
      obtain ⟨hlow, hrest⟩ := cons.inj h
      have hx := digits_lt x
      have hy := digits_lt y
      have hquot := digitChar_inj _ hx.1 _ hy.1 hhigh
      have hmod := digitChar_inj _ hx.2 _ hy.2 hlow
      have hxy : x = y := UInt8.toNat_inj.mp (by omega)
      rw [hxy, ih hrest]

/-- The value of a hexadecimal digit. -/
def digitValue (c : Char) : Option Nat :=
  if '0' ≤ c ∧ c ≤ '9' then some (c.toNat - '0'.toNat)
  else if 'a' ≤ c ∧ c ≤ 'f' then some (c.toNat - 'a'.toNat + 10)
  else if 'A' ≤ c ∧ c ≤ 'F' then some (c.toNat - 'A'.toNat + 10)
  else none

/-- The bytes that a hexadecimal text writes. -/
def unhex : Text → Option (List UInt8)
  | [] => some []
  | [_] => none
  | high :: low :: t => do
    let h ← digitValue high
    let l ← digitValue low
    let bytes ← unhex t
    return UInt8.ofNat (h * 16 + l) :: bytes

private theorem digitValue_digitChar : ∀ n < 16, digitValue (Nat.digitChar n) = some n := by
  decide

/-- A hexadecimal text writes the bytes it was made of. -/
theorem unhex_hex (bytes : List UInt8) : unhex (hex bytes) = some bytes := by
  induction bytes with
  | nil => rfl
  | cons b bytes ih =>
    obtain ⟨hhigh, hlow⟩ := digits_lt b
    have hsplit : hex (b :: bytes) =
        Nat.digitChar (b.toNat / 16) :: Nat.digitChar (b.toNat % 16) :: hex bytes := rfl
    have hbyte : UInt8.ofNat (b.toNat / 16 * 16 + b.toNat % 16) = b := by
      rw [Nat.div_add_mod', UInt8.ofNat_toNat]
    rw [hsplit, unhex, digitValue_digitChar _ hhigh, digitValue_digitChar _ hlow, ih]
    exact congrArg (fun byte => some (byte :: bytes)) hbyte

/-! ## Separated names -/

/-- Two names in front of a separator they do not contain are the same when one of the joined texts
begins with the other. -/
theorem isPrefix_separated {α : Type} {sep : α} {a b s t : List α} (ha : sep ∉ a) (hb : sep ∉ b) :
    a ++ sep :: s <+: b ++ sep :: t ↔ a = b ∧ s <+: t := by
  induction a generalizing b with
  | nil =>
    cases b with
    | nil => simp
    | cons y b =>
      have hy : sep ≠ y := fun h => hb (h ▸ mem_cons_self)
      simp [hy]
  | cons x a ih =>
    have hx : sep ≠ x := fun h => ha (h ▸ mem_cons_self)
    cases b with
    | nil => simp [Ne.symm hx]
    | cons y b =>
      have ha' : sep ∉ a := fun h => ha (mem_cons_of_mem x h)
      have hb' : sep ∉ b := fun h => hb (mem_cons_of_mem y h)
      rw [cons_append, cons_append, cons_prefix_cons, ih ha' hb', cons.injEq,
        and_assoc]

/-- Joined texts are equal exactly when their names and their rests are. -/
theorem separated_inj {α : Type} {sep : α} {a b s t : List α} (ha : sep ∉ a) (hb : sep ∉ b) :
    a ++ sep :: s = b ++ sep :: t ↔ a = b ∧ s = t := by
  constructor
  · intro h
    have hbegins : a ++ sep :: s <+: b ++ sep :: t := h ▸ prefix_refl _
    obtain ⟨rfl, -⟩ := (isPrefix_separated ha hb).mp hbegins
    exact ⟨rfl, (cons.inj (append_cancel_left h)).2⟩
  · rintro ⟨rfl, rfl⟩
    rfl

end Text

end ValidatingSigner.Base
