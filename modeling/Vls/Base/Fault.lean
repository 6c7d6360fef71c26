import Mathlib.Algebra.Group.Int.Defs
import Mathlib.Algebra.Group.Nat.Defs

/-!
# Fallible computation over machine words

A computation either refuses with an error value the caller sees, or aborts the whole process, as an
assertion, an `unwrap` or a checked overflow does.  Unsigned 64-bit arithmetic is natural-number
arithmetic followed by `Overflow.u64`, which treats a result that does not fit as the build does.
-/

namespace ValidatingSigner.Base

open List

/-- The two ways a computation ends without a value. -/
inductive Fault (ε : Type) where
  /-- An error returned to the caller. -/
  | refuse (error : ε)
  /-- A panic: the process ends. -/
  | abort (message : String)
  deriving DecidableEq, Repr

/-- Whether the build checks arithmetic overflow or wraps. -/
inductive Overflow where
  | checked
  | wrapping
  deriving DecidableEq, Repr

variable {ε α β : Type} {l : List α} {bs : List β}

/-- The result `value` of an unchecked operation on words of `width` bits. -/
def Overflow.uint (o : Overflow) (width value : Nat) : Except (Fault ε) Nat :=
  if value < 2 ^ width then .ok value
  else match o with
    | .checked => .error (.abort "attempt to compute with overflow")
    | .wrapping => .ok (value % 2 ^ width)

/-- The result `value` of an unchecked 64-bit operation. -/
def Overflow.u64 (o : Overflow) (value : Nat) : Except (Fault ε) Nat := o.uint 64 value

/-- The result `value` of an unchecked 32-bit operation. -/
def Overflow.u32 (o : Overflow) (value : Nat) : Except (Fault ε) Nat := o.uint 32 value

/-- The unchecked 64-bit difference `a - b`. -/
def Overflow.sub (o : Overflow) (a b : Nat) : Except (Fault ε) Nat :=
  if b ≤ a then .ok (a - b)
  else match o with
    | .checked => .error (.abort "attempt to subtract with overflow")
    | .wrapping => .ok ((a + 2 ^ 64 - b) % 2 ^ 64)

/-- The unchecked 32-bit difference `a - b`. -/
def Overflow.sub32 (o : Overflow) (a b : Nat) : Except (Fault ε) Nat :=
  if b ≤ a then .ok (a - b)
  else match o with
    | .checked => .error (.abort "attempt to subtract with overflow")
    | .wrapping => .ok ((a + 2 ^ 32 - b) % 2 ^ 32)

/-- The result `value` of an unchecked operation on signed 64-bit words. -/
def Overflow.i64 (o : Overflow) (value : Int) : Except (Fault ε) Int64 :=
  if -2 ^ 63 ≤ value ∧ value < 2 ^ 63 then .ok (Int64.ofInt value)
  else match o with
    | .checked => .error (.abort "attempt to compute with overflow")
    | .wrapping => .ok (Int64.ofInt value)

/-- A computation that never refuses: it returns a value or aborts. -/
abbrev Asserted := Except (Fault Empty)

/-- A computation that never refuses, inside one that may. -/
def Asserted.lift : Asserted α → Except (Fault ε) α
  | .ok a => .ok a
  | .error (.abort message) => .error (.abort message)

/-- The value of an optional result that is unwrapped, aborting when there is none. -/
def expect (message : String) : Option α → Except (Fault ε) α
  | some a => .ok a
  | none => .error (.abort message)

/-- The value of a fallible result that is unwrapped, aborting when it is refused. -/
def unwrap (message : String) : Except (Fault ε) α → Except (Fault ε) α
  | .ok a => .ok a
  | .error (.refuse _) => .error (.abort message)
  | .error (.abort m) => .error (.abort m)

/-- The value of a fallible result that is unwrapped where other errors are returned. -/
def unwrapAs {ε' : Type} (message : String) : Except (Fault ε) α → Except (Fault ε') α
  | .ok a => .ok a
  | .error (.refuse _) => .error (.abort message)
  | .error (.abort m) => .error (.abort m)

/-- Abort unless `c` holds. -/
def assert (c : Prop) [Decidable c] (message : String) : Except (Fault ε) Unit :=
  if c then .ok () else .error (.abort message)

/-- Refuse with `error` when `c` holds. -/
def refuseIf (c : Prop) [Decidable c] (error : ε) : Except (Fault ε) Unit :=
  if c then .error (.refuse error) else .ok ()

variable {x : Except (Fault ε) α} {f : α → Except (Fault ε) β} {e : Fault ε} {m : String}
  {width : Nat}

theorem bind_eq_ok {b : β} : (x >>= f) = .ok b ↔ ∃ a, x = .ok a ∧ f a = .ok b := by
  cases x <;> simp [Bind.bind, Except.bind]

theorem bind_ok {b : β} (h : (x >>= f) = .ok b) : ∃ a, x = .ok a ∧ f a = .ok b :=
  bind_eq_ok.mp h

/-- A sequence fails where its first part does, or where its second part does on the first's
value. -/
theorem bind_eq_error : (x >>= f) = .error e ↔ x = .error e ∨ ∃ a, x = .ok a ∧ f a = .error e := by
  cases x <;> simp [Bind.bind, Except.bind]

theorem mem_toOption {a : α} : a ∈ x.toOption ↔ x = .ok a := by
  cases x <;> simp [Except.toOption]

@[simp] theorem ok_bind {a : α} : ((Except.ok a : Except (Fault ε) α) >>= f) = f a := rfl

@[simp] theorem pure_eq_ok {a b : α} : (pure a : Except (Fault ε) α) = .ok b ↔ a = b := by
  simp [pure, Except.pure]

@[simp] theorem refuseIf_eq_ok {c : Prop} [Decidable c] {e : ε} {u : Unit} :
    refuseIf c e = .ok u ↔ ¬ c := by
  by_cases h : c <;> simp [refuseIf, h]

theorem refuseIf_of_not {c : Prop} [Decidable c] (h : ¬ c) {e : ε} : refuseIf c e = .ok () :=
  if_neg h

@[simp] theorem assert_eq_ok {c : Prop} [Decidable c] {u : Unit} :
    (assert c m : Except (Fault ε) Unit) = .ok u ↔ c := by
  by_cases h : c <;> simp [assert, h]

@[simp] theorem expect_eq_ok {x : Option α} {a : α} :
    (expect m x : Except (Fault ε) α) = .ok a ↔ x = some a := by
  cases x <;> simp [expect]

@[simp] theorem unwrap_eq_ok {a : α} : unwrap m x = .ok a ↔ x = .ok a := by
  rcases x with (_ | _) | _ <;> simp [unwrap]

@[simp] theorem Asserted.lift_eq_ok {x : Asserted α} {a : α} :
    (Asserted.lift x : Except (Fault ε) α) = .ok a ↔ x = .ok a := by
  rcases x with (e | _) | _
  · cases e
  · simp [Asserted.lift]
  · simp [Asserted.lift]

/-- Mapping a computation whose values are those of `g` gives the values of `g`. -/
theorem mapM_eq_map {g : α → β} (hf : ∀ a b, f a = .ok b → b = g a) (h : l.mapM f = .ok bs) :
    bs = l.map g := by
  induction l generalizing bs with
  | nil => exact (pure_eq_ok.mp h).symm
  | cons a l ih =>
    rw [mapM_cons] at h
    obtain ⟨b, hb, h⟩ := bind_ok h
    obtain ⟨bs', hbs, h⟩ := bind_ok h
    rw [← pure_eq_ok.mp h, hf a b hb, ih hbs, map_cons]

/-- Mapping two computations that agree on every element gives the same result. -/
theorem mapM_congr {g : α → Except (Fault ε) β} (h : ∀ a ∈ l, f a = g a) : l.mapM f = l.mapM g := by
  induction l with
  | nil => rfl
  | cons a l ih =>
    rw [mapM_cons, mapM_cons, h a mem_cons_self,
      ih fun b hb => h b (mem_cons_of_mem a hb)]

/-- Mapping a computation that succeeds on every element gives the mapped values. -/
theorem mapM_eq_ok {g : α → β} (h : ∀ a ∈ l, f a = .ok (g a)) : l.mapM f = .ok (l.map g) := by
  induction l with
  | nil => rfl
  | cons a l ih =>
    rw [mapM_cons, h a mem_cons_self, ok_bind,
      ih fun b hb => h b (mem_cons_of_mem a hb)]
    rfl

/-- The keys of the elements, paired with their values under a mapped computation. -/
theorem mem_zip_mapM_iff {κ : Type} (key : α → κ) (h : l.mapM f = .ok bs) {k : κ} {b : β} :
    (k, b) ∈ (l.map key).zip bs ↔ ∃ a ∈ l, key a = k ∧ f a = .ok b := by
  induction l generalizing bs with
  | nil => simp
  | cons x l ih =>
    rw [mapM_cons] at h
    obtain ⟨b', hb', h⟩ := bind_ok h
    obtain ⟨bs', hbs, h⟩ := bind_ok h
    cases h
    rw [map_cons, zip_cons_cons, mem_cons, ih hbs, Prod.mk.injEq]
    constructor
    · rintro (⟨rfl, rfl⟩ | ⟨a, ha, hkey, hb⟩)
      · exact ⟨x, mem_cons_self, rfl, hb'⟩
      · exact ⟨a, mem_cons_of_mem x ha, hkey, hb⟩
    · rintro ⟨a, ha, rfl, hb⟩
      rcases mem_cons.mp ha with rfl | ha
      · exact .inl ⟨rfl, Except.ok.inj (hb.symm.trans hb')⟩
      · exact .inr ⟨a, ha, rfl, hb⟩

/-- A mapped computation has succeeded on every element. -/
theorem exists_of_mapM (h : l.mapM f = .ok bs) {a : α} (ha : a ∈ l) : ∃ b, f a = .ok b := by
  induction l generalizing bs with
  | nil => exact absurd ha not_mem_nil
  | cons x l ih =>
    rw [mapM_cons] at h
    obtain ⟨b, hb, h⟩ := bind_ok h
    obtain ⟨bs', hbs, -⟩ := bind_ok h
    rcases mem_cons.mp ha with rfl | ha
    · exact ⟨b, hb⟩
    · exact ih hbs ha

/-- The values of a mapped computation are those of the elements. -/
theorem mem_mapM_iff (h : l.mapM f = .ok bs) {b : β} : b ∈ bs ↔ ∃ a ∈ l, f a = .ok b := by
  induction l generalizing bs with
  | nil =>
    cases h
    simp
  | cons x l ih =>
    rw [mapM_cons] at h
    obtain ⟨c, hc, h⟩ := bind_ok h
    obtain ⟨cs, hcs, h⟩ := bind_ok h
    cases h
    rw [mem_cons, ih hcs]
    constructor
    · rintro (rfl | ⟨a, ha, hb⟩)
      · exact ⟨x, mem_cons_self, hc⟩
      · exact ⟨a, mem_cons_of_mem x ha, hb⟩
    · rintro ⟨a, ha, hb⟩
      rcases mem_cons.mp ha with rfl | ha
      · exact .inl (Except.ok.inj (hb.symm.trans hc))
      · exact .inr ⟨a, ha, hb⟩

/-- What is the same of an element and its value is the same of the elements and the values of a
mapped computation. -/
theorem map_mapM_eq {γ : Type} {p : β → γ} {q : α → γ}
    (hpq : ∀ a ∈ l, ∀ b, f a = .ok b → p b = q a) (h : l.mapM f = .ok bs) : bs.map p = l.map q := by
  induction l generalizing bs with
  | nil =>
    cases h
    rfl
  | cons x l ih =>
    rw [mapM_cons] at h
    obtain ⟨c, hc, h⟩ := bind_ok h
    obtain ⟨cs, hcs, h⟩ := bind_ok h
    cases h
    rw [map_cons, map_cons, hpq x mem_cons_self c hc,
      ih (fun a ha => hpq a (mem_cons_of_mem x ha)) hcs]

/-- A mapped computation succeeds iff it succeeds on every element. -/
theorem mapM_ok_iff : (∃ bs, l.mapM f = .ok bs) ↔ ∀ a ∈ l, ∃ b, f a = .ok b := by
  refine ⟨fun ⟨bs, h⟩ a ha => exists_of_mapM h ha, fun h => ?_⟩
  induction l with
  | nil => exact ⟨[], rfl⟩
  | cons a l ih =>
    obtain ⟨b, hb⟩ := h a mem_cons_self
    obtain ⟨bs, hbs⟩ := ih fun x hx => h x (mem_cons_of_mem a hx)
    refine ⟨b :: bs, ?_⟩
    rw [mapM_cons, hb, ok_bind, hbs]
    rfl

/-- The keys of the elements a mapped test has flagged. -/
theorem mem_flagged {κ : Type} {f : α → Except (Fault ε) Bool} (key : α → κ) {flags : List Bool}
    (h : l.mapM f = .ok flags) {k : κ} :
    k ∈ (((l.map key).zip flags).filter (·.2)).map (·.1) ↔ ∃ a ∈ l, key a = k ∧ f a = .ok true := by
  rw [← mem_zip_mapM_iff key h]
  simp only [mem_map, mem_filter]
  constructor
  · rintro ⟨⟨k', flag⟩, ⟨hmem, rfl⟩, rfl⟩
    exact hmem
  · intro hmem
    exact ⟨(k, true), ⟨hmem, rfl⟩, rfl⟩

/-! ## Computations that can only abort -/

/-- The computation returns a value or aborts; it never refuses. -/
def NoRefusal (x : Except (Fault ε) α) : Prop := ∀ e, x ≠ .error (.refuse e)

namespace NoRefusal

variable {f : α → Except (Fault ε) β}

theorem ok (a : α) : NoRefusal (.ok a : Except (Fault ε) α) := fun _ h => nomatch h

theorem bind {x : Except (Fault ε) α} (hx : NoRefusal x) (hf : ∀ a, NoRefusal (f a)) :
    NoRefusal (x >>= f) := by
  intro e h
  rcases bind_eq_error.mp h with h | ⟨a, -, h⟩
  · exact hx e h
  · exact hf a e h

theorem of_bind {x : Except (Fault ε) α} (h : NoRefusal (x >>= f)) :
    NoRefusal x ∧ ∀ a, x = .ok a → NoRefusal (f a) := by
  refine ⟨fun e hx => ?_, fun a hx e hf => ?_⟩
  · exact h e (bind_eq_error.mpr (.inl hx))
  · exact h e (bind_eq_error.mpr (.inr ⟨a, hx, hf⟩))

theorem uint (o : Overflow) (width value : Nat) :
    NoRefusal (o.uint width value : Except (Fault ε) Nat) := by
  intro e h
  unfold Overflow.uint at h
  by_cases hv : value < 2 ^ width
  · rw [if_pos hv] at h
    cases h
  · rw [if_neg hv] at h
    cases o <;> cases h

theorem u64 (o : Overflow) (value : Nat) : NoRefusal (o.u64 value : Except (Fault ε) Nat) :=
  uint o 64 value

theorem sub32 (o : Overflow) (a b : Nat) :
    NoRefusal (o.sub32 a b : Except (Fault ε) Nat) := by
  intro e h
  unfold Overflow.sub32 at h
  by_cases hb : b ≤ a
  · rw [if_pos hb] at h
    cases h
  · rw [if_neg hb] at h
    cases o <;> cases h

theorem expect (m : String) (x : Option α) :
    NoRefusal (Base.expect m x : Except (Fault ε) α) := by
  intro e h
  cases x <;> cases h

theorem unwrap (m : String) (x : Except (Fault ε) α) : NoRefusal (Base.unwrap m x) := by
  intro e h
  rcases x with (_ | _) | _ <;> cases h

theorem lift (x : Asserted α) : NoRefusal (Asserted.lift x : Except (Fault ε) α) := by
  intro e h
  rcases x with (e' | _) | _
  · cases e'
  · cases h
  · cases h

theorem mapM (hf : ∀ a, NoRefusal (f a)) (l : List α) : NoRefusal (l.mapM f) := by
  induction l with
  | nil => exact ok []
  | cons a l ih =>
    rw [mapM_cons]
    exact (hf a).bind fun _ => ih.bind fun _ => ok _

end NoRefusal

/-! ## Computations that cannot abort -/

/-- The computation returns a value or refuses; it never aborts. -/
def NoAbort (x : Except (Fault ε) α) : Prop := ∀ m, x ≠ .error (.abort m)

namespace NoAbort

variable {x : Except (Fault ε) α} {f : α → Except (Fault ε) β}

@[simp] theorem ok (a : α) : NoAbort (.ok a : Except (Fault ε) α) := fun _ h => nomatch h

@[simp] theorem refuse (e : ε) : NoAbort (.error (.refuse e) : Except (Fault ε) α) :=
  fun _ h => nomatch h

/-- A sequence cannot abort exactly when no part that is reached can. -/
@[simp] theorem bind_iff : NoAbort (x >>= f) ↔ NoAbort x ∧ ∀ a, x = .ok a → NoAbort (f a) := by
  constructor
  · intro h
    exact ⟨fun m hm => h m (bind_eq_error.mpr (.inl hm)),
      fun a ha m hm => h m (bind_eq_error.mpr (.inr ⟨a, ha, hm⟩))⟩
  · rintro ⟨hx, hf⟩ m h
    rcases bind_eq_error.mp h with h | ⟨a, ha, h⟩
    · exact hx m h
    · exact hf a ha m h

theorem bind (hx : NoAbort x) (hf : ∀ a, x = .ok a → NoAbort (f a)) : NoAbort (x >>= f) :=
  bind_iff.mpr ⟨hx, hf⟩

@[simp] theorem refuseIf (c : Prop) [Decidable c] (e : ε) :
    NoAbort (Base.refuseIf c e : Except (Fault ε) Unit) := by
  unfold Base.refuseIf
  split
  · exact refuse e
  · exact ok ()

/-- A word operation in a build that wraps, or with a result that fits. -/
theorem uint {o : Overflow} {width value : Nat} (h : o = .wrapping ∨ value < 2 ^ width) :
    NoAbort (o.uint width value : Except (Fault ε) Nat) := by
  unfold Overflow.uint
  split
  · exact ok value
  · rename_i hv
    obtain rfl := h.resolve_right hv
    exact ok _

end NoAbort

variable {value : Nat}

/-- A result that fits is exact, whatever the build does on overflow. -/
theorem Overflow.uint_of_lt (o : Overflow) (h : value < 2 ^ width) :
    (o.uint width value : Except (Fault ε) Nat) = .ok value := by
  unfold Overflow.uint
  rw [if_pos h]

variable {o : Overflow} {r : Nat}

/-- Every word result is the exact one reduced modulo the word size. -/
theorem Overflow.eq_mod_of_uint (h : (o.uint width value : Except (Fault ε) Nat) = .ok r) :
    r = value % 2 ^ width := by
  unfold Overflow.uint at h
  by_cases hv : value < 2 ^ width
  · rw [if_pos hv, Except.ok.injEq] at h
    rw [← h, Nat.mod_eq_of_lt hv]
  · rw [if_neg hv] at h
    cases o with
    | checked => cases h
    | wrapping =>
      rw [Except.ok.injEq] at h
      exact h.symm

/-- With overflow checks a word result is the exact one. -/
theorem Overflow.eq_of_uint_checked
    (h : (Overflow.checked.uint width value : Except (Fault ε) Nat) = .ok r) :
    r = value ∧ value < 2 ^ width := by
  unfold Overflow.uint at h
  by_cases hv : value < 2 ^ width
  · rw [if_pos hv, Except.ok.injEq] at h
    exact ⟨h.symm, hv⟩
  · rw [if_neg hv] at h
    cases h

theorem Overflow.u64_of_lt (o : Overflow) (h : value < 2 ^ 64) :
    (o.u64 value : Except (Fault ε) Nat) = .ok value := o.uint_of_lt h

/-- A 64-bit result is there iff the build wraps or the result fits. -/
theorem Overflow.u64_ok_iff :
    (∃ r, (o.u64 value : Except (Fault ε) Nat) = .ok r) ↔ o = .wrapping ∨ value < 2 ^ 64 := by
  constructor
  · rintro ⟨r, h⟩
    cases o with
    | checked => exact .inr (eq_of_uint_checked h).2
    | wrapping => exact .inl rfl
  · intro h
    by_cases hv : value < 2 ^ 64
    · exact ⟨value, o.u64_of_lt hv⟩
    · obtain rfl := h.resolve_right hv
      exact ⟨value % 2 ^ 64, if_neg hv⟩

theorem Overflow.le_of_u64 (h : (o.u64 value : Except (Fault ε) Nat) = .ok r) : r ≤ value := by
  rw [eq_mod_of_uint h]
  exact Nat.mod_le _ _

/-- A 64-bit result is the exact one when overflow is checked or does not happen. -/
theorem Overflow.eq_of_u64 (h : (o.u64 value : Except (Fault ε) Nat) = .ok r)
    (hfit : o = .checked ∨ value < 2 ^ 64) : r = value := by
  rcases hfit with rfl | hfit
  · exact (eq_of_uint_checked h).1
  · rw [eq_mod_of_uint h, Nat.mod_eq_of_lt hfit]

/-- A signed result that fits is exact, whatever the build does on overflow. -/
theorem Overflow.i64_of_fits (o : Overflow) {value : Int} (h : -2 ^ 63 ≤ value ∧ value < 2 ^ 63) :
    (o.i64 value : Except (Fault ε) Int64) = .ok (Int64.ofInt value) := by
  unfold Overflow.i64
  rw [if_pos h]

/-- A signed result is the exact one when overflow is checked or does not happen. -/
theorem Overflow.toInt_of_i64 {value : Int} {r : Int64}
    (h : (o.i64 value : Except (Fault ε) Int64) = .ok r)
    (hfit : o = .checked ∨ -2 ^ 63 ≤ value ∧ value < 2 ^ 63) : r.toInt = value := by
  unfold Overflow.i64 at h
  by_cases hv : -2 ^ 63 ≤ value ∧ value < 2 ^ 63
  · rw [if_pos hv, Except.ok.injEq] at h
    rw [← h, Int64.toInt_ofInt_of_le (by omega) (by omega)]
  · rw [if_neg hv] at h
    obtain rfl := hfit.resolve_right hv
    cases h

variable {a b : Nat}

/-- Every 64-bit difference is the exact one reduced modulo `2 ^ 64`. -/
theorem Overflow.eq_mod_of_sub (ha : a < 2 ^ 64) (h : (o.sub a b : Except (Fault ε) Nat) = .ok r) :
    r = (a + 2 ^ 64 - b) % 2 ^ 64 := by
  unfold Overflow.sub at h
  by_cases hb : b ≤ a
  · rw [if_pos hb, Except.ok.injEq] at h
    omega
  · rw [if_neg hb] at h
    cases o with
    | checked => cases h
    | wrapping =>
      rw [Except.ok.injEq] at h
      exact h.symm

/-- A difference can be subtracted from the same number again, which gives back what was
subtracted. -/
theorem Overflow.sub_cancel (ha : a < 2 ^ 64) (hb : b < 2 ^ 64)
    (h : (o.sub a b : Except (Fault ε) Nat) = .ok r) :
    (o.sub a r : Except (Fault ε) Nat) = .ok b := by
  have hr := eq_mod_of_sub ha h
  unfold Overflow.sub at h ⊢
  by_cases hle : b ≤ a
  · rw [if_pos (by omega)]
    exact congrArg Except.ok (by omega)
  · rw [if_neg hle] at h
    rw [if_neg (by omega)]
    cases o with
    | checked => cases h
    | wrapping => exact congrArg Except.ok (by omega)

/-- Subtracting a difference from the same number gives back what was subtracted. -/
theorem Overflow.sub_sub {c : Nat} (ha : a < 2 ^ 64) (hb : b < 2 ^ 64)
    (h : (o.sub a b : Except (Fault ε) Nat) = .ok r)
    (h' : (o.sub a r : Except (Fault ε) Nat) = .ok c) : c = b := by
  have h₁ := eq_mod_of_sub ha h
  have h₂ := eq_mod_of_sub ha h'
  omega

/-- Every 32-bit difference is the exact one reduced modulo `2 ^ 32`. -/
theorem Overflow.eq_mod_of_sub32 (ha : a < 2 ^ 32)
    (h : (o.sub32 a b : Except (Fault ε) Nat) = .ok r) : r = (a + 2 ^ 32 - b) % 2 ^ 32 := by
  unfold Overflow.sub32 at h
  by_cases hb : b ≤ a
  · rw [if_pos hb, Except.ok.injEq] at h
    omega
  · rw [if_neg hb] at h
    cases o with
    | checked => cases h
    | wrapping =>
      rw [Except.ok.injEq] at h
      exact h.symm

theorem Overflow.eq_of_sub32_checked
    (h : (Overflow.checked.sub32 a b : Except (Fault ε) Nat) = .ok r) : r = a - b ∧ b ≤ a := by
  unfold Overflow.sub32 at h
  by_cases hb : b ≤ a
  · rw [if_pos hb, Except.ok.injEq] at h
    exact ⟨h.symm, hb⟩
  · rw [if_neg hb] at h
    cases h

theorem Overflow.sub32_unique {r' : Nat} (hr : (o.sub32 a b : Except (Fault ε) Nat) = .ok r)
    (hr' : (o.sub32 a b : Except (Fault β) Nat) = .ok r') : r = r' := by
  unfold Overflow.sub32 at hr hr'
  by_cases hb : b ≤ a
  · rw [if_pos hb, Except.ok.injEq] at hr hr'
    exact hr.symm.trans hr'
  · rw [if_neg hb] at hr hr'
    cases o with
    | checked => cases hr
    | wrapping =>
      rw [Except.ok.injEq] at hr hr'
      exact hr.symm.trans hr'

/-- Subtracting one undoes adding one to a 32-bit word. -/
theorem Overflow.sub32_of_u32 (ha : a < 2 ^ 32)
    (h : (o.u32 (a + 1) : Except (Fault ε) Nat) = .ok b) :
    (o.sub32 b 1 : Except (Fault β) Nat) = .ok a := by
  unfold Overflow.u32 Overflow.uint at h
  unfold Overflow.sub32
  by_cases hv : a + 1 < 2 ^ 32
  · rw [if_pos hv, Except.ok.injEq] at h
    rw [if_pos (by omega)]
    exact congrArg Except.ok (by omega)
  · rw [if_neg hv] at h
    cases o with
    | checked => cases h
    | wrapping =>
      rw [Except.ok.injEq] at h
      rw [if_neg (by omega)]
      exact congrArg Except.ok (by omega)

end ValidatingSigner.Base
