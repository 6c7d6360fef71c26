import Mathlib.Algebra.BigOperators.Group.Finset.Piecewise
import Mathlib.Algebra.GroupWithZero.Nat
import Mathlib.Algebra.Order.BigOperators.Group.Finset
import Mathlib.Data.List.AList

/-!
# Finite tables

A table maps finitely many keys to values.  A table of amounts has a total, which changes by exactly
the amount that is overwritten; an absent key counts as zero.
-/

namespace ValidatingSigner.Base

open AList List

/-- A finite map from keys to values of one type. -/
abbrev Table (κ : Type) (β : Type) := AList fun _ : κ => β

namespace Table

variable {κ β : Type}

section Lookup

variable [DecidableEq κ]

theorem lookup_insert_eq (t : Table κ β) (a k : κ) (b : β) :
    (t.insert k b).lookup a = if a = k then some b else t.lookup a := by
  by_cases h : a = k
  · subst h
    rw [if_pos rfl]
    exact lookup_insert t
  · rw [if_neg h]
    exact lookup_insert_ne h

/-- What holds of every entry that can be looked up can be checked entry by entry. -/
theorem forall_lookup (P : κ → β → Prop) (t : Table κ β) :
    (∀ k b, t.lookup k = some b → P k b) ↔ ∀ x ∈ t.entries, P x.1 x.2 :=
  ⟨fun h x hx => h x.1 x.2 (mem_lookup_iff.mpr hx),
    fun h k b hb => h ⟨k, b⟩ (mem_lookup_iff.mp hb)⟩

/-! ## Folds -/

/-- A fold whose steps act on one key each, in a way that repetition does not change, acts on the
keys of the list. -/
theorem lookup_foldl {α : Type} {step : Table κ β → α → Table κ β} (key : α → κ)
    {f : κ → Option β → Option β} (hstep : ∀ t x a, (step t x).lookup a =
      if a = key x then f a (t.lookup a) else t.lookup a)
    (hf : ∀ a x, f a (f a x) = f a x) (l : List α) (t : Table κ β) (a : κ) :
    (l.foldl step t).lookup a = if a ∈ l.map key then f a (t.lookup a) else t.lookup a := by
  induction l generalizing t with
  | nil => rfl
  | cons x l ih =>
    rw [foldl_cons, ih, hstep, map_cons]
    by_cases hx : a = key x
    · rw [if_pos hx, hf, ite_self, if_pos (hx ▸ mem_cons_self)]
    · simp only [mem_cons, hx, false_or, if_false]

/-- A fold over the entries of a table whose steps act on the key of the entry combines the two
tables key by key. -/
theorem lookup_foldl_entries {γ : Type} {step : Table κ β → (Sigma fun _ : κ => γ) → Table κ β}
    {f : Option β → γ → Option β} (hstep : ∀ t x a, (step t x).lookup a =
      if a = x.1 then f (t.lookup a) x.2 else t.lookup a)
    (u : Table κ γ) (t : Table κ β) (a : κ) :
    (u.entries.foldl step t).lookup a = match u.lookup a with
      | some c => f (t.lookup a) c
      | none => t.lookup a := by
  induction u using insertRec generalizing t with
  | H0 => rfl
  | IH k c u hk ih =>
    rw [entries_insert_of_notMem hk, foldl_cons, ih, hstep, lookup_insert_eq]
    by_cases ha : a = k
    · subst ha
      rw [if_pos rfl, if_pos rfl, lookup_eq_none.mpr hk]
    · rw [if_neg ha, if_neg ha]

/-! ## Restriction -/

/-- The entries of a table that satisfy `p`. -/
def retain (p : κ → β → Bool) (t : Table κ β) : Table κ β where
  entries := t.entries.filter fun s => p s.1 s.2
  nodupKeys := t.nodupKeys.sublist List.filter_sublist

theorem lookup_retain (p : κ → β → Bool) (t : Table κ β) (a : κ) :
    (t.retain p).lookup a = (t.lookup a).filter (p a) := by
  apply Option.ext
  intro b
  have hmem (u : Table κ β) : u.lookup a = some b ↔ (⟨a, b⟩ : Sigma fun _ : κ => β) ∈ u.entries :=
    mem_lookup_iff
  rw [hmem, Option.filter_eq_some_iff, hmem]
  simp [retain]

theorem lookup_retain_keys (p : κ → Bool) (t : Table κ β) (a : κ) :
    (t.retain fun k _ => p k).lookup a = if p a then t.lookup a else none := by
  rw [lookup_retain]
  cases hp : p a <;> cases t.lookup a <;> simp

/-! ## Mapped values -/

/-- The table with its values mapped. -/
def mapValues {γ : Type} (f : κ → β → γ) (t : Table κ β) : Table κ γ where
  entries := t.entries.map fun s => ⟨s.1, f s.1 s.2⟩
  nodupKeys := by
    have hkeys : (t.entries.map fun s => (⟨s.1, f s.1 s.2⟩ : Sigma fun _ : κ => γ)).keys =
        t.entries.keys := by
      rw [List.keys, List.map_map]
      rfl
    rw [List.NodupKeys, hkeys]
    exact t.nodupKeys

/-! ## Traversal -/

/-- Replace every value by what a computation makes of it, entry by entry. -/
def traverse {γ ε : Type} (f : κ → β → Except ε γ) (t : Table κ β) : Except ε (Table κ γ) :=
  go t.entries
where
  /-- The traversal of a list of entries. -/
  go : List (Sigma fun _ : κ => β) → Except ε (Table κ γ)
    | [] => .ok ∅
    | entry :: entries => do
      let value ← f entry.1 entry.2
      let rest ← go entries
      return rest.insert entry.1 value

section Traverse

variable {γ ε : Type} {f : κ → β → Except ε γ} {t : Table κ β} {u : Table κ γ}

theorem traverse_insert {k : κ} (hk : k ∉ t) (b : β) :
    traverse f (t.insert k b) = do
      let value ← f k b
      let rest ← t.traverse f
      return rest.insert k value := by
  rw [traverse, entries_insert_of_notMem hk]
  rfl

/-- A traversal has succeeded on every entry, and keeps the keys. -/
theorem lookup_traverse (h : t.traverse f = .ok u) (a : κ) :
    (t.lookup a = none ∧ u.lookup a = none) ∨
      ∃ b c, t.lookup a = some b ∧ f a b = .ok c ∧ u.lookup a = some c := by
  induction t using insertRec generalizing u with
  | H0 =>
    obtain rfl : ∅ = u := Except.ok.inj h
    exact .inl ⟨rfl, rfl⟩
  | IH k b t hk ih =>
    rw [traverse_insert hk] at h
    rcases hc : f k b with e | c
    · simp [hc, Bind.bind, Except.bind] at h
    rcases hrest : traverse f t with e | rest
    · simp [hc, hrest, Bind.bind, Except.bind] at h
    obtain rfl : rest.insert k c = u := by
      simpa [hc, hrest, Bind.bind, Except.bind, pure, Except.pure] using h
    rw [lookup_insert_eq, lookup_insert_eq]
    by_cases ha : a = k
    · subst ha
      rw [if_pos rfl, if_pos rfl]
      exact .inr ⟨b, c, rfl, hc, rfl⟩
    · rw [if_neg ha, if_neg ha]
      exact ih hrest

/-- The entry a traversal makes of an entry. -/
theorem lookup_of_traverse (h : t.traverse f = .ok u) {a : κ} {b : β} (hb : t.lookup a = some b) :
    ∃ c, f a b = .ok c ∧ u.lookup a = some c := by
  rcases lookup_traverse h a with ⟨hnone, -⟩ | ⟨b', c, hb', hc, hu⟩
  · rw [hb] at hnone
    cases hnone
  · obtain rfl := Option.some.inj (hb.symm.trans hb')
    exact ⟨c, hc, hu⟩

/-- The entry that an entry of a traversal was made of. -/
theorem exists_of_lookup_traverse (h : t.traverse f = .ok u) {a : κ} {c : γ}
    (hc : u.lookup a = some c) : ∃ b, t.lookup a = some b ∧ f a b = .ok c := by
  rcases lookup_traverse h a with ⟨-, hnone⟩ | ⟨b, c', hb, hfc, hu⟩
  · rw [hc] at hnone
    cases hnone
  · obtain rfl := Option.some.inj (hc.symm.trans hu)
    exact ⟨b, hb, hfc⟩

/-- A traversal that fails has failed on one of the entries. -/
theorem exists_of_traverse_error {e : ε} (h : t.traverse f = .error e) :
    ∃ a b, t.lookup a = some b ∧ f a b = .error e := by
  induction t using insertRec with
  | H0 => cases h
  | IH k b t hk ih =>
    rw [traverse_insert hk] at h
    rcases hc : f k b with e' | c
    · obtain rfl : e' = e := by simpa [hc, Bind.bind, Except.bind] using h
      exact ⟨k, b, lookup_insert t, hc⟩
    rcases hrest : traverse f t with e' | rest
    · obtain rfl : e' = e := by simpa [hc, hrest, Bind.bind, Except.bind] using h
      obtain ⟨a, b', hb', he⟩ := ih hrest
      have ha : a ≠ k := by
        rintro rfl
        rw [lookup_eq_none.mpr hk] at hb'
        cases hb'
      exact ⟨a, b', (lookup_insert_ne ha).trans hb', he⟩
    · simp [hc, hrest, Bind.bind, Except.bind, pure, Except.pure] at h

theorem exists_traverse (h : ∀ a b, t.lookup a = some b → ∃ c, f a b = .ok c) :
    ∃ u, t.traverse f = .ok u := by
  rcases hu : t.traverse f with e | u
  · obtain ⟨a, b, hb, he⟩ := exists_of_traverse_error hu
    obtain ⟨c, hc⟩ := h a b hb
    rw [hc] at he
    cases he
  · exact ⟨u, rfl⟩

end Traverse

end Lookup

/-! ## Amounts -/

/-- The sum of the amounts of a table. -/
def total (t : Table κ Nat) : Nat := (t.entries.map Sigma.snd).sum

@[simp] theorem total_empty : total (∅ : Table κ Nat) = 0 := rfl

variable [DecidableEq κ] {t : Table κ Nat}

/-- The amount recorded for a key, zero when there is none. -/
def amount (t : Table κ Nat) (k : κ) : Nat := (t.lookup k).getD 0

@[simp] theorem amount_empty (k : κ) : amount (∅ : Table κ Nat) k = 0 := rfl

theorem amount_insert (t : Table κ Nat) (a k : κ) (n : Nat) :
    amount (t.insert k n) a = if a = k then n else amount t a := by
  rw [amount, lookup_insert_eq]
  split_ifs
  · rfl
  · rfl

theorem amount_of_notMem {k : κ} (h : k ∉ t) : amount t k = 0 := by
  rw [amount, lookup_eq_none.mpr h]
  rfl

/-- The total of a table over any finite set of keys that contains its own. -/
theorem total_eq_sum {s : Finset κ} (h : ∀ k ∈ t, k ∈ s) : total t = ∑ k ∈ s, amount t k := by
  induction t using insertRec with
  | H0 => simp [total]
  | IH a b l hl ih =>
    have ha : a ∈ s := h a ((mem_insert l).mpr (.inl rfl))
    have hrest := ih fun k hk => h k ((mem_insert l).mpr (.inr hk))
    have htotal : total (l.insert a b) = b + total l := by
      rw [total, entries_insert_of_notMem hl, map_cons, sum_cons, total]
    have hpoint (k : κ) :
        amount (l.insert a b) k = (if k = a then b else 0) + amount l k := by
      rw [amount_insert]
      split_ifs with hk
      · rw [hk, amount_of_notMem hl, Nat.add_zero]
      · rw [Nat.zero_add]
    rw [htotal, hrest, Finset.sum_congr rfl fun k _ => hpoint k, Finset.sum_add_distrib,
      Finset.sum_ite_eq' s a, if_pos ha]

theorem total_congr {t u : Table κ Nat} (h : ∀ k, amount t k = amount u k) : total t = total u := by
  have ht : ∀ k ∈ t, k ∈ t.keys.toFinset ∪ u.keys.toFinset := fun k hk =>
    Finset.mem_union_left _ (mem_toFinset.mpr (mem_keys.mp hk))
  have hu : ∀ k ∈ u, k ∈ t.keys.toFinset ∪ u.keys.toFinset := fun k hk =>
    Finset.mem_union_right _ (mem_toFinset.mpr (mem_keys.mp hk))
  rw [total_eq_sum ht, total_eq_sum hu]
  exact Finset.sum_congr rfl fun k _ => h k

/-- Overwriting an entry changes the total by exactly what it changes the amount. -/
theorem total_insert (t : Table κ Nat) (k : κ) (n : Nat) :
    total (t.insert k n) + amount t k = total t + n := by
  have hsub : ∀ a ∈ t, a ∈ Insert.insert k t.keys.toFinset := fun a ha =>
    Finset.mem_insert_of_mem (mem_toFinset.mpr (mem_keys.mp ha))
  have hsub' : ∀ a ∈ t.insert k n, a ∈ Insert.insert k t.keys.toFinset := by
    intro a ha
    rcases (mem_insert t).mp ha with rfl | ha
    · exact Finset.mem_insert_self a _
    · exact hsub a ha
  have hk : k ∈ Insert.insert k t.keys.toFinset := Finset.mem_insert_self k _
  have hrest : ∑ a ∈ (Insert.insert k t.keys.toFinset).erase k, amount (t.insert k n) a =
      ∑ a ∈ (Insert.insert k t.keys.toFinset).erase k, amount t a :=
    Finset.sum_congr rfl fun a ha =>
      (amount_insert t a k n).trans (if_neg (Finset.ne_of_mem_erase ha))
  have hnew := Finset.add_sum_erase _ (fun a => amount (t.insert k n) a) hk
  have hold := Finset.add_sum_erase _ (fun a => amount t a) hk
  rw [total_eq_sum hsub, total_eq_sum hsub', ← hnew, ← hold, hrest, amount_insert, if_pos rfl]
  omega

theorem total_insert_empty (k : κ) (n : Nat) : total ((∅ : Table κ Nat).insert k n) = n := by
  have h := total_insert (∅ : Table κ Nat) k n
  rwa [amount_empty, total_empty, Nat.add_zero, Nat.zero_add] at h

theorem amount_le_total (t : Table κ Nat) (k : κ) : amount t k ≤ total t := by
  have h := total_insert t k 0
  omega

/-- The total is zero exactly when every amount is. -/
theorem total_eq_zero_iff : total t = 0 ↔ ∀ k, amount t k = 0 := by
  constructor
  · intro h k
    have := amount_le_total t k
    omega
  · intro h
    rw [total_eq_sum (s := t.keys.toFinset)
      fun k hk => mem_toFinset.mpr (mem_keys.mp hk)]
    exact Finset.sum_eq_zero fun k _ => h k

end Table

end ValidatingSigner.Base
