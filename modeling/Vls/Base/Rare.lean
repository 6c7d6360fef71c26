import Mathlib.Data.List.Nodup

/-!
# Lists with few elements that matter

When only some elements of a list contribute to a concatenation, those that do not may be left out,
and a single one that does gives a list of at most one element.
-/

namespace ValidatingSigner.Base

open List

variable {α β : Type} {f : α → List β}

/-- Elements that contribute nothing may be left out. -/
theorem flatMap_eq_of_sublist {l l' : List α} (hsub : l.Sublist l') (hnodup : l'.Nodup)
    (hall : ∀ a ∈ l', f a ≠ [] → a ∈ l) : l.flatMap f = l'.flatMap f := by
  induction hsub with
  | slnil => rfl
  | @cons l l' a hsub ih =>
    obtain ⟨hnot, hnodup⟩ := nodup_cons.mp hnodup
    have hnil : f a = [] := by
      by_contra hne
      exact hnot (hsub.subset (hall a mem_cons_self hne))
    rw [flatMap_cons, hnil, nil_append]
    exact ih hnodup fun b hb => hall b (mem_cons_of_mem _ hb)
  | @cons_cons l l' a hsub ih =>
    obtain ⟨hnot, hnodup⟩ := nodup_cons.mp hnodup
    rw [flatMap_cons, flatMap_cons, ih hnodup]
    intro b hb hne
    rcases mem_cons.mp (hall b (mem_cons_of_mem _ hb) hne) with rfl | hmem
    · exact absurd hb hnot
    · exact hmem

/-- A single element that contributes gives at most one element. -/
theorem length_flatMap_ite_le {p : α → Prop} [DecidablePred p] {g : α → β} {l : List α}
    (hnodup : l.Nodup) (hunique : ∀ a ∈ l, p a → ∀ b ∈ l, p b → a = b) :
    (l.flatMap fun a => if p a then [g a] else []).length ≤ 1 := by
  induction l with
  | nil => exact Nat.zero_le 1
  | cons a l ih =>
    obtain ⟨hnot, hnodup⟩ := nodup_cons.mp hnodup
    have hrest := ih hnodup fun b hb hpb c hc =>
      hunique b (mem_cons_of_mem _ hb) hpb c (mem_cons_of_mem _ hc)
    rw [flatMap_cons]
    by_cases ha : p a
    · have hnil : (l.flatMap fun a => if p a then [g a] else []) = [] := by
        rw [flatMap_eq_nil_iff]
        intro b hb
        refine if_neg fun hpb => hnot ?_
        rw [hunique a mem_cons_self ha b (mem_cons_of_mem _ hb) hpb]
        exact hb
      rw [if_pos ha, hnil]
      exact Nat.le_refl 1
    · rw [if_neg ha]
      exact hrest

end ValidatingSigner.Base
