import Mathlib.Data.List.Sort
import Vls.Base.Table
import Vls.Base.Text

/-!
# Ranges of an ordered map

A map from texts is kept in the order of its keys.  Walking from a text on, as long as the keys
begin with it, visits exactly the entries whose keys begin with it: in the order of the bytes
nothing lies between them.
-/

namespace ValidatingSigner.Base.Table

open List

variable {β : Type}

/-- The entries of a map in the order of their keys. -/
def ordered (t : Table Text β) : List (Text × β) :=
  (t.entries.map fun s => (s.1, s.2)).insertionSort fun a b => a.1.le b.1

/-- The entries from a text on, as long as their keys begin with it. -/
def startsWith (t : Table Text β) (start : Text) : List (Text × β) :=
  (t.ordered.dropWhile fun kv => ¬ start.le kv.1).takeWhile fun kv =>
    start.utf8.isPrefixOf kv.1.utf8

theorem mem_ordered {t : Table Text β} {key : Text} {value : β} :
    (key, value) ∈ t.ordered ↔ t.lookup key = some value := by
  have hlookup : t.lookup key = some value ↔
      (⟨key, value⟩ : Sigma fun _ : Text => β) ∈ t.entries := AList.mem_lookup_iff
  rw [ordered, mem_insertionSort, hlookup]
  simp

theorem pairwise_ordered (t : Table Text β) : t.ordered.Pairwise fun a b => a.1.le b.1 := by
  have htotal : Std.Total fun a b : Text × β => a.1.le b.1 := ⟨fun a b => a.1.le_total b.1⟩
  have htrans : IsTrans (Text × β) fun a b => a.1.le b.1 := ⟨fun _ _ _ => Text.le_trans⟩
  exact pairwise_insertionSort _ _

theorem nodup_keys_ordered (t : Table Text β) : (t.ordered.map Prod.fst).Nodup := by
  have hkeys : ((t.entries.map fun s => (s.1, s.2)).map Prod.fst).Nodup := by
    rw [map_map]
    exact t.nodupKeys
  exact ((perm_insertionSort _ _).map Prod.fst).nodup_iff.mpr hkeys

/-- In an ordered list that starts at a text or after it, the keys that begin with the text come
first. -/
theorem takeWhile_eq_filter {start : Text} {l : List (Text × β)}
    (hsorted : l.Pairwise fun a b => a.1.le b.1) (hstart : ∀ kv ∈ l, start.le kv.1) :
    (l.takeWhile fun kv => start.utf8.isPrefixOf kv.1.utf8) =
      l.filter fun kv => start.utf8.isPrefixOf kv.1.utf8 := by
  induction l with
  | nil => rfl
  | cons kv l ih =>
    obtain ⟨hfirst, hrest⟩ := pairwise_cons.mp hsorted
    cases hbegins : start.utf8.isPrefixOf kv.1.utf8 with
    | true =>
      simp only [takeWhile_cons, filter_cons, hbegins, if_true]
      rw [ih hrest fun kv' hkv' => hstart kv' (mem_cons_of_mem kv hkv')]
    | false =>
      have hnone : ∀ kv' ∈ l, ¬ start.utf8.isPrefixOf kv'.1.utf8 := by
        intro kv' hkv' h
        have hbetween := Text.isPrefix_of_le_of_le (hstart kv mem_cons_self)
          (hfirst kv' hkv') (Text.utf8_isPrefix_iff.mp (List.isPrefixOf_iff_prefix.mp h))
        rw [List.isPrefixOf_iff_prefix.mpr (Text.utf8_isPrefix_iff.mpr hbetween)] at hbegins
        cases hbegins
      simp only [takeWhile_cons, filter_cons, hbegins, Bool.false_eq_true, if_false]
      exact (filter_eq_nil_iff.mpr hnone).symm

/-- Walking from a text on while the keys begin with it visits all the keys that begin with it. -/
theorem dropWhile_takeWhile_eq_filter {start : Text} {l : List (Text × β)}
    (hsorted : l.Pairwise fun a b => a.1.le b.1) :
    ((l.dropWhile fun kv => ¬ start.le kv.1).takeWhile fun kv =>
      start.utf8.isPrefixOf kv.1.utf8) = l.filter fun kv => start.utf8.isPrefixOf kv.1.utf8 := by
  induction l with
  | nil => rfl
  | cons kv l ih =>
    obtain ⟨hfirst, hrest⟩ := pairwise_cons.mp hsorted
    by_cases hle : start.le kv.1
    · rw [dropWhile_cons_of_neg (by simpa using hle)]
      apply takeWhile_eq_filter hsorted
      intro kv' hkv'
      rcases mem_cons.mp hkv' with rfl | hkv'
      · exact hle
      · exact Text.le_trans hle (hfirst kv' hkv')
    · have hbegins : ¬ start.utf8.isPrefixOf kv.1.utf8 := by
        intro h
        exact hle (Text.le_of_isPrefix
          (Text.utf8_isPrefix_iff.mp (List.isPrefixOf_iff_prefix.mp h)))
      rw [dropWhile_cons_of_pos (by simpa using hle), ih hrest, filter_cons,
        if_neg hbegins]

/-- The range of a text holds exactly the entries whose keys begin with it. -/
theorem mem_startsWith {t : Table Text β} {start key : Text} {value : β} :
    (key, value) ∈ t.startsWith start ↔ start <+: key ∧ t.lookup key = some value := by
  rw [startsWith, dropWhile_takeWhile_eq_filter t.pairwise_ordered, mem_filter, mem_ordered,
    isPrefixOf_iff_prefix, Text.utf8_isPrefix_iff, and_comm]

theorem nodup_keys_startsWith (t : Table Text β) (start : Text) :
    ((t.startsWith start).map Prod.fst).Nodup := by
  rw [startsWith, dropWhile_takeWhile_eq_filter t.pairwise_ordered]
  exact t.nodup_keys_ordered.sublist (filter_sublist.map Prod.fst)

end ValidatingSigner.Base.Table
