import Mathlib.Data.List.Nodup

/-!
# Sorting by a text

Models are sorted by their names and files by theirs.  Where no two elements have the same key,
sorting leaves no trace of the order in which the elements came.

The key is a parameter.  Sorting is by a merge that is stable, but stability is not needed where
keys are distinct.

* `Text.pairwise_le_mergeSort`, `Text.pairwise_lt_mergeSort` — keys do not decrease, and increase if
  they are distinct.
* `Text.mergeSort_eq_of_perm` — whatever is a permutation of a list with increasing keys is sorted
  into that list.
-/

set_option autoImplicit false

namespace RemoteModels
namespace Text

variable {α : Type}

/-- Sorting puts keys in order. -/
theorem pairwise_le_mergeSort (key : α → String) (l : List α) :
    (l.mergeSort fun a b => decide (key a ≤ key b)).Pairwise fun a b => key a ≤ key b := by
  refine (List.pairwise_mergeSort ?_ ?_ l).imp of_decide_eq_true
  · intro a b c hab hbc
    exact decide_eq_true (String.le_trans (of_decide_eq_true hab) (of_decide_eq_true hbc))
  · intro a b
    simpa using String.le_total (key a) (key b)

/-- Distinct keys increase. -/
theorem pairwise_lt_mergeSort {key : α → String} {l : List α} (h : (l.map key).Nodup) :
    (l.mergeSort fun a b => decide (key a ≤ key b)).Pairwise fun a b => key a < key b := by
  have hkeys : ((l.mergeSort fun a b => decide (key a ≤ key b)).map key).Nodup :=
    ((List.mergeSort_perm l _).map key).nodup_iff.2 h
  refine (pairwise_le_mergeSort key l).imp₂ ?_ (List.pairwise_map.1 hkeys)
  intro a b hle hne
  exact String.not_le.1 fun hge => hne (String.le_antisymm hle hge)

/-- **Whatever is a permutation of a list with increasing keys is sorted into that list.** -/
theorem mergeSort_eq_of_perm {key : α → String} {l sorted : List α} (hperm : l.Perm sorted)
    (hsorted : sorted.Pairwise fun a b => key a < key b) :
    (l.mergeSort fun a b => decide (key a ≤ key b)) = sorted := by
  have hkeys : (sorted.map key).Nodup := List.pairwise_map.2 (hsorted.imp String.ne_of_lt)
  have hboth := (List.mergeSort_perm l fun a b => decide (key a ≤ key b)).trans hperm
  refine hboth.eq_of_pairwise ?_ (pairwise_le_mergeSort key l) (hsorted.imp Std.le_of_lt)
  intro a b ha hb hab hba
  exact List.inj_on_of_nodup_map hkeys (hboth.mem_iff.1 ha) hb (String.le_antisymm hab hba)

end Text
end RemoteModels
