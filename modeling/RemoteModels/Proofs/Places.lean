import Mathlib.Data.List.Nodup

/-!
# Places in a list

In a list without repetition, `[a, b]` is a sublist exactly if `a` is in front of `b`.

Both the tree of models and a rearranged specification are compared with another list by the order
of their elements, and saying it with sublists instead of positions keeps the arithmetic of
positions out: a sublist of a filtered or mapped list is found by the lemmas of the library.

* `not_sublist_swap`, `sublist_or_swap` — of two elements one is in front of the other, and only
  one.
* `eq_of_perm_of_order` — a list is known by its elements and by which is in front of which.
* `exists_first`, `exists_last` — the first and the last element of a kind.
-/

set_option autoImplicit false

namespace RemoteModels

variable {α : Type}

/-- In a list without repetition, of two elements only one is in front of the other. -/
theorem not_sublist_swap {l : List α} (h : l.Nodup) {a b : α} (hab : [a, b].Sublist l) :
    ¬ [b, a].Sublist l := by
  induction l with
  | nil => cases hab
  | cons x rest ih =>
    obtain ⟨hx, hrest⟩ := List.nodup_cons.1 h
    intro hba
    rcases List.cons_sublist_cons'.1 hab with hab' | ⟨rfl, hb⟩ <;>
      rcases List.cons_sublist_cons'.1 hba with hba' | ⟨rfl, ha⟩
    · exact ih hrest hab' hba'
    · exact hx (hab'.subset (List.mem_cons_of_mem _ List.mem_cons_self))
    · exact hx (hba'.subset (List.mem_cons_of_mem _ List.mem_cons_self))
    · exact hx (hb.subset List.mem_cons_self)

/-- Of two elements of a list one is in front of the other. -/
theorem sublist_or_swap {l : List α} {a b : α} (ha : a ∈ l) (hb : b ∈ l) (hne : a ≠ b) :
    [a, b].Sublist l ∨ [b, a].Sublist l := by
  obtain ⟨before, after, rfl⟩ := List.append_of_mem ha
  rcases List.mem_append.1 hb with hb | hb
  · have hrest : [a].Sublist (a :: after) := List.singleton_sublist.2 List.mem_cons_self
    exact .inr ((List.singleton_sublist.2 hb).append hrest)
  · have hafter : b ∈ after := (List.mem_cons.1 hb).resolve_left hne.symm
    exact .inl (((List.singleton_sublist.2 hafter).cons_cons a).trans
      (List.sublist_append_right before _))

/-- A permutation of a list without repetition that leaves every two elements in their order is the
list itself. -/
theorem eq_of_perm_of_order {l m : List α} (hm : m.Nodup) (hperm : l.Perm m)
    (horder : ∀ {a b}, [a, b].Sublist l → [a, b].Sublist m) : l = m :=
  hperm.eq_of_pairwise (fun _ _ _ _ hab hba => absurd hba (not_sublist_swap hm hab))
    (List.pairwise_iff_forall_sublist.2 horder) (List.pairwise_iff_forall_sublist.2 id)

/-- The first element of a kind. -/
theorem exists_first {P : α → Prop} {l : List α} (h : ∃ x ∈ l, P x) :
    ∃ before x after, l = before ++ x :: after ∧ P x ∧ ∀ y ∈ before, ¬ P y := by
  induction l with
  | nil => simp at h
  | cons x rest ih =>
    by_cases hx : P x
    · exact ⟨[], x, rest, rfl, hx, by simp⟩
    · obtain ⟨y, hy, hPy⟩ := h
      have hrest : y ∈ rest := (List.mem_cons.1 hy).resolve_left fun heq => hx (heq ▸ hPy)
      obtain ⟨before, z, after, rfl, hz, hbefore⟩ := ih ⟨y, hrest, hPy⟩
      exact ⟨x :: before, z, after, rfl, hz, List.forall_mem_cons.2 ⟨hx, hbefore⟩⟩

/-- The last element of a kind. -/
theorem exists_last {P : α → Prop} {l : List α} (h : ∃ x ∈ l, P x) :
    ∃ before x after, l = before ++ x :: after ∧ P x ∧ ∀ y ∈ after, ¬ P y := by
  obtain ⟨x, hx, hPx⟩ := h
  obtain ⟨before, y, after, hsplit, hy, hbefore⟩ :=
    exists_first ⟨x, List.mem_reverse.2 hx, hPx⟩
  refine ⟨after.reverse, y, before.reverse, ?_, hy, fun z hz => hbefore z (List.mem_reverse.1 hz)⟩
  rw [← List.reverse_reverse l, hsplit]
  simp

end RemoteModels
