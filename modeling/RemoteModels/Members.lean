/-!
# Named members in document order

Objects, specifications and field lists are sequences of named values in which each name stands
once.  Writing a name that is already there keeps its place and replaces its value; a new name goes
to the end.

* `Members` — the sequences, `Members.names` their names in order.
* `Members.get?`, `Members.put` — look-up and writing.
* `Members.merge` — writing all members of a second sequence, in its order.
-/

set_option autoImplicit false

namespace RemoteModels

/-- Named values in document order. -/
abbrev Members (α : Type) := List (String × α)

namespace Members

variable {α : Type}

/-- The names in order. -/
def names (m : Members α) : List String := m.map Prod.fst

/-- The value of the first member with this name. -/
def get? : Members α → String → Option α
  | [], _ => none
  | (k, v) :: rest, name => if k = name then some v else get? rest name

/-- Replaces the value of the member with this name in place, or adds the member at the end. -/
def put : Members α → String → α → Members α
  | [], name, value => [(name, value)]
  | (k, v) :: rest, name, value =>
    if k = name then (k, value) :: rest else (k, v) :: put rest name value

/-- Writes every member of `later` into `m`, one after the other. -/
def merge (m later : Members α) : Members α :=
  later.foldl (fun acc kv => acc.put kv.1 kv.2) m

/-- The members of a sequence in which a name may be repeated: the last value counts, at the place
of the first. -/
def ofList (l : List (String × α)) : Members α := merge [] l

/-! ## What writing does to the names and to look-up

Writing a member changes what is found under its name and under no other, and adds its name if it is
new.  So names stay distinct, whatever is written. -/

/-- What was written last is found. -/
theorem get?_put (m : Members α) (k n : String) (v : α) :
    (m.put k v).get? n = if k = n then some v else m.get? n := by
  induction m with
  | nil => simp [put, get?]
  | cons h t ih =>
    obtain ⟨k', v'⟩ := h
    by_cases hk : k' = k
    · subst hk
      by_cases hn : k' = n <;> simp [put, get?, hn]
    · by_cases hn : k = n
      · subst hn
        simp [put, get?, hk, ih]
      · simp only [put, hk, if_false, get?, ih, hn]

/-- A new name goes to the end. -/
theorem names_put (m : Members α) (k : String) (v : α) :
    (m.put k v).names = if k ∈ m.names then m.names else m.names ++ [k] := by
  induction m with
  | nil => simp [put, names]
  | cons h t ih =>
    obtain ⟨k', v'⟩ := h
    by_cases hk : k' = k
    · subst hk
      simp [put, names]
    · have hk' : ¬ k = k' := fun e => hk e.symm
      simp only [names, List.map_cons, List.mem_cons, put, hk, if_false, hk', false_or] at ih ⊢
      rw [ih]
      by_cases hm : k ∈ List.map Prod.fst t <;> simp [hm]

theorem nodup_names_put {m : Members α} (h : m.names.Nodup) (k : String) (v : α) :
    (m.put k v).names.Nodup := by
  rw [names_put]
  split
  · exact h
  · rename_i hk
    rw [List.nodup_append]
    refine ⟨h, by simp, ?_⟩
    intro a ha b hb
    simp only [List.mem_singleton] at hb
    subst hb
    exact fun e => hk (e ▸ ha)

theorem nodup_names_merge {m : Members α} (h : m.names.Nodup) (later : Members α) :
    (m.merge later).names.Nodup := by
  unfold merge
  induction later generalizing m with
  | nil => exact h
  | cons kv t ih => exact ih (nodup_names_put h kv.1 kv.2)

theorem nodup_names_ofList (l : List (String × α)) : (ofList l).names.Nodup :=
  nodup_names_merge (by simp [names]) l

end Members
end RemoteModels
