import RemoteModels.Proofs.Instance.Fields

/-!
# What merging leaves where

Writing members over others keeps the places of those that are there and puts the new ones behind
them.  So the place of a member comes from where its name was first, and its value from where its
name was last.

Members are merged one at a time by the program, each of them in a pass over what is there.  The
closed form below has no passes: two lists, one of them mapped and the other filtered.

* `Members.replaced` — a member with its value from a later sequence.
* `Members.merge_eq` — the earlier members in their places, with the later values, and behind them
  the later members that are new.
* `Members.get?_ofList`, `Members.names_ofList` — what is left of a sequence with repetitions.
-/

set_option autoImplicit false

namespace RemoteModels
namespace Members

variable {α : Type}

/-- The member with the value that `later` has for it, if it has one. -/
def replaced (later : Members α) (e : String × α) : String × α :=
  (e.1, (later.get? e.1).getD e.2)

theorem get?_of_not_mem {m : Members α} {name : String} (h : name ∉ m.names) :
    m.get? name = none := by
  rwa [← Option.not_isSome_iff_eq_none, isSome_get?_iff]

theorem get?_of_mem {m : Members α} (hm : m.names.Nodup) {e : String × α} (h : e ∈ m) :
    m.get? e.1 = some e.2 := by
  induction m with
  | nil => cases h
  | cons first rest ih =>
    obtain ⟨hfirst, hrest⟩ := List.nodup_cons.1 hm
    rw [get?]
    rcases List.mem_cons.1 h with rfl | h
    · simp
    · have hne : first.1 ≠ e.1 := fun heq => hfirst (heq ▸ List.mem_map_of_mem h)
      rw [if_neg hne, ih hrest h]

/-- What stands in front is found first. -/
theorem get?_append (m later : Members α) (name : String) :
    Members.get? (m ++ later) name = (m.get? name).or (later.get? name) := by
  induction m with
  | nil => rfl
  | cons e m ih =>
    rw [List.cons_append, get?, get?, ih]
    split <;> rfl

theorem replaced_of_not_mem {later : Members α} {e : String × α} (h : e.1 ∉ later.names) :
    later.replaced e = e := by
  rw [replaced, get?_of_not_mem h]
  rfl

theorem map_replaced_of_disjoint {m later : Members α} (h : ∀ e ∈ m, e.1 ∉ later.names) :
    m.map later.replaced = m :=
  (List.map_congr_left fun e he => replaced_of_not_mem (h e he)).trans (List.map_id m)

theorem mem_names_cons {e : String × α} {rest : Members α} {name : String} :
    name ∈ names (e :: rest) ↔ name = e.1 ∨ name ∈ rest.names :=
  List.mem_cons

/-- One member is written over its name, or put at the end. -/
theorem put_eq {m : Members α} (h : m.names.Nodup) (e : String × α) :
    m.put e.1 e.2 = m.map (replaced [e]) ++ if e.1 ∈ m.names then [] else [e] := by
  induction m with
  | nil => rfl
  | cons first rest ih =>
    obtain ⟨k, v⟩ := first
    obtain ⟨hfirst, hrest⟩ := List.nodup_cons.1 h
    rw [put]
    by_cases hk : k = e.1
    · -- Behind the member that is replaced there is no other of its name.
      have hsame : rest.map (replaced [e]) = rest := by
        refine map_replaced_of_disjoint fun x hx hname => hfirst (List.mem_map.2 ⟨x, hx, ?_⟩)
        exact (List.mem_singleton.1 hname).trans hk.symm
      simp [hk, hsame, replaced, get?, mem_names_cons]
    · have hk' : ¬ e.1 = k := fun heq => hk heq.symm
      simp [hk, hk', ih hrest, replaced, get?, mem_names_cons]

/-- **Merging leaves the earlier members in their places, with the later values, and puts the later
members that are new behind them.** -/
theorem merge_eq {m later : Members α} (hm : m.names.Nodup) (hl : later.names.Nodup) :
    m.merge later = m.map later.replaced ++ later.filter (·.1 ∉ m.names) := by
  induction later generalizing m with
  | nil =>
    rw [map_replaced_of_disjoint fun _ _ => List.not_mem_nil]
    exact (List.append_nil m).symm
  | cons e rest ih =>
    obtain ⟨hfirst, hrest⟩ := List.nodup_cons.1 hl
    have hvalue : replaced rest ∘ replaced [e] = replaced (e :: rest) := by
      funext x
      by_cases hx : e.1 = x.1
      · simp [replaced, get?, hx, get?_of_not_mem (hx ▸ hfirst)]
      · simp [replaced, get?, hx]
    have hnew : rest.filter (·.1 ∉ (m.put e.1 e.2).names) = rest.filter (·.1 ∉ m.names) := by
      refine List.filter_congr fun x hx => ?_
      have hxe : x.1 ≠ e.1 := fun heq => hfirst (heq ▸ List.mem_map_of_mem hx)
      rw [names_put]
      split <;> simp [hxe]
    show (m.put e.1 e.2).merge rest = _
    rw [ih (nodup_names_put hm _ _) hrest, hnew, put_eq hm, List.map_append, List.map_map, hvalue,
      List.append_assoc]
    by_cases he : e.1 ∈ m.names
    · simp [he]
    · simp [he, replaced_of_not_mem hfirst]

/-! ## Repetitions

A list that is given member by member may repeat a name.  Each name then stands where it was first,
with the value that it had last. -/

/-- The last value counts. -/
theorem get?_merge_last (m : Members α) (later : List (String × α)) (name : String) :
    (m.merge later).get? name = (Members.get? later.reverse name).or (m.get? name) := by
  induction later generalizing m with
  | nil => rfl
  | cons e rest ih =>
    show ((m.put e.1 e.2).merge rest).get? name = _
    rw [ih, get?_put, List.reverse_cons, get?_append, Option.or_assoc, get?]
    split <;> rfl

/-- The last value of a name is found. -/
theorem get?_ofList (l : List (String × α)) (name : String) :
    (ofList l).get? name = Members.get? l.reverse name :=
  (get?_merge_last [] l name).trans (Option.or_none)

/-- New names go behind the others, each where it was first. -/
theorem names_merge_first (m : Members α) (later : List (String × α)) :
    (m.merge later).names
      = m.names ++ ((later.map Prod.fst).filter (· ∉ m.names)).eraseDups := by
  induction later generalizing m with
  | nil => simp [merge]
  | cons e rest ih =>
    show ((m.put e.1 e.2).merge rest).names = _
    rw [ih, names_put]
    by_cases he : e.1 ∈ m.names
    · simp [he]
    · simp [he, List.eraseDups_cons, List.filter_filter, Bool.and_comm, BEq.beq]

/-- Every name stands once, at the place where it first was. -/
theorem names_ofList (l : List (String × α)) :
    (ofList l).names = (l.map Prod.fst).eraseDups := by
  have hall : (l.map Prod.fst).filter (· ∉ names ([] : Members α)) = l.map Prod.fst :=
    List.filter_eq_self.2 fun _ _ => decide_eq_true List.not_mem_nil
  rw [ofList, names_merge_first, hall]
  rfl

end Members
end RemoteModels
