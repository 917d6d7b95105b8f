import Mathlib.Data.List.Forall2

/-!
# The first fault

The members of a document, the names of models and the files of a directory are gone through in
order, up to the first one in which something is wrong.  What has happened in the end can be said
without going through them: either every element has its result, or the fault is that of an element
behind elements without one.

Nothing here is about documents or directories.  The two ways a computation can end are spelled out
for one computation, for two in a row, and for a list of them, and the modules that read, check and
build take what they need from here.

* `FirstFault` — the fault of the first element that has one.
* `mapM_eq_error_iff` — going through a list fails with the first fault.
* `mapM_eq_ok_iff`, `exists_mapM_eq_ok_iff` — it succeeds if every element has its result, and gives
  these in order.
-/

set_option autoImplicit false

namespace RemoteModels

variable {α β ε : Type}

/-! ## One result

A computation that may fail is inspected in three ways: by asking for its result, by asking what its
first step gave, and by looking through a function applied to its result. -/

/-- A result that can be computed can be stated: this turns a closed evaluation, which `decide` does
on `Option`, into an equation on `Except`, where equality is not decidable. -/
theorem eq_ok_of_toOption {x : Except ε α} {a : α} (h : x.toOption = some a) : x = .ok a := by
  cases x with
  | error e => cases h
  | ok b => exact congrArg Except.ok (Option.some.inj h)

/-- A computation in two steps that ends well did so in both. -/
theorem of_bind_eq_ok {first : Except ε α} {next : α → Except ε β} {b : β}
    (h : (first >>= next) = .ok b) : ∃ a, first = .ok a ∧ next a = .ok b := by
  cases first with
  | error e => cases h
  | ok a => exact ⟨a, rfl, h⟩

/-- A function applied to a result needs the result, and cannot fail itself. -/
theorem map_eq_ok_iff {x : Except ε α} {f : α → β} {b : β} :
    x.map f = .ok b ↔ ∃ a, x = .ok a ∧ f a = b := by
  cases x <;> simp [Except.map]

/-- A fault passes through a function that is applied to results. -/
theorem map_eq_error_iff {x : Except ε α} {f : α → β} {e : ε} :
    x.map f = .error e ↔ x = .error e := by
  cases x <;> simp [Except.map]

/-! ## A list of them

The loop stops at the first fault.  `FirstFault` says what that means without a loop: some element
has the fault, and none of those in front of it has any.  What the elements behind it would have
given is left open, as it is never computed. -/

/-- The fault of the first element that has one; nothing is said about those behind it. -/
def FirstFault (fault : α → ε → Prop) (l : List α) (e : ε) : Prop :=
  ∃ before x after, l = before ++ x :: after ∧ (∀ y ∈ before, ∀ e', ¬ fault y e') ∧ fault x e

theorem not_firstFault_nil {fault : α → ε → Prop} {e : ε} : ¬ FirstFault fault [] e := by
  rintro ⟨before, x, after, h, -⟩
  cases before <;> cases h

/-- The first element is at fault, or it has no fault and the first one is further on. -/
theorem firstFault_cons {fault : α → ε → Prop} {x : α} {rest : List α} {e : ε} :
    FirstFault fault (x :: rest) e
      ↔ fault x e ∨ (∀ e', ¬ fault x e') ∧ FirstFault fault rest e := by
  constructor
  · rintro ⟨before, y, after, h, hbefore, hy⟩
    cases before with
    | nil =>
      cases h
      exact .inl hy
    | cons first before =>
      cases h
      rw [List.forall_mem_cons] at hbefore
      exact .inr ⟨hbefore.1, before, y, after, rfl, hbefore.2, hy⟩
  · rintro (hx | ⟨hx, before, y, after, rfl, hbefore, hy⟩)
    · exact ⟨[], x, rest, rfl, by simp, hx⟩
    · exact ⟨x :: before, y, after, rfl, List.forall_mem_cons.2 ⟨hx, hbefore⟩, hy⟩

/-- **Going through a list fails with the first fault.** -/
theorem mapM_eq_error_iff {f : α → Except ε β} {fault : α → ε → Prop}
    (hf : ∀ x e, f x = .error e ↔ fault x e) {l : List α} {e : ε} :
    l.mapM f = .error e ↔ FirstFault fault l e := by
  induction l with
  | nil => exact iff_of_false (fun h => by cases h) not_firstFault_nil
  | cons x rest ih =>
    rw [List.mapM_cons, firstFault_cons, ← ih, ← hf]
    cases hx : f x with
    | error e' =>
      have hfault : fault x e' := (hf x e').1 hx
      show Except.error e' = .error e ↔ _
      rw [Except.error.injEq, Except.error.injEq]
      exact ⟨.inl, fun h => h.elim id fun h => absurd hfault (h.1 e')⟩
    | ok b =>
      have hnone : ∀ e', ¬ fault x e' := fun e' h => by
        rw [← hf, hx] at h
        cases h
      cases hrest : rest.mapM f with
      | error e' =>
        show Except.error e' = .error e ↔ _
        exact ⟨fun h => .inr ⟨hnone, h⟩, fun h => h.elim (fun h => by cases h) And.right⟩
      | ok bs =>
        refine iff_of_false (fun h => by cases h) ?_
        rintro (h | ⟨-, h⟩) <;> cases h

/-- A loop that succeeds gives the result of each element, in the order of the elements. -/
theorem mapM_eq_ok_iff {f : α → Except ε β} {l : List α} {bs : List β} :
    l.mapM f = .ok bs ↔ List.Forall₂ (fun x b => f x = .ok b) l bs := by
  induction l generalizing bs with
  | nil =>
    constructor
    · intro h
      cases h
      exact .nil
    · rintro ⟨⟩
      rfl
  | cons x rest ih =>
    rw [List.mapM_cons]
    constructor
    · intro h
      obtain ⟨b, hb, h⟩ := of_bind_eq_ok h
      obtain ⟨more, hmore, h⟩ := of_bind_eq_ok h
      cases h
      exact .cons hb (ih.1 hmore)
    · rintro (_ | ⟨hb, hmore⟩)
      rw [hb, ih.2 hmore]
      rfl

/-- **It succeeds exactly if every element has its result.** -/
theorem exists_mapM_eq_ok_iff {f : α → Except ε β} {l : List α} :
    (∃ bs, l.mapM f = .ok bs) ↔ ∀ x ∈ l, ∃ b, f x = .ok b := by
  induction l with
  | nil => exact iff_of_true ⟨[], rfl⟩ (by simp)
  | cons x rest ih =>
    rw [List.forall_mem_cons, ← ih]
    constructor
    · rintro ⟨bs, h⟩
      rw [List.mapM_cons] at h
      obtain ⟨b, hb, h⟩ := of_bind_eq_ok h
      obtain ⟨more, hmore, -⟩ := of_bind_eq_ok h
      exact ⟨⟨b, hb⟩, more, hmore⟩
    · rintro ⟨⟨b, hb⟩, more, hmore⟩
      exact ⟨b :: more, mapM_eq_ok_iff.2 (.cons hb (mapM_eq_ok_iff.1 hmore))⟩

end RemoteModels
