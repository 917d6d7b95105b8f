import RemoteModels.Session.Lock

/-!
# What a lock guarantees

A lock lists those who hold it and those who wait in line.  This file says what a request and a
release do to the two lists together, and derives the two guarantees that everything about sessions
rests on: a writer holds the lock alone, and nobody waits while the lock is free.

Both lists are changed by two operations only.  A request puts the newcomer at the end of the line,
unless it can be let in at once, and a release lets in from the front of the line as many as the
holders admit.

* `Lock.parties` — everyone who has something of the lock.
* `Lock.Exclusive` — a writer has no other holder beside it.
* `Lock.Tight` — whoever is first in line cannot be let in.
-/

set_option autoImplicit false

namespace RemoteModels
namespace Lock

variable {l : Lock} {t u : TaskId} {m : Mode} {e : TaskId × Mode}

/-- Those who hold the lock and those who wait for it. -/
def parties (l : Lock) : List (TaskId × Mode) := l.held ++ l.line

/-- A writer among the holders is the only one. -/
def WriterAlone (held : List (TaskId × Mode)) : Prop :=
  ∀ t, (t, Mode.write) ∈ held → held = [(t, .write)]

/-- A writer holds the lock alone. -/
def Exclusive (l : Lock) : Prop := WriterAlone l.held

/-- Whoever is first in line cannot be let in. -/
def Tight (l : Lock) : Prop := ∀ w ∈ l.line.head?, admits l.held w.2 = false

theorem mem_parties_of_held (h : e ∈ l.held) : e ∈ l.parties := List.mem_append_left _ h

theorem holds_iff : l.holds t = true ↔ ∃ m, (t, m) ∈ l.held := by
  simp [holds]

/-! ## Letting in from the line

Readers are let in together and a writer alone.  Nobody overtakes: whoever is let in was in front of
all who are left outside. -/

/-- Letting in moves a part of the line to the holders. -/
theorem grant_eq (held line : List (TaskId × Mode)) :
    ∃ inside outside, line = inside ++ outside ∧ grant held line = ⟨held ++ inside, outside⟩ := by
  induction line generalizing held with
  | nil => exact ⟨[], [], rfl, by simp [grant]⟩
  | cons w rest ih =>
    rw [grant]
    split
    · obtain ⟨inside, outside, rfl, hg⟩ := ih (held ++ [w])
      exact ⟨w :: inside, outside, rfl, by simp [hg]⟩
    · exact ⟨[], w :: rest, rfl, by simp⟩

/-- Nobody gets lost. -/
theorem parties_grant (held line : List (TaskId × Mode)) :
    (grant held line).parties = held ++ line := by
  obtain ⟨inside, outside, rfl, hg⟩ := grant_eq held line
  simp [hg, parties]

/-- Nobody is put out. -/
theorem mem_held_grant {held line : List (TaskId × Mode)} (h : e ∈ held) :
    e ∈ (grant held line).held := by
  obtain ⟨inside, outside, rfl, hg⟩ := grant_eq held line
  rw [hg]
  exact List.mem_append_left _ h

/-- One more holder, if it is admitted, leaves a writer alone. -/
theorem WriterAlone.concat {held : List (TaskId × Mode)} (ha : admits held m = true) (t : TaskId) :
    WriterAlone (held ++ [(t, m)]) := by
  intro u hu
  cases m with
  | write =>
    have hnil : held = [] := by simpa [admits] using ha
    subst hnil
    simpa [eq_comm] using hu
  | read =>
    -- All the holders are readers, and so is the new one.
    have hread : ∀ a b, (a, b) ∈ held → b = Mode.read := by simpa [admits] using ha
    have hu' : (u, Mode.write) ∈ held := by simpa using hu
    exact absurd (hread u .write hu') (by decide)

/-- A writer is left alone by those who are let in. -/
theorem WriterAlone.grant {held : List (TaskId × Mode)} (h : WriterAlone held)
    (line : List (TaskId × Mode)) : (grant held line).Exclusive := by
  induction line generalizing held with
  | nil => exact h
  | cons w rest ih =>
    rw [Lock.grant]
    split
    · next ha => exact ih (WriterAlone.concat ha w.1)
    · exact h

/-- Letting in goes on until the first in line cannot be let in. -/
theorem tight_grant (held line : List (TaskId × Mode)) : Tight (grant held line) := by
  induction line generalizing held with
  | nil => simp [grant, Tight]
  | cons w rest ih =>
    rw [grant]
    split
    · exact ih _
    · next ha => simpa [Tight] using ha

/-! ## Requests

A request adds one party, among the holders if it is admitted and the line is empty, and at the end
of the line otherwise. -/

theorem mem_parties_request : e ∈ (l.request t m).parties ↔ e ∈ l.parties ∨ e = (t, m) := by
  rw [request]
  split <;> simp [parties, or_assoc, or_comm]

theorem mem_held_request (h : e ∈ l.held) : e ∈ (l.request t m).held := by
  rw [request]
  split
  · exact List.mem_append_left _ h
  · exact h

theorem Exclusive.request (h : l.Exclusive) (t : TaskId) (m : Mode) :
    (l.request t m).Exclusive := by
  rw [Lock.request]
  split
  · next ha =>
    rw [Bool.and_eq_true] at ha
    exact WriterAlone.concat ha.2 t
  · exact h

/-- A newcomer does not change who is first in line, unless it is the first itself. -/
theorem Tight.request (h : l.Tight) (t : TaskId) (m : Mode) : (l.request t m).Tight := by
  rw [Lock.request]
  split
  · next ha =>
    rw [Bool.and_eq_true, List.isEmpty_iff] at ha
    simp [Tight, ha.1]
  · next ha =>
    intro w hw
    cases hl : l.line with
    | nil =>
      rw [hl] at hw ha
      obtain rfl : (t, m) = w := by simpa using hw
      simpa using ha
    | cons v rest =>
      rw [hl] at hw
      exact h w (by simpa [hl] using hw)

/-! ## Releases

A release takes out one party, whether it held the lock or waited for it, and lets in from the
line. -/

theorem mem_parties_release : e ∈ (l.release t).parties ↔ e ∈ l.parties ∧ e.1 ≠ t := by
  rw [release, parties_grant, parties, ← List.filter_append, List.mem_filter]
  simp

theorem mem_held_release (h : e ∈ l.held) (hne : e.1 ≠ t) : e ∈ (l.release t).held :=
  mem_held_grant (List.mem_filter.2 ⟨h, by simpa using hne⟩)

theorem Exclusive.release (h : l.Exclusive) (t : TaskId) : (l.release t).Exclusive := by
  refine WriterAlone.grant (fun u hu => ?_) _
  obtain ⟨hu, hne⟩ := List.mem_filter.1 hu
  rw [h u hu]
  simpa using hne

theorem tight_release (l : Lock) (t : TaskId) : (l.release t).Tight := tight_grant _ _

/-! ## What follows

A line without holders would have somebody in it who can be let in. -/

/-- A writer is the only holder. -/
theorem Exclusive.eq_of_mem (h : l.Exclusive) (ht : (t, Mode.write) ∈ l.held) (he : e ∈ l.held) :
    e = (t, .write) := by
  rw [h t ht] at he
  exact List.mem_singleton.1 he

/-- **While somebody waits, somebody holds the lock.** -/
theorem Tight.exists_held (h : l.Tight) (he : e ∈ l.parties) : ∃ w, w ∈ l.held := by
  cases hheld : l.held with
  | cons w rest => exact ⟨w, List.mem_cons_self⟩
  | nil =>
    cases hline : l.line with
    | nil => simp [parties, hheld, hline] at he
    | cons w rest =>
      have ha : admits l.held w.2 = false := h w (by simp [hline])
      cases hm : w.2 <;> simp [hheld, hm, admits] at ha

end Lock
end RemoteModels
