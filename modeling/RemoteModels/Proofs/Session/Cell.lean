import RemoteModels.Proofs.Session.Exclusion

/-!
# What a call knows about the cell

A call looks at the cell, or fills it, while it has the lock, and acts on what it saw some steps
later.  That is sound because a writer excludes all others: as long as it has the lock, the cell
holds what it last saw or put there.

The invariant says nothing about readers.  A reader looks and gives the lock back in one step, so
there is no time at which it would have to remember something.

* `Phase.knows?` — what a call that has the lock as the writer takes to be in the cell.
* `Session.Informed`, `Session.Run.informed` — it is there.
* `Session.Informed.current_of_returned` — a call other than a reload returns what is in the cell at
  that moment.
* `Session.Move.cell_of_requests`, `Session.Informed.cell_of_installed` — a load sends a request,
  and fills the cell, only when it is empty.
-/

set_option autoImplicit false

namespace RemoteModels

/-- What a call that has the lock as the writer has last seen in the cell or put there. -/
def Phase.knows? : Phase → Option (Option Build)
  | .loadFetch _ => some none
  | .loadInstalled b | .counted .load b _ | .told .load b => some (some b)
  | .reloadInstalled b => some (some b)
  | _ => none

/-- Whoever knows the cell is the writer. -/
theorem Phase.owns_of_knows? {p : Phase} {content : Option Build} (h : p.knows? = some content) :
    p.owns := by
  revert h
  fun_cases Phase.knows? p <;> simp [Phase.owns]

namespace Session

variable {server : Nat → TextAnswer} {s s' next : Session} {t u : TaskId} {p p' : Phase}
  {effects : Effects} {e : Event} {es : List Event} {loader : Loader} {content : Option Build}

/-- A call comes to know the cell by looking at it or by filling it, or has known it before. -/
theorem Step.knows (h : Step server s t p p' next effects) (hk : p'.knows? = some content) :
    next.cell = content ∨ p.knows? = some content ∧ next.cell = s.cell := by
  cases h with
  | loadSend hl hc =>
    cases hk
    exact .inl hc
  | loadInstall | reloadInstall =>
    cases hk
    exact .inl rfl
  | loadCount => exact .inr ⟨hk, rfl⟩
  | tell builder => cases builder <;> exact .inr ⟨hk, rfl⟩
  | _ => cases hk

/-- Whoever fills the cell has the lock. -/
theorem Move.holds_of_installed (m : Move server s e s') (ho : s.Orderly) {x : Builder × Build}
    (hx : e.installed? = some x) : s.lock.holds e.task := by
  cases e with
  | began | dropped => cases hx
  | advanced t p p' effects =>
    obtain ⟨hp, next, hstep, rfl⟩ := m.step
    cases hstep with
    | loadInstall => exact ho.holds_of_owns hp rfl
    | reloadInstall hl => exact hl
    | _ => cases hx

/-- A move that installs nothing leaves the cell alone. -/
theorem Move.cell_of_not_installed (m : Move server s e s') (h : e.installed? = none) :
    s'.cell = s.cell := by
  rw [m.cell_eq, h]
  rfl

/-! ## The invariant

A move has two effects on what is known: the call that moves may come to know something, and the
cell may change under those that know it already.  The second does not happen, since whoever writes
the cell excludes them. -/

/-- What calls know about the cell is so. -/
def Informed (s : Session) : Prop :=
  ∀ t p content, s.phase? t = some p → p.knows? = some content → s.cell = content

/-- **Every move keeps the invariant**: a call that knows the cell has the lock, so nobody else can
fill it. -/
theorem Informed.move (h : s.Informed) (ho : s.Orderly) (m : Move server s e s') : s'.Informed := by
  intro t p content hp hk
  rw [m.phase?_eq ho.numbered] at hp
  split at hp
  · cases e with
    | began t call =>
      cases hp
      cases hk
    | dropped => cases hp
    | advanced t p p' effects =>
      cases hp
      obtain ⟨hp, next, hstep, rfl⟩ := m.step
      rcases hstep.knows hk with hc | ⟨hk', hc⟩
      · exact hc
      · exact hc.trans (h t p content hp hk')
  · next hne =>
    have hsame : e.installed? = none := by
      cases hx : e.installed? with
      | none => rfl
      | some x =>
        have hl := m.holds_of_installed ho hx
        exact absurd (ho.owner_eq hp (Phase.owns_of_knows? hk) hl).symm hne
    rw [m.cell_of_not_installed hsame]
    exact h t p content hp hk

theorem Run.informed (h : Run server (new loader) es s) : s.Informed := by
  induction h with
  | nil => exact fun _ _ _ hp => by cases hp
  | snoc h m ih => exact ih.move h.orderly m

/-! ## What follows

The results are about single moves, and hold in every session that a run leads to. -/

/-- **A call other than a reload returns what is in the cell at that moment**, nothing where that is
nothing. -/
theorem Informed.current_of_returned (h : s.Informed) (m : Move server s e s') {call : Call}
    {o : Outcome} (hr : e.returned? = some (call, o)) (hcall : call ≠ .reload)
    (ho : ∀ e, o ≠ .failed e) : s.current = o := by
  cases e with
  | began | dropped => cases hr
  | advanced t p p' effects =>
    obtain ⟨hp, next, hstep, rfl⟩ := m.step
    cases hstep with
    | peekHit hl hc | claimHit hl hc | readyHit hl hc =>
      cases hr
      rw [current, hc]
    | factoryLook =>
      cases hr
      rfl
    | loadReturn b =>
      -- The load has had the lock since it filled the cell.
      cases hr
      rw [current, h t _ _ hp rfl]
    | loadFail | reloadFail =>
      cases hr
      exact absurd rfl (ho _)
    | reloadReturn =>
      cases hr
      exact absurd rfl hcall
    | _ => cases hr

/-- What is current is in the cell. -/
theorem cell_of_current {b : Build} (h : s.current = .loaded b) : s.cell = some b := by
  rw [current] at h
  cases hc : s.cell with
  | none =>
    rw [hc] at h
    cases h
  | some c =>
    rw [hc] at h
    cases h
    rfl

/-- **A load sends a request only when the cell is empty.** -/
theorem Move.cell_of_requests (m : Move server s e s') (hcall : e.call? = some .load)
    (hr : e.requests ≠ []) : s.cell = none := by
  cases e with
  | began | dropped => exact absurd rfl hr
  | advanced t p p' effects =>
    obtain ⟨hp, next, hstep, rfl⟩ := m.step
    cases hstep with
    | loadSend hl hc => exact hc
    | reloadSend => cases hcall
    | _ => exact absurd rfl hr

/-- **A load fills the cell only when it is empty.** -/
theorem Informed.cell_of_installed (h : s.Informed) (m : Move server s e s') {b : Build}
    (hb : e.installed? = some (.load, b)) : s.cell = none := by
  cases e with
  | began | dropped => cases hb
  | advanced t p p' effects =>
    obtain ⟨hp, next, hstep, rfl⟩ := m.step
    cases hstep with
    | loadInstall => exact h t _ _ hp rfl
    | _ => cases hb

end Session
end RemoteModels
