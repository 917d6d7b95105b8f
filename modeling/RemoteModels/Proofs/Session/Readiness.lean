import RemoteModels.Proofs.Session.Exclusion

/-!
# Readiness

The cell and the barrier are two things, and no step changes both.  A call that has built a registry
fills the cell first; then it counts the barrier down, and if that was the last count it opens the
barrier, while others may be doing the same.  So the barrier can lag behind the cell, but never run
ahead of it, and it lags only as long as some call still owes it a step.

* `Phase.duty?` — the step a call owes the barrier.
* `Session.Announced` — the invariant between the cell, the barrier and the duties.
* `Session.readiness` — what it means for those who wait: an open barrier says that there is a
  registry, and a call that waits for the first one waits once.
-/

set_option autoImplicit false

namespace RemoteModels

/-! ## Duties

A call has a duty from the step in which it fills the cell, first to count and then, if its count
was the last one, to open the barrier.  While it has one it cannot be given up, which is why no duty
is ever lost. -/

/-- What a call that has filled the cell owes the barrier. -/
inductive Duty where
  | count
  | publish
deriving DecidableEq

/-- The step a call still owes the barrier: from filling the cell until it has completed it. -/
def Phase.duty? : Phase → Option Duty
  | .loadInstalled _ | .reloadInstalled _ | .reloadReleased _ => some .count
  | .counted _ _ true => some .publish
  | _ => none

/-- Whether a call can have come this far only with a registry in the cell. -/
def Phase.sure : Phase → Bool
  | .loadInstalled _ | .reloadInstalled _ | .reloadReleased _ | .counted _ _ _ | .told _ _ => true
  | .readyPeek => true
  | _ => false

/-- A call that has waited for the barrier and now wants the registry. -/
def Phase.hasWaited : Phase → Bool
  | .readyPeek => true
  | _ => false

/-- Whoever counts last is the one to open the barrier. -/
theorem Phase.duty?_counted (builder : Builder) (b : Build) (barrier : Barrier) :
    (Phase.counted builder b barrier.decrement.2).duty?
      = if barrier.pending = 1 then some .publish else none := by
  by_cases hone : barrier.pending = 1 <;> simp [Phase.duty?, Barrier.decrement, hone]

theorem Phase.sure_of_duty? {p : Phase} {d : Duty} (h : p.duty? = some d) : p.sure := by
  revert h
  fun_cases Phase.duty? p <;> simp [Phase.sure]

/-- A call with a duty cannot be given up. -/
theorem Phase.duty?_of_interruptible {p : Phase} (h : p.interruptible) : p.duty? = none := by
  cases p with
  | loadInstalled | reloadInstalled | reloadReleased | counted => cases h
  | _ => rfl

namespace Session

variable {server : Nat → TextAnswer} {s s' next : Session} {t u : TaskId} {p p' : Phase}
  {effects : Effects} {e : Event} {es : List Event} {loader : Loader}

def duty? (s : Session) (t : TaskId) : Option Duty := (s.phase? t).bind Phase.duty?

theorem phase?_of_duty? {d : Duty} (h : s.duty? t = some d) :
    ∃ p, s.phase? t = some p ∧ p.duty? = some d := Option.bind_eq_some_iff.1 h

/-- What a move does to the cell and the barrier, and to the duty of its call. -/
inductive Announces (s : Session) : Option Duty → Option Duty → Option Build → Barrier → Prop
  | nothing (d : Option Duty) : Announces s d d s.cell s.barrier
  | install (b : Build) : Announces s none (some .count) (some b) s.barrier
  | count : Announces s (some .count) (if s.barrier.pending = 1 then some .publish else none) s.cell
      s.barrier.decrement.1
  | publish : Announces s (some .publish) none s.cell s.barrier.publish

/-- Each step does one of four things to the cell, the barrier and the duty of its call. -/
theorem Step.announces (h : Step server s t p p' next effects) :
    Announces s p.duty? p'.duty? next.cell next.barrier := by
  cases h with
  | loadInstall | reloadInstall => exact .install _
  | loadCount b =>
    rw [Phase.duty?_counted]
    exact .count
  | reloadCount b =>
    rw [Phase.duty?_counted]
    exact .count
  | tell builder b last =>
    cases last with
    | true => exact .publish
    | false => exact .nothing none
  | _ => exact .nothing _

/-- The same for moves; beginning and giving up change nothing here. -/
theorem Move.announces (m : Move server s e s') :
    Announces s (e.before?.bind Phase.duty?) (e.after?.bind Phase.duty?) s'.cell s'.barrier := by
  cases e with
  | began t call =>
    cases m
    exact .nothing none
  | dropped t p =>
    cases m with
    | drop hp hi =>
      rw [Event.before?, Option.bind_some, Phase.duty?_of_interruptible hi]
      exact .nothing none
  | advanced t p p' effects =>
    obtain ⟨-, next, hstep, rfl⟩ := m.step
    exact hstep.announces

/-- A move changes the duty of one call and of no other. -/
theorem Move.duty?_eq (m : Move server s e s') (hs : s.Numbered) (u : TaskId) :
    s'.duty? u = if u = e.task then e.after?.bind Phase.duty? else s.duty? u := by
  rw [duty?, m.phase?_eq hs]
  split <;> rfl

/-! ## The invariant

A barrier that is closed for a filled cell is accounted for by somebody's duty.  Which duty it is
depends on how far the barrier has been counted down. -/

/-- The cell, the barrier and the duties agree. -/
structure Announced (s : Session) : Prop where
  sure : ∀ t p, s.phase? t = some p → p.sure → s.cell.isSome
  pending_le : s.barrier.pending ≤ 1
  /-- The barrier is open only when it has been counted down, and then there is a registry. -/
  shut : s.barrier.pending = 1 → s.barrier.ready = false
  filled : s.barrier.pending = 0 → s.cell.isSome
  /-- As long as there is a count left although the cell is filled, somebody is to count. -/
  counting : s.barrier.pending = 1 → s.cell.isSome → ∃ t, s.duty? t = some .count
  /-- As long as the barrier is shut although it has been counted down, somebody is to open it. -/
  publishing : s.barrier.pending = 0 → s.barrier.ready ∨ ∃ t, s.duty? t = some .publish
  /-- Whoever is to open the barrier has counted it down. -/
  counted : ∀ t, s.duty? t = some .publish → s.barrier.pending = 0

theorem announced_new (loader : Loader) : (new loader).Announced where
  sure := fun _ _ h => by cases h
  pending_le := Nat.le_refl 1
  shut := fun _ => rfl
  filled := fun h => by cases h
  counting := fun _ h => by cases h
  publishing := fun h => by cases h
  counted := fun _ h => by cases h

/-- An open barrier says that there is a registry. -/
theorem Announced.isSome_of_isReady (h : s.Announced) (hr : s.isReady) : s.cell.isSome := by
  refine h.filled (Nat.eq_zero_of_not_pos fun hpos => ?_)
  have hone : s.barrier.pending = 1 := Nat.le_antisymm h.pending_le hpos
  rw [isReady, h.shut hone] at hr
  cases hr

/-- Whoever has a duty has filled the cell. -/
theorem Announced.isSome_of_duty? (h : s.Announced) {d : Duty} (hd : s.duty? t = some d) :
    s.cell.isSome := by
  obtain ⟨p, hp, hpd⟩ := phase?_of_duty? hd
  exact h.sure t p hp (Phase.sure_of_duty? hpd)

/-! ## What a move does to the invariant

What is said of the calls that are sure of the registry comes first, and needs their phases alone.
The rest is about duties and the barrier. -/

/-- A call becomes sure of the registry by being so before, by filling the cell, or by finding the
barrier open. -/
theorem Step.sure (h : Step server s t p p' next effects) (hp' : p'.sure) :
    p.sure ∨ next.cell.isSome ∨ s.isReady := by
  cases h with
  | loadInstall | reloadInstall => exact .inr (.inl rfl)
  | loadCount | reloadCount | reloadRelease | tell => exact .inl rfl
  | readyAsk hr => exact .inr (.inr hr)
  | _ => cases hp'

/-- A call that is sure of the registry stays right about it. -/
theorem Announced.sure_move (h : s.Announced) (hn : s.Numbered) (m : Move server s e s')
    (hp : s'.phase? t = some p) (hs : p.sure) : s'.cell.isSome := by
  rw [m.phase?_eq hn] at hp
  split at hp
  · cases e with
    | began t call =>
      cases hp
      cases hs
    | dropped => cases hp
    | advanced t p p' effects =>
      cases hp
      obtain ⟨hp, next, hstep, rfl⟩ := m.step
      rcases hstep.sure hs with hs | hc | hr
      · exact m.cell_isSome (h.sure _ _ hp hs)
      · exact hc
      · exact m.cell_isSome (h.isSome_of_isReady hr)
  · exact m.cell_isSome (h.sure _ _ hp hs)

/-- **Every move keeps the invariant.** -/
theorem Announced.move (h : s.Announced) (hn : s.Numbered) (m : Move server s e s') :
    s'.Announced := by
  have hsure := fun t p => h.sure_move (t := t) (p := p) hn m
  have hold : s.duty? e.task = e.before?.bind Phase.duty? := by rw [duty?, m.phase?_task hn]
  have hduty := m.duty?_eq hn
  -- Whoever has another duty than the call that moves keeps it.
  have hother : ∀ {u d}, s.duty? u = some d → e.before?.bind Phase.duty? ≠ some d →
      s'.duty? u = some d := by
    intro u d hu hne
    have hut : u ≠ e.task := by
      rintro rfl
      exact hne (hold.symm.trans hu)
    rw [hduty, if_neg hut, hu]
  have ha := m.announces
  generalize e.before?.bind Phase.duty? = old at ha hold hother
  generalize e.after?.bind Phase.duty? = new at ha hduty
  generalize hcell : s'.cell = cell at ha hsure
  generalize hbarrier : s'.barrier = barrier at ha
  cases ha with
  | nothing =>
    have hsame : ∀ u, s'.duty? u = s.duty? u := by
      intro u
      rw [hduty]
      split
      · next hu => rw [hu, hold]
      · rfl
    constructor <;> simp only [hsame, hcell, hbarrier]
    · exact hsure
    · exact h.pending_le
    · exact h.shut
    · exact h.filled
    · exact h.counting
    · exact h.publishing
    · exact h.counted
  | install b =>
    constructor <;> simp only [hcell, hbarrier]
    · exact hsure
    · exact h.pending_le
    · exact h.shut
    · exact fun _ => rfl
    · exact fun _ _ => ⟨e.task, by rw [hduty, if_pos rfl]⟩
    · intro hz
      exact (h.publishing hz).imp_right fun ⟨u, hu⟩ => ⟨u, hother hu (by simp)⟩
    · intro u hu
      rw [hduty] at hu
      split at hu
      · cases hu
      · exact h.counted u hu
  | count =>
    have hle := h.pending_le
    have hzero : s.barrier.pending - 1 = 0 := by omega
    constructor <;> simp only [hcell, hbarrier, Barrier.decrement]
    · exact hsure
    · omega
    · omega
    · exact fun _ => h.isSome_of_duty? hold
    · omega
    · intro _
      by_cases hone : s.barrier.pending = 1
      · exact .inr ⟨e.task, by rw [hduty, if_pos rfl, if_pos hone]⟩
      · exact (h.publishing (by omega)).imp_right fun ⟨u, hu⟩ => ⟨u, hother hu (by simp)⟩
    · exact fun _ _ => hzero
  | publish =>
    have hzero : s.barrier.pending = 0 := h.counted _ hold
    constructor <;> simp only [hcell, hbarrier, Barrier.publish]
    · exact hsure
    · omega
    · omega
    · exact fun _ => h.filled hzero
    · omega
    · exact fun _ => .inl trivial
    · exact fun _ _ => hzero

theorem Run.announced (h : Run server (new loader) es s) : s.Announced := by
  induction h with
  | nil => exact announced_new loader
  | snoc h m ih => exact ih.move h.numbered m

/-! ## What it means for those who wait

An open barrier never closes, and the cell is never emptied.  So a call that has seen the barrier
open finds a registry however long it stands in line for the lock. -/

/-- An open barrier stays open. -/
theorem Announces.ready {d d' : Option Duty} {cell : Option Build} {barrier : Barrier}
    (h : Announces s d d' cell barrier) (hr : s.barrier.ready) : barrier.ready := by
  cases h with
  | nothing | install | count => exact hr
  | publish => rfl

/-- Once nobody owes the barrier a step, it tells whether there is a registry. -/
theorem Announced.isReady_iff (h : s.Announced) (hd : ∀ t, s.duty? t = none) :
    s.isReady ↔ s.cell.isSome := by
  refine ⟨h.isSome_of_isReady, fun hc => ?_⟩
  have hle := h.pending_le
  by_cases hone : s.barrier.pending = 1
  · obtain ⟨t, ht⟩ := h.counting hone hc
    rw [hd] at ht
    cases ht
  · rcases h.publishing (by omega) with hr | ⟨t, ht⟩
    · exact hr
    · rw [hd] at ht
      cases ht

/-- A call that has waited for the barrier finds a registry, so it does not wait again. -/
theorem Run.not_mem_second_wait (h : Run server (new loader) es s) (t : TaskId)
    (effects : Effects) : .advanced t .readyPeek .readyWait effects ∉ es := by
  induction h with
  | nil => exact List.not_mem_nil
  | snoc h m ih =>
    rw [List.mem_append, List.mem_singleton]
    rintro (hmem | rfl)
    · exact ih hmem
    · obtain ⟨hp, next, hstep, rfl⟩ := m.step
      have hc := h.announced.sure t _ hp rfl
      cases hstep with
      | readyMiss hl hnone =>
        rw [hnone] at hc
        cases hc

/-- **Readiness.**  At every moment of a session's life: the cell, once filled, stays filled; an
open barrier stays open, and there is a registry from then on; unless a call is between filling the
cell and completing the barrier, the barrier is open exactly when there is a registry.  And a call
that has waited for the barrier to open returns a registry as soon as it gets the lock, which nobody
keeps from it but calls that can go on; it never waits for the barrier a second time. -/
theorem readiness (h : Run server (new loader) es s) :
    (∀ later s', Run server s later s' →
      (s.cell.isSome → s'.cell.isSome) ∧ (s.isReady → s'.isReady ∧ s'.cell.isSome)) ∧
    ((∀ t, s.duty? t = none) → (s.isReady ↔ s.cell.isSome)) ∧
    (∀ t, s.phase? t = some .readyPeek → ∃ b, s.cell = some b ∧
      (s.lock.holds t → ∀ answers,
        s.advance answers t = some ((s.giveBack t).finish t (.loaded b), {})) ∧
      ∃ u, s.lock.holds u ∧ ∀ answers : Nat → Option TextAnswer, (∀ n, (answers n).isSome) →
        (s.advance answers u).isSome) ∧
    ∀ t effects, .advanced t .readyPeek .readyWait effects ∉ es := by
  refine ⟨fun later s' hrun => ⟨hrun.cell_isSome, fun hr => ?_⟩, h.announced.isReady_iff, ?_,
    h.not_mem_second_wait⟩
  · have hc := h.announced.isSome_of_isReady hr
    exact ⟨hrun.keeps (fun m => m.announces.ready) hr, hrun.cell_isSome hc⟩
  · intro t hp
    obtain ⟨b, hb⟩ := Option.isSome_iff_exists.1 (h.announced.sure t _ hp rfl)
    refine ⟨b, hb, fun hl answers => ?_, h.orderly.exists_holder hp rfl⟩
    have hstep : Step server s t .readyPeek (.done (.loaded b)) (s.giveBack t) {} := .readyHit hl hb
    exact hstep.advance_eq hp nofun

/-- The first call has waited for the barrier and stands in line behind the reload, while the load
keeps the lock. -/
theorem readiness_rush :
    ∃ es s, Run rushServer (new .default) es s ∧ s.isReady ∧ s.phase? 0 = some .readyPeek ∧
      ¬ s.lock.holds 0 ∧ (∃ b, s.cell = some b) ∧
      ∃ u, s.lock.holds u ∧ ∀ answers : Nat → Option TextAnswer, (∀ n, (answers n).isSome) →
        (s.advance answers u).isSome := by
  obtain ⟨es, s, h, hs⟩ := exists_run_of_follow rushServer rush (new .default)
    (fun _ s => s.isReady && !s.lock.holds 0 && (s.phase? 0).any Phase.hasWaited)
    (by decide +kernel)
  simp only [Bool.and_eq_true, Bool.not_eq_true', Option.any_eq_true] at hs
  obtain ⟨⟨hr, hl⟩, p, hp, hwaited⟩ := hs
  obtain rfl : p = .readyPeek := by
    cases p with
    | readyPeek => rfl
    | _ => cases hwaited
  obtain ⟨-, -, hwait, -⟩ := readiness h
  obtain ⟨b, hb, -, hu⟩ := hwait 0 hp
  exact ⟨es, s, h, hr, hp, by simp [hl], ⟨b, hb⟩, hu⟩

end Session
end RemoteModels
