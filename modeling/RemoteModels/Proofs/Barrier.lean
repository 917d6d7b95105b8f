import RemoteModels.Barrier

/-!
# Completing a barrier from many sides

Any number of completions may work on a barrier at the same time.  Each takes two steps, and between
them the others may take any number of theirs: when the count has reached zero, many can come and
go before the one that took it there makes the opening known.

A schedule says whose turn it is, so the schedules are all the ways in which the steps can fall.
What holds at every point of every schedule rests on three counts: of the completions that have
counted down, of those that have reached zero, and of those that have opened the barrier.

The counts alone do not tell who opens the barrier, and the phases alone do not tell when.  The
invariant therefore ties the shared state to the phases by counting over them, which makes it a
statement that a single step can be checked against: the step takes one completion out of some
counts and puts it into others.

* `Barrier.Progress.step` — one step of one completion; two in a row are `Barrier.complete`.
* `Barrier.Crowd`, `Barrier.Crowd.run` — completions of one barrier, and their steps by a schedule.
* `Barrier.Crowd.Tally` — the invariant: how the barrier follows from the counts.
* `Barrier.Crowd.opens_once` — the barrier opens once, not too early, and not in vain.
-/

set_option autoImplicit false

namespace RemoteModels
namespace Barrier

/-! ## One completion

A completion counts down, and it opens the barrier if it has taken the count to zero.  It is these
two steps, and no smaller ones, that other completions can come between. -/

/-- How far a completion has come. -/
inductive Progress where
  /-- Nothing has been done. -/
  | begun
  /-- The barrier has been counted down; `last` tells whether it has to be opened. -/
  | counted (last : Bool)
  /-- The completion has ended, and tells whether it opened the barrier. -/
  | returned (fired : Bool)
deriving DecidableEq

namespace Progress

/-- The next step of a completion, and what it does to the barrier. -/
def step (b : Barrier) : Progress → Barrier × Progress
  | .begun => (b.decrement.1, .counted b.decrement.2)
  | .counted last => (if last then b.publish else b, .returned last)
  | .returned fired => (b, .returned fired)

/-- Whether a completion has taken its first step. -/
def hasCounted : Progress → Bool
  | .begun => false
  | .counted _ => true
  | .returned _ => true

/-- Whether a completion has reached zero, so that it has opened the barrier or is about to. -/
def isLast : Progress → Bool
  | .begun => false
  | .counted last => last
  | .returned fired => fired

/-- Whether a completion has taken both its steps. -/
def hasReturned : Progress → Bool
  | .returned _ => true
  | _ => false

/-- Whether a completion has returned that it opened the barrier. -/
def hasFired : Progress → Bool
  | .returned fired => fired
  | _ => false

/-- The number of steps taken. -/
def steps : Progress → Nat
  | .begun => 0
  | .counted _ => 1
  | .returned _ => 2

/-- Two steps in a row complete the barrier at once. -/
theorem step_step (b : Barrier) :
    (step b .begun).2.step (step b .begun).1 = (b.complete.1, .returned b.complete.2) := rfl

/-- A completion takes two steps, and then no more. -/
theorem steps_step (b : Barrier) (p : Progress) : (p.step b).2.steps = min 2 (p.steps + 1) := by
  cases p <;> rfl

theorem steps_le (p : Progress) : p.steps ≤ 2 := by
  cases p <;> simp [steps]

/-- To have returned is to have taken two steps, which is what is counted in a schedule. -/
theorem hasReturned_iff (p : Progress) : p.hasReturned ↔ 2 ≤ p.steps := by
  cases p <;> simp [hasReturned, steps]

/-- No step shuts a barrier. -/
theorem ready_step {b : Barrier} (h : b.ready) (p : Progress) : (p.step b).1.ready := by
  cases p with
  | begun | returned => exact h
  | counted last =>
    cases last with
    | false => exact h
    | true => rfl

/-- Only the one that has reached zero opens the barrier. -/
theorem isLast_of_hasFired {p : Progress} (h : p.hasFired) : p.isLast := by
  cases p with
  | begun | counted => cases h
  | returned => exact h

/-- When a completion has returned, it has opened the barrier exactly if it reached zero. -/
theorem hasFired_eq_isLast {p : Progress} (h : p.hasReturned) : p.hasFired = p.isLast := by
  cases p with
  | begun | counted => cases h
  | returned => rfl

theorem hasCounted_of_hasReturned {p : Progress} (h : p.hasReturned) : p.hasCounted := by
  cases p with
  | begun | counted => cases h
  | returned => rfl

end Progress

/-! ## Completions side by side

The completions of a barrier are a list, and a schedule is a list of places in it.  A turn for a
completion that has returned, or for one that is not there, is a turn in which nothing happens, so
every list is a schedule and none has to be ruled out. -/

/-- A barrier and the completions that work on it. -/
structure Crowd where
  barrier : Barrier
  completions : List Progress

namespace Crowd

/-- A barrier for `n` things, on which `k` completions are about to work. -/
def start (n k : Nat) : Crowd := ⟨.ofCount n, .replicate k .begun⟩

/-- The completion at a place takes its next step, if there is one. -/
def advance (c : Crowd) (t : Nat) : Crowd :=
  match c.completions[t]? with
  | none => c
  | some p => ⟨(p.step c.barrier).1, c.completions.set t (p.step c.barrier).2⟩

/-- The completions take steps in the order of a schedule. -/
def run (c : Crowd) (schedule : List Nat) : Crowd := schedule.foldl advance c

/-- The number of completions that have counted the barrier down. -/
def counted (c : Crowd) : Nat := c.completions.countP Progress.hasCounted

/-- The number of completions that have reached zero. -/
def last (c : Crowd) : Nat := c.completions.countP Progress.isLast

/-- The number of completions that have returned that they opened the barrier. -/
def fired (c : Crowd) : Nat := c.completions.countP Progress.hasFired

/-- Whether all completions have returned. -/
def finished (c : Crowd) : Bool := c.completions.all Progress.hasReturned

variable {c : Crowd} {n k t : Nat} {p : Progress}

theorem advance_of_getElem? (h : c.completions[t]? = some p) :
    c.advance t = ⟨(p.step c.barrier).1, c.completions.set t (p.step c.barrier).2⟩ := by
  rw [advance, h]

theorem advance_of_none (h : c.completions[t]? = none) : c.advance t = c := by
  rw [advance, h]

/-- What every step keeps, every schedule keeps. -/
theorem run_keeps {P : Crowd → Prop} (step : ∀ c t, P c → P (c.advance t)) (h : P c)
    (schedule : List Nat) : P (c.run schedule) := by
  induction schedule generalizing c with
  | nil => exact h
  | cons t schedule ih => exact ih (step c t h)

/-- An open barrier stays open. -/
theorem ready_run (h : c.barrier.ready) (schedule : List Nat) : (c.run schedule).barrier.ready := by
  refine run_keeps (P := fun c => c.barrier.ready = true) (fun c t hc => ?_) h schedule
  cases hp : c.completions[t]? with
  | none => rwa [advance_of_none hp]
  | some p =>
    rw [advance_of_getElem? hp]
    exact Progress.ready_step hc p

/-! ## Turns

How far a completion has come depends on its own turns alone: the others change the barrier, but not
how many steps it has taken.  So whether all have returned can be read off the schedule. -/

/-- A turn moves the completion whose turn it is, and no other. -/
theorem steps_advance {u : Nat} (h : c.completions[u]? = some p) (t : Nat) :
    ∃ q, (c.advance t).completions[u]? = some q ∧
      q.steps = min 2 (p.steps + if t = u then 1 else 0) := by
  by_cases htu : t = u
  · subst htu
    have hlt : t < c.completions.length := (List.getElem?_eq_some_iff.1 h).1
    rw [advance_of_getElem? h, if_pos rfl]
    exact ⟨_, List.getElem?_set_self hlt, Progress.steps_step c.barrier p⟩
  · refine ⟨p, ?_, ?_⟩
    · cases hq : c.completions[t]? with
      | none => rwa [advance_of_none hq]
      | some q => rwa [advance_of_getElem? hq, List.getElem?_set_ne htu]
    · have hle := p.steps_le
      rw [if_neg htu]
      omega

/-- A completion takes a step at each of its turns, until it has taken two. -/
theorem steps_run {u : Nat} (h : c.completions[u]? = some p) (schedule : List Nat) :
    ∃ q, (c.run schedule).completions[u]? = some q ∧
      q.steps = min 2 (p.steps + schedule.count u) := by
  induction schedule generalizing c p with
  | nil =>
    have hle := p.steps_le
    exact ⟨p, h, by rw [List.count_nil]; omega⟩
  | cons t schedule ih =>
    obtain ⟨q, hq, hstep⟩ := steps_advance h t
    obtain ⟨r, hr, hrun⟩ := ih hq
    refine ⟨r, hr, ?_⟩
    rw [hrun, hstep, List.count_cons]
    by_cases htu : t = u
    · simp only [htu, beq_self_eq_true, if_true]
      omega
    · simp only [htu, beq_iff_eq, if_false]
      omega

/-- No completion comes or goes. -/
theorem length_run (n k : Nat) (schedule : List Nat) :
    ((start n k).run schedule).completions.length = k := by
  refine run_keeps (P := fun c => c.completions.length = k) (fun c t hc => ?_)
    List.length_replicate schedule
  cases hp : c.completions[t]? with
  | none => rwa [advance_of_none hp]
  | some p => rwa [advance_of_getElem? hp, List.length_set]

/-- **Every completion returns**, as soon as it has had two turns. -/
theorem finished_iff (n : Nat) (schedule : List Nat) :
    ((start n k).run schedule).finished ↔ ∀ t < k, 2 ≤ schedule.count t := by
  have hlength := length_run n k schedule
  have hturns : ∀ t < k, ∃ q, ((start n k).run schedule).completions[t]? = some q ∧
      q.steps = min 2 (schedule.count t) := by
    intro t ht
    have hbegun : (start n k).completions[t]? = some .begun := by
      rw [start, List.getElem?_replicate_of_lt ht]
    obtain ⟨q, hq, hsteps⟩ := steps_run hbegun schedule
    exact ⟨q, hq, by rw [hsteps, Progress.steps, Nat.zero_add]⟩
  rw [finished, List.all_eq_true]
  constructor
  · intro h t ht
    obtain ⟨q, hq, hsteps⟩ := hturns t ht
    have htwo := q.hasReturned_iff.1 (h q (List.mem_of_getElem? hq))
    omega
  · intro h q hq
    obtain ⟨t, hlt, hget⟩ := List.mem_iff_getElem.1 hq
    obtain ⟨r, hr, hsteps⟩ := hturns t (hlength ▸ hlt)
    rw [List.getElem?_eq_getElem hlt, hget] at hr
    cases hr
    have htwo := h t (hlength ▸ hlt)
    exact q.hasReturned_iff.2 (by omega)

/-! ## What the counts say about the barrier

The barrier is shared, so what one completion finds there has been left by others.  `Tally` says
what can be found: the count is what is left after so many subtractions, exactly one completion has
reached zero once there have been enough of them, and the barrier is open once that one has taken
its second step. -/

/-- How a barrier for `n` things follows from the counts.  How many have counted gives its own count
and whether one has reached zero; how many have opened it tells whether it is open. -/
structure Tally (n : Nat) (c : Crowd) : Prop where
  pending : c.barrier.pending = n - c.counted
  last : c.last = if 0 < n ∧ n ≤ c.counted then 1 else 0
  ready : c.barrier.ready ↔ n = 0 ∨ 0 < c.fired

/-- Before the first step nothing has been counted. -/
theorem tally_start (n k : Nat) : Tally n (start n k) := by
  have hzero : ∀ q : Progress → Bool, q .begun = false →
      (List.replicate k Progress.begun).countP q = 0 := by
    intro q hq
    rw [List.countP_replicate, hq]
    rfl
  have hcounted : (start n k).counted = 0 := hzero _ rfl
  have hlast : (start n k).last = 0 := hzero _ rfl
  have hfired : (start n k).fired = 0 := hzero _ rfl
  refine ⟨?_, ?_, ?_⟩
  · rw [hcounted]
    rfl
  · rw [hcounted, hlast, if_neg (by omega)]
  · rw [hfired]
    simp [start, ofCount]

/-- A step takes its completion out of a count and puts it in again where it belongs. -/
theorem countP_advance (h : c.completions[t]? = some p) (q : Progress → Bool) :
    (c.advance t).completions.countP q + (q p).toNat
      = c.completions.countP q + (q (p.step c.barrier).2).toNat := by
  obtain ⟨hlt, hp⟩ := List.getElem?_eq_some_iff.1 h
  have hle : (q p).toNat ≤ c.completions.countP q := by
    cases hq : q p with
    | false => exact Nat.zero_le _
    | true => exact List.countP_pos_iff.2 ⟨p, List.mem_of_getElem? h, hq⟩
  have hite : ∀ b : Bool, (if b then 1 else 0) = b.toNat := fun b => by cases b <;> rfl
  rw [advance_of_getElem? h, List.countP_set hlt, hp, hite, hite]
  omega

/-- **Every step keeps the tally.** -/
theorem Tally.advance (h : Tally n c) (t : Nat) : Tally n (c.advance t) := by
  cases hp : c.completions[t]? with
  | none => rwa [advance_of_none hp]
  | some p =>
    have hcounted := countP_advance hp Progress.hasCounted
    have hlast := countP_advance hp Progress.isLast
    have hfired := countP_advance hp Progress.hasFired
    have hbarrier : (c.advance t).barrier = (p.step c.barrier).1 := by rw [advance_of_getElem? hp]
    obtain ⟨hpending, hone, hready⟩ := h
    cases p with
    | begun =>
      -- Zero is reached by the one that finds the count at one, and none has reached it before.
      have hnext : (c.advance t).counted = c.counted + 1 := hcounted
      have hlast : (c.advance t).last = c.last + (c.barrier.pending == 1).toNat := hlast
      have hfired : (c.advance t).fired = c.fired := hfired
      refine ⟨?_, ?_, ?_⟩
      · rw [hbarrier, hnext]
        show c.barrier.pending - 1 = _
        omega
      · rw [hlast, hnext, hone]
        by_cases hreached : c.barrier.pending = 1
        · rw [if_neg (by omega), if_pos (by omega), hreached]
          rfl
        · rw [beq_eq_false_iff_ne.2 hreached]
          show (if _ then 1 else 0) = (if _ then 1 else 0)
          congr 1
          exact propext (by omega)
      · rw [hbarrier, hfired]
        exact hready
    | counted last =>
      have hsame : (c.advance t).counted = c.counted := Nat.add_right_cancel hcounted
      have hlast : (c.advance t).last = c.last := Nat.add_right_cancel hlast
      have hfired : (c.advance t).fired = c.fired + last.toNat := hfired
      refine ⟨?_, ?_, ?_⟩
      · rw [hbarrier, hsame, ← hpending]
        cases last <;> rfl
      · rw [hlast, hsame, hone]
      · rw [hbarrier, hfired]
        cases last with
        | false => exact hready
        | true => exact iff_of_true rfl (.inr (Nat.succ_pos _))
    | returned fired =>
      have hsame : (c.advance t).counted = c.counted := Nat.add_right_cancel hcounted
      have hlast : (c.advance t).last = c.last := Nat.add_right_cancel hlast
      have hfired : (c.advance t).fired = c.fired := Nat.add_right_cancel hfired
      exact ⟨by rw [hbarrier, hsame]; exact hpending, by rw [hlast, hsame, hone],
        by rw [hbarrier, hfired]; exact hready⟩

/-- So the tally is right at every point of every schedule. -/
theorem tally_run (n k : Nat) (schedule : List Nat) : Tally n ((start n k).run schedule) :=
  run_keeps (fun _ t h => h.advance t) (tally_start n k) schedule

/-! ## What a tally says

The counts are put into words: who has seen the last count, whether the barrier is open, and what is
left to do when everybody has finished. -/

/-- Those that have opened the barrier are among those that have reached zero. -/
theorem fired_le_last (c : Crowd) : c.fired ≤ c.last :=
  List.countP_mono_left fun _ _ h => Progress.isLast_of_hasFired h

/-- At most one completion reaches zero, because the count only goes down. -/
theorem Tally.last_le_one (h : Tally n c) : c.last ≤ 1 := by
  rw [h.last]
  split <;> omega

/-- Once one has reached zero, so has the count. -/
theorem Tally.pending_of_last (h : Tally n c) (hlast : 0 < c.last) : c.barrier.pending = 0 := by
  rw [h.last] at hlast
  split at hlast
  · next hreached =>
    rw [h.pending]
    omega
  · cases hlast

/-- When all have returned, whoever reached zero has opened the barrier. -/
theorem fired_of_finished (h : c.finished) : c.fired = c.last :=
  List.countP_congr fun p hp => by
    rw [Progress.hasFired_eq_isLast (List.all_eq_true.1 h p hp)]

/-- When all have returned, all have counted. -/
theorem counted_of_finished (h : c.finished) : c.counted = c.completions.length :=
  List.countP_eq_length.2 fun p hp =>
    Progress.hasCounted_of_hasReturned (List.all_eq_true.1 h p hp)

/-! ## The opening

What is promised about the barrier is promised at every point of a schedule, and some of it at the
end only.  The structure has one field for each promise; each follows from the tally at that
point. -/

/-- How a barrier for `n` things opens under `k` completions, at a point of a schedule. -/
structure Opening (n k : Nat) (schedule : List Nat) (c : Crowd) : Prop where
  /-- What a completion does without interruption is `Barrier.complete`. -/
  complete : ∀ t : Nat, c.completions[t]? = some .begun →
    c.run [t, t] = ⟨c.barrier.complete.1, c.completions.set t (.returned c.barrier.complete.2)⟩
  /-- The count has gone down by one for each that has counted, and never below zero. -/
  pending_eq : c.barrier.pending = n - c.counted
  /-- The barrier is not open while the count is positive. -/
  not_early : c.barrier.ready → c.barrier.pending = 0
  /-- Nor is anyone about to open it then. -/
  not_opening : ∀ t : Nat, c.completions[t]? = some (.counted true) → c.barrier.pending = 0
  /-- An open barrier stays open. -/
  stays : c.barrier.ready → ∀ later, (c.run later).barrier.ready
  /-- At most one completion returns that it opened the barrier. -/
  fired_le : c.fired ≤ 1
  /-- None does where there are too few, or where the barrier is open from the start. -/
  fired_eq_zero : k < n ∨ n = 0 → c.fired = 0
  /-- All completions have returned once each has had two turns. -/
  finished_iff : c.finished ↔ ∀ t < k, 2 ≤ schedule.count t
  /-- When all have returned, one has opened the barrier if there were enough. -/
  fired_eq_one : c.finished → 0 < n → n ≤ k → c.fired = 1
  /-- When all have returned, the barrier is open exactly if there were enough. -/
  ready_iff : c.finished → (c.barrier.ready ↔ n ≤ k)

/-- Nobody comes between two turns in a row. -/
theorem run_twice (h : c.completions[t]? = some .begun) :
    c.run [t, t]
      = ⟨c.barrier.complete.1, c.completions.set t (.returned c.barrier.complete.2)⟩ := by
  have hlt : t < c.completions.length := (List.getElem?_eq_some_iff.1 h).1
  have hcounted : (c.advance t).completions[t]? = some (Progress.step c.barrier .begun).2 := by
    rw [advance_of_getElem? h]
    exact List.getElem?_set_self hlt
  show (c.advance t).advance t = _
  rw [advance_of_getElem? hcounted, advance_of_getElem? h, List.set_set]
  simp only [Progress.step_step]

/-- **A barrier opens once**, under any number of completions and every interleaving of their
steps. -/
theorem opens_once (n k : Nat) (schedule : List Nat) :
    Opening n k schedule ((start n k).run schedule) := by
  have h := tally_run n k schedule
  have hlength := length_run n k schedule
  have hfinished := finished_iff (k := k) n schedule
  -- All that is used of the run from here on is its tally.
  generalize (start n k).run schedule = c at h hlength hfinished ⊢
  have hle := c.fired_le_last
  have hcounted : c.counted ≤ k := hlength ▸ List.countP_le_length
  refine ⟨fun t ht => run_twice ht, h.pending, ?_, ?_, ready_run,
    Nat.le_trans hle h.last_le_one, ?_, hfinished, ?_, ?_⟩
  · intro hready
    rcases h.ready.1 hready with hzero | hfired
    · rw [h.pending]
      omega
    · exact h.pending_of_last (Nat.lt_of_lt_of_le hfired hle)
  · intro t ht
    exact h.pending_of_last (List.countP_pos_iff.2 ⟨_, List.mem_of_getElem? ht, rfl⟩)
  · intro hfew
    have hnone := h.last
    rw [if_neg (by omega)] at hnone
    omega
  · intro hall hpos henough
    have hcounted := (counted_of_finished hall).trans hlength
    rw [fired_of_finished hall, h.last, if_pos (by omega)]
  · intro hall
    have hcounted := (counted_of_finished hall).trans hlength
    rw [h.ready, fired_of_finished hall, h.last]
    split <;> omega

/-- Three completions of a barrier for two things.  The second reaches zero and is overtaken by the
third, which comes and goes while the barrier is still shut. -/
theorem opens_once_overtaken :
    let schedule := [0, 1, 2, 2, 1, 0]
    let c := (start 2 3).run schedule
    (start 2 3).run (schedule.take 4)
        = ⟨⟨0, false⟩, [.counted false, .counted true, .returned false]⟩ ∧
      c = ⟨⟨0, true⟩, [.returned false, .returned true, .returned false]⟩ ∧
      c.fired = 1 ∧ c.barrier.ready := by
  intro schedule c
  have h := opens_once 2 3 schedule
  have hall : c.finished := h.finished_iff.2 (by decide)
  exact ⟨rfl, rfl, h.fired_eq_one hall (by decide) (by decide), (h.ready_iff hall).2 (by decide)⟩

end Crowd
end Barrier
end RemoteModels
