import RemoteModels.Proofs.Session.Lock
import RemoteModels.Proofs.Session.Run

/-!
# Who has the lock

The lock does not know what its holders are up to, and a call does not carry a proof that it holds
the lock.  What links the two is an invariant: the lock lists a call exactly while the phase of the
call needs it, in the mode that the phase needs, and a call that has come past its wait is among the
holders.  With the guarantees of the lock it follows that two calls are never past their waits as
writers at the same time, and that nobody waits for a lock that nobody can give back.

* `Phase.mode?`, `Phase.owns` — what a phase needs of the lock.
* `Lock.Serves` — the lock is as the needs of the calls say.
* `Session.Orderly` — the invariant; `Session.Run.orderly` — every session keeps it.
* `Session.Orderly.owner_eq` — writers exclude each other.
* `Session.Orderly.exists_holder` — whoever waits for the lock waits for a call that can go on.
-/

set_option autoImplicit false

namespace RemoteModels

/-! ## What a phase needs

A phase has the lock, waits for it or does without it.  Whether a call that needs the lock has it
already is told by the lock and not by the phase, except for the phases that come behind a wait. -/

/-- The mode in which a call has the lock or waits for it. -/
def Phase.mode? : Phase → Option Mode
  | .loadPeek | .factoryPeek | .readyPeek => some .read
  | .loadClaim | .loadFetch _ | .loadInstalled _ | .counted .load _ _ | .told .load _ => some .write
  | .reloadClaim _ | .reloadInstalled _ => some .write
  | _ => none

/-- Whether a call has come past its wait for the lock and still has it, as the writer. -/
def Phase.owns : Phase → Bool
  | .loadFetch _ | .loadInstalled _ | .counted .load _ _ | .told .load _ => true
  | .reloadInstalled _ => true
  | _ => false

/-- Whoever has come past its wait needs the lock as the writer. -/
theorem Phase.mode?_of_owns {p : Phase} (h : p.owns) : p.mode? = some .write := by
  revert h
  fun_cases Phase.owns p <;> simp [Phase.mode?]

/-! ## A lock that serves calls

Only the lock and the phases matter here, and of the phases only that one of them changes. -/

/-- The lock serves calls in these phases: it lists those that need it, in the mode they need, and
those that have come past their wait are holders. -/
structure Lock.Serves (l : Lock) (phase : TaskId → Option Phase) : Prop where
  exclusive : l.Exclusive
  tight : l.Tight
  mem_parties_iff : ∀ t m, (t, m) ∈ l.parties ↔ (phase t).bind Phase.mode? = some m
  mem_held : ∀ t, (phase t).any Phase.owns → (t, .write) ∈ l.held

namespace Lock.Serves

variable {l : Lock} {phase phase' : TaskId → Option Phase} {t : TaskId} {x : Option Phase}

/-- A call goes on with what it has of the lock. -/
theorem keep (h : l.Serves phase) (hphase : ∀ u, phase' u = if u = t then x else phase u)
    (hm : x.bind Phase.mode? = (phase t).bind Phase.mode?)
    (ho : x.any Phase.owns → (phase t).any Phase.owns ∨ l.holds t) : l.Serves phase' := by
  refine ⟨h.exclusive, h.tight, fun u m => ?_, fun u hu => ?_⟩
  · rw [h.mem_parties_iff, hphase]
    split
    · next hut => rw [hm, hut]
    · rfl
  · rw [hphase] at hu
    split at hu
    · next hut =>
      subst hut
      rcases ho hu with ho | hl
      · exact h.mem_held u ho
      · -- Whoever holds the lock holds it in the mode of its phase.
        obtain ⟨m, hmem⟩ := holds_iff.1 hl
        have hmode := (h.mem_parties_iff u m).1 (mem_parties_of_held hmem)
        obtain ⟨p, rfl, hp⟩ := (Option.any_eq_true _ _).1 hu
        rw [← hm, Option.bind_some, Phase.mode?_of_owns hp] at hmode
        cases hmode
        exact hmem
    · exact h.mem_held u hu

/-- A call that has nothing of the lock asks for it. -/
theorem request (h : l.Serves phase) (hphase : ∀ u, phase' u = if u = t then x else phase u)
    {m : Mode} (hold : (phase t).bind Phase.mode? = none) (hnew : x.bind Phase.mode? = some m)
    (ho : ¬ x.any Phase.owns) : (l.request t m).Serves phase' := by
  refine ⟨h.exclusive.request t m, h.tight.request t m, fun u m' => ?_, fun u hu => ?_⟩
  · rw [mem_parties_request, h.mem_parties_iff, hphase]
    split
    · next hut => simp [hut, hold, hnew, eq_comm]
    · next hut => simp [hut]
  · rw [hphase] at hu
    split at hu
    · exact absurd hu ho
    · exact mem_held_request (h.mem_held u hu)

/-- A call gives back what it has of the lock. -/
theorem release (h : l.Serves phase) (hphase : ∀ u, phase' u = if u = t then x else phase u)
    (hnew : x.bind Phase.mode? = none) : (l.release t).Serves phase' := by
  refine ⟨h.exclusive.release t, tight_release l t, fun u m => ?_, fun u hu => ?_⟩
  · rw [mem_parties_release, h.mem_parties_iff, hphase]
    split
    · next hut => simp [hut, hnew]
    · next hut => simp [hut]
  · rw [hphase] at hu
    split at hu
    · obtain ⟨p, rfl, hp⟩ := (Option.any_eq_true _ _).1 hu
      rw [Option.bind_some, Phase.mode?_of_owns hp] at hnew
      cases hnew
    · next hut => exact mem_held_release (h.mem_held u hu) hut

end Lock.Serves

namespace Session

variable {server : Nat → TextAnswer} {s s' next : Session} {t u : TaskId} {p p' : Phase}
  {effects : Effects} {e : Event} {es : List Event} {loader : Loader}

/-- What a step does to the lock: nothing, or it asks for it, or it gives it back. -/
theorem Step.lock_cases (h : Step server s t p p' next effects) :
    (next.lock = s.lock ∧ p'.mode? = p.mode? ∧ (p'.owns → p.owns ∨ s.lock.holds t)) ∨
    (∃ m, next.lock = s.lock.request t m ∧ p.mode? = none ∧ p'.mode? = some m ∧ ¬ p'.owns) ∨
    (next.lock = s.lock.release t ∧ p'.mode? = none) := by
  cases h with
  | loadAsk | loadAskAgain | reloadAsk | factoryAsk | readyAsk =>
    exact .inr (.inl ⟨_, rfl, rfl, rfl, by simp [Phase.owns]⟩)
  | peekHit | peekMiss | claimHit | loadFail | reloadRelease | loadReturn | factoryLook | readyHit
  | readyMiss => exact .inr (.inr ⟨rfl, rfl⟩)
  | loadSend hl | reloadInstall hl => exact .inl ⟨rfl, rfl, fun _ => .inr hl⟩
  | loadInstall | loadCount => exact .inl ⟨rfl, rfl, fun _ => .inl rfl⟩
  | tell builder => cases builder <;> exact .inl ⟨rfl, rfl, .inl⟩
  | reloadSend | reloadFail | reloadCount | reloadReturn | readyStart =>
    exact .inl ⟨rfl, rfl, by simp [Phase.owns]⟩

/-! ## The invariant

Calls are numbered as they begin, so a new call finds nothing under its number in the lists of the
lock. -/

/-- The lock and the calls of a session agree. -/
structure Orderly (s : Session) : Prop where
  numbered : s.Numbered
  serves : s.lock.Serves s.phase?

/-- There is nobody in a new session. -/
theorem orderly_new (loader : Loader) : (new loader).Orderly where
  numbered := numbered_new loader
  serves :=
    { exclusive := fun _ h => by cases h
      tight := fun _ h => by cases h
      mem_parties_iff := fun _ _ => iff_of_false (fun h => by cases h) (fun h => by cases h)
      mem_held := fun _ h => by cases h }

/-- **Every move keeps the invariant.** -/
theorem Orderly.move (h : s.Orderly) (m : Move server s e s') : s'.Orderly := by
  refine ⟨m.numbered h.numbered, ?_⟩
  have hbefore := m.phase?_task h.numbered
  have hphase := m.phase?_eq h.numbered
  cases e with
  | began t call =>
    cases m
    exact h.serves.keep hphase (by rw [hbefore]; rfl) (by simp [Event.after?, Phase.owns])
  | dropped t p =>
    cases m
    exact h.serves.release hphase rfl
  | advanced t p p' effects =>
    obtain ⟨-, next, hstep, rfl⟩ := m.step
    show next.lock.Serves _
    rcases hstep.lock_cases with ⟨hl, hm, ho⟩ | ⟨mode, hl, hm, hm', ho⟩ | ⟨hl, hm⟩
    · rw [hl]
      refine h.serves.keep hphase ?_ ?_ <;> rw [hbefore]
      · exact hm
      · exact ho
    · rw [hl]
      refine h.serves.request hphase ?_ hm' ho
      rw [hbefore]
      exact hm
    · rw [hl]
      exact h.serves.release hphase hm

theorem Run.orderly (h : Run server (new loader) es s) : s.Orderly :=
  h.keeps (fun m hs => hs.move m) (orderly_new loader)

/-! ## What follows

Exclusion comes from the lock, and progress from its line: while somebody waits there is a holder,
and in whatever phase a holder is, it has a step to take. -/

/-- **Writers exclude each other.** -/
theorem Orderly.owner_eq (h : s.Orderly) (hp : s.phase? t = some p) (ho : p.owns)
    (hl : s.lock.holds u) : u = t := by
  have ht : (t, Mode.write) ∈ s.lock.held := h.serves.mem_held t (by simpa [hp] using ho)
  obtain ⟨m, hm⟩ := Lock.holds_iff.1 hl
  exact congrArg Prod.fst (h.serves.exclusive.eq_of_mem ht hm)

/-- Whoever has come past its wait holds the lock. -/
theorem Orderly.holds_of_owns (h : s.Orderly) (hp : s.phase? t = some p) (ho : p.owns) :
    s.lock.holds t :=
  Lock.holds_iff.2 ⟨_, h.serves.mem_held t (by simpa [hp] using ho)⟩

/-- A call that holds the lock has a step to take. -/
theorem Orderly.exists_step_of_holds (h : s.Orderly) (hl : s.lock.holds t)
    (server : Nat → TextAnswer) :
    ∃ p p' next effects, s.phase? t = some p ∧ Step server s t p p' next effects := by
  obtain ⟨m, hm⟩ := Lock.holds_iff.1 hl
  have hmode := (h.serves.mem_parties_iff t m).1 (Lock.mem_parties_of_held hm)
  obtain ⟨p, hp, hpm⟩ := Option.bind_eq_some_iff.1 hmode
  -- Only a phase with a mode is listed by the lock, and in each of them holding it is enough.
  cases p with
  | loadPeek =>
    cases hc : s.cell with
    | none => exact ⟨_, _, _, _, hp, .peekMiss hl hc⟩
    | some b => exact ⟨_, _, _, _, hp, .peekHit hl hc⟩
  | loadClaim =>
    cases hc : s.cell with
    | none => exact ⟨_, _, _, _, hp, .loadSend hl hc⟩
    | some b => exact ⟨_, _, _, _, hp, .claimHit hl hc⟩
  | readyPeek =>
    cases hc : s.cell with
    | none => exact ⟨_, _, _, _, hp, .readyMiss hl hc⟩
    | some b => exact ⟨_, _, _, _, hp, .readyHit hl hc⟩
  | factoryPeek => exact ⟨_, _, _, _, hp, .factoryLook hl⟩
  | loadFetch n =>
    cases hb : s.loader.build (server n) with
    | mk result logs =>
      cases result with
      | ok r => exact ⟨_, _, _, _, hp, .loadInstall hb⟩
      | error e => exact ⟨_, _, _, _, hp, .loadFail hb⟩
  | loadInstalled b => exact ⟨_, _, _, _, hp, .loadCount b⟩
  | reloadClaim b => exact ⟨_, _, _, _, hp, .reloadInstall hl⟩
  | reloadInstalled b => exact ⟨_, _, _, _, hp, .reloadRelease b⟩
  | counted builder b last => exact ⟨_, _, _, _, hp, .tell builder b last⟩
  | told builder b =>
    cases builder with
    | load => exact ⟨_, _, _, _, hp, .loadReturn b⟩
    | reload => exact ⟨_, _, _, _, hp, .reloadReturn b⟩
  | start | loadMissed | reloadFetch | reloadReleased | readyWait | done => cases hpm

/-- It can take it as soon as its request, if it has sent one, has been answered. -/
theorem Orderly.advance_of_holds (h : s.Orderly) (hl : s.lock.holds t)
    {answers : Nat → Option TextAnswer} (ha : ∀ n, (answers n).isSome) :
    (s.advance answers t).isSome := by
  obtain ⟨p, p', next, effects, hp, hstep⟩ :=
    h.exists_step_of_holds hl fun n => (answers n).get (ha n)
  rw [hstep.advance_eq hp fun n _ => (Option.some_get (ha n)).symm]
  rfl

/-- **Nobody waits for a lock that nobody can give back**: while a call waits for the lock, another
holds it, and that one waits for nothing but the answer to a request of its own. -/
theorem Orderly.exists_holder (h : s.Orderly) (hp : s.phase? t = some p) (hm : p.mode?.isSome) :
    ∃ u, s.lock.holds u ∧ ∀ answers : Nat → Option TextAnswer, (∀ n, (answers n).isSome) →
      (s.advance answers u).isSome := by
  obtain ⟨m, hm⟩ := Option.isSome_iff_exists.1 hm
  have hmem : (t, m) ∈ s.lock.parties := (h.serves.mem_parties_iff t m).2 (by simpa [hp] using hm)
  obtain ⟨w, hw⟩ := h.serves.tight.exists_held hmem
  have hl : s.lock.holds w.1 := Lock.holds_iff.2 ⟨w.2, hw⟩
  exact ⟨w.1, hl, fun answers ha => h.advance_of_holds hl ha⟩

end Session
end RemoteModels
