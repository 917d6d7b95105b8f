import RemoteModels.Session.Basic

/-!
# Runs of a session

A session is moved along by beginning a call, by letting a call take a step, and by giving a call up
where it waits.  A run is any sequence of such moves, so it covers every way in which any number of
calls can come to pass side by side.  What comes back for a request is up to `server`, which gives
an answer, good or bad, for each request number; when it arrives is up to the run.

* `Session.Step` — what a step of a call can do.  `Session.advance_step` says that a call that
  advances takes such a step, and `Session.Step.advance_eq` that every such step can be taken, so
  everything said about sessions later rests on this relation alone.
* `Session.Event`, `Session.Move`, `Session.Run` — moves, what is seen of one, and runs.
* `Session.Move.phase?_eq`, `Session.Move.cell_eq` — a move changes the phase of one call and of no
  other, and the cell only where it installs a registry.
* `Session.Run.keeps` — what every move keeps holds at the end of every run;
  `Session.Run.exists_move` — whatever is seen in a run is a move in the middle of it.
* `Session.Over` — a call that has ended; it stays so (`Session.Over.run`).
-/

set_option autoImplicit false

namespace RemoteModels

/-! ## Phases

A phase says how far a call has come.  Three operations change it, and each is described by what it
does to the phase of every call. -/

/-- The call that builds. -/
def Builder.call : Builder → Call
  | .load => .load
  | .reload => .reload

/-- The call that a phase belongs to; one that has ended belongs to none. -/
def Phase.call? : Phase → Option Call
  | .start call => some call
  | .loadPeek | .loadMissed | .loadClaim | .loadFetch _ | .loadInstalled _ => some .load
  | .reloadFetch _ | .reloadClaim _ | .reloadInstalled _ | .reloadReleased _ => some .reload
  | .counted builder _ _ | .told builder _ => some builder.call
  | .factoryPeek => some .factory
  | .readyWait | .readyPeek => some .ready
  | .done _ => none

/-- The request whose answer a call waits for. -/
def Phase.awaited? : Phase → Option Nat
  | .loadFetch n | .reloadFetch n => some n
  | _ => none

namespace Session

variable {server : Nat → TextAnswer} {s s' s'' : Session} {t u : TaskId} {p p' : Phase}
  {effects : Effects}

theorem phase?_setPhase (s : Session) (t u : TaskId) (p : Phase) :
    (s.setPhase t p).phase? u = if u = t then (s.phase? t).map fun _ => p else s.phase? u := by
  obtain ⟨loader, cell, barrier, lock, requests, begun, tasks⟩ := s
  simp only [phase?, setPhase]
  induction tasks with
  | nil => simp
  | cons q rest ih =>
    by_cases hq : q.1 = t
    · by_cases hu : u = t
      · simp [hq, hu]
      · have hqu : ¬ t = u := fun h => hu h.symm
        simpa [hq, hu, hqu] using ih
    · by_cases hqu : q.1 = u
      · have hu : ¬ u = t := fun h => hq (hqu.trans h)
        simp [hqu, hu]
      · simpa [hq, hqu] using ih

/-- A call that begins gets the next number. -/
theorem phase?_begin (s : Session) (call : Call) (u : TaskId) :
    (s.begin call).1.phase? u
      = (s.phase? u).or (if u = s.begun then some (.start call) else none) := by
  simp only [phase?, begin, List.find?_append]
  cases s.tasks.find? (·.1 == u) with
  | some q => rfl
  | none =>
    by_cases hu : u = s.begun
    · simp [hu]
    · have hu' : ¬ s.begun = u := fun h => hu h.symm
      simp [hu, hu']

/-- A call that is given up has no phase any more. -/
theorem phase?_drop (s : Session) (t u : TaskId) :
    (s.drop t).phase? u = if u = t then none else s.phase? u := by
  simp only [phase?, drop, List.find?_filter]
  by_cases hu : u = t
  · subst hu
    simp
  · rw [if_neg hu]
    congr 2
    funext q
    by_cases hq : q.1 = u <;> simp [hq, hu]

/-! ## What a step can do

The relation has a case for every branch a call can take, with the condition for it and all that
becomes different.  It gives the session after the step but for the phase of the call, which is set
in the same way in all cases. -/

/-- The ways a call can take a step: its phases before and after, what becomes of the rest of the
session, and what the outside sees. -/
inductive Step (server : Nat → TextAnswer) (s : Session) (t : TaskId) :
    Phase → Phase → Session → Effects → Prop
  | loadAsk : Step server s t (.start .load) .loadPeek { s with lock := s.lock.request t .read } {}
  | peekHit {b : Build} (hl : s.lock.holds t) (hc : s.cell = some b) :
      Step server s t .loadPeek (.done (.loaded b)) (s.giveBack t) {}
  | peekMiss (hl : s.lock.holds t) (hc : s.cell = none) :
      Step server s t .loadPeek .loadMissed (s.giveBack t) {}
  | loadAskAgain : Step server s t .loadMissed .loadClaim
      { s with lock := s.lock.request t .write } {}
  | claimHit {b : Build} (hl : s.lock.holds t) (hc : s.cell = some b) :
      Step server s t .loadClaim (.done (.loaded b)) (s.giveBack t) {}
  | loadSend (hl : s.lock.holds t) (hc : s.cell = none) :
      Step server s t .loadClaim (.loadFetch s.requests) { s with requests := s.requests + 1 }
        { requests := [s.loader.request] }
  | loadInstall {n : Nat} {r : Registry} {logs : List LogEntry}
      (hb : s.loader.build (server n) = (.ok r, logs)) :
      Step server s t (.loadFetch n) (.loadInstalled ⟨n, r⟩) (s.install ⟨n, r⟩) { logs := logs }
  | loadFail {n : Nat} {e : LoadError} {logs : List LogEntry}
      (hb : s.loader.build (server n) = (.error e, logs)) :
      Step server s t (.loadFetch n) (.done (.failed e)) (s.giveBack t) { logs := logs }
  | loadCount (b : Build) :
      Step server s t (.loadInstalled b) (.counted .load b s.barrier.decrement.2)
        { s with barrier := s.barrier.decrement.1 } {}
  | reloadSend : Step server s t (.start .reload) (.reloadFetch s.requests)
      { s with requests := s.requests + 1 } { requests := [s.loader.request] }
  | reloadAsk {n : Nat} {r : Registry} {logs : List LogEntry}
      (hb : s.loader.build (server n) = (.ok r, logs)) :
      Step server s t (.reloadFetch n) (.reloadClaim ⟨n, r⟩)
        { s with lock := s.lock.request t .write } { logs := logs }
  | reloadFail {n : Nat} {e : LoadError} {logs : List LogEntry}
      (hb : s.loader.build (server n) = (.error e, logs)) :
      Step server s t (.reloadFetch n) (.done (.failed e)) s
        { logs := logs ++ [⟨.warn, .session,
            "reload failed, keeping current models: " ++ e.message, []⟩] }
  | reloadInstall {b : Build} (hl : s.lock.holds t) :
      Step server s t (.reloadClaim b) (.reloadInstalled b) (s.install b) {}
  | reloadRelease (b : Build) :
      Step server s t (.reloadInstalled b) (.reloadReleased b) (s.giveBack t) {}
  | reloadCount (b : Build) :
      Step server s t (.reloadReleased b) (.counted .reload b s.barrier.decrement.2)
        { s with barrier := s.barrier.decrement.1 } {}
  | tell (builder : Builder) (b : Build) (last : Bool) :
      Step server s t (.counted builder b last) (.told builder b)
        { s with barrier := if last then s.barrier.publish else s.barrier } {}
  | loadReturn (b : Build) :
      Step server s t (.told .load b) (.done (.loaded b)) (s.giveBack t) (s.conclude t .load b).2
  | reloadReturn (b : Build) :
      Step server s t (.told .reload b) (.done (.loaded b)) s (s.conclude t .reload b).2
  | factoryAsk : Step server s t (.start .factory) .factoryPeek
      { s with lock := s.lock.request t .read } {}
  | factoryLook (hl : s.lock.holds t) :
      Step server s t .factoryPeek (.done s.current) (s.giveBack t) {}
  | readyStart : Step server s t (.start .ready) .readyWait s {}
  | readyAsk (hr : s.isReady) : Step server s t .readyWait .readyPeek
      { s with lock := s.lock.request t .read } {}
  | readyHit {b : Build} (hl : s.lock.holds t) (hc : s.cell = some b) :
      Step server s t .readyPeek (.done (.loaded b)) (s.giveBack t) {}
  | readyMiss (hl : s.lock.holds t) (hc : s.cell = none) :
      Step server s t .readyPeek .readyWait (s.giveBack t) {}

/-! ## The relation is exact

Nothing else can happen, and everything that is listed can.  From here on proofs go by the cases of
the relation. -/

/-- The answers that have arrived are those of the server. -/
def From (server : Nat → TextAnswer) (answers : Nat → Option TextAnswer) : Prop :=
  ∀ n answer, answers n = some answer → answer = server n

/-- **There is no other step a call can take.** -/
theorem advance_step {answers : Nat → Option TextAnswer} (ha : From server answers)
    (h : s.advance answers t = some (s', effects)) :
    ∃ p p' next, s.phase? t = some p ∧ Step server s t p p' next effects ∧
      s' = next.setPhase t p' := by
  simp only [advance] at h
  -- The cases come in the order of the definition, and each of its branches is one kind of step.
  split at h
  · cases h
  · cases h
  · next hp => cases h; exact ⟨_, _, _, hp, .loadAsk, rfl⟩
  · next hp => cases h; exact ⟨_, _, _, hp, .reloadSend, rfl⟩
  · next hp => cases h; exact ⟨_, _, _, hp, .factoryAsk, rfl⟩
  · next hp => cases h; exact ⟨_, _, _, hp, .readyStart, rfl⟩
  · next hp =>
    split at h
    · next hl =>
      split at h
      · next hc => cases h; exact ⟨_, _, _, hp, .peekHit hl hc, rfl⟩
      · next hc => cases h; exact ⟨_, _, _, hp, .peekMiss hl hc, rfl⟩
    · cases h
  · next hp => cases h; exact ⟨_, _, _, hp, .loadAskAgain, rfl⟩
  · next hp =>
    split at h
    · next hl =>
      split at h
      · next hc => cases h; exact ⟨_, _, _, hp, .claimHit hl hc, rfl⟩
      · next hc => cases h; exact ⟨_, _, _, hp, .loadSend hl hc, rfl⟩
    · cases h
  · next n hp =>
    obtain ⟨answer, hanswer, h⟩ := Option.map_eq_some_iff.1 h
    cases ha n answer hanswer
    split at h
    · next hb => cases h; exact ⟨_, _, _, hp, .loadInstall hb, rfl⟩
    · next hb => cases h; exact ⟨_, _, _, hp, .loadFail hb, rfl⟩
  · next hp => cases h; exact ⟨_, _, _, hp, .loadCount _, rfl⟩
  · next n hp =>
    obtain ⟨answer, hanswer, h⟩ := Option.map_eq_some_iff.1 h
    cases ha n answer hanswer
    split at h
    · next hb => cases h; exact ⟨_, _, _, hp, .reloadAsk hb, rfl⟩
    · next hb => cases h; exact ⟨_, _, _, hp, .reloadFail hb, rfl⟩
  · next hp =>
    split at h
    · next hl => cases h; exact ⟨_, _, _, hp, .reloadInstall hl, rfl⟩
    · cases h
  · next hp => cases h; exact ⟨_, _, _, hp, .reloadRelease _, rfl⟩
  · next hp => cases h; exact ⟨_, _, _, hp, .reloadCount _, rfl⟩
  · next hp => cases h; exact ⟨_, _, _, hp, .tell _ _ _, rfl⟩
  · next hp => cases h; exact ⟨_, _, _, hp, .loadReturn _, rfl⟩
  · next hp => cases h; exact ⟨_, _, _, hp, .reloadReturn _, rfl⟩
  · next hp =>
    split at h
    · next hl => cases h; exact ⟨_, _, _, hp, .factoryLook hl, rfl⟩
    · cases h
  · next hp =>
    split at h
    · next hr => cases h; exact ⟨_, _, _, hp, .readyAsk hr, rfl⟩
    · cases h
  · next hp =>
    split at h
    · next hl =>
      split at h
      · next hc => cases h; exact ⟨_, _, _, hp, .readyHit hl hc, rfl⟩
      · next hc => cases h; exact ⟨_, _, _, hp, .readyMiss hl hc, rfl⟩
    · cases h

/-- **Every such step can be taken**, as soon as the answer that the call waits for has arrived. -/
theorem Step.advance_eq {next : Session} {answers : Nat → Option TextAnswer}
    (h : Step server s t p p' next effects) (hp : s.phase? t = some p)
    (ha : ∀ n, p.awaited? = some n → answers n = some (server n)) :
    s.advance answers t = some (next.setPhase t p', effects) := by
  rw [advance, hp]
  cases h with
  | loadAsk | reloadSend | factoryAsk | readyStart | loadAskAgain => rfl
  | loadCount | reloadRelease | reloadCount | tell | loadReturn | reloadReturn => rfl
  | peekHit hl hc | peekMiss hl hc | claimHit hl hc | readyHit hl hc | readyMiss hl hc
  | loadSend hl hc =>
    simp only [hl, hc, if_true, finish, send]
  | reloadInstall hl | factoryLook hl => simp only [hl, if_true, finish]
  | readyAsk hr => simp only [hr, if_true, ask]
  | loadInstall hb | loadFail hb | reloadAsk hb | reloadFail hb =>
    simp only [ha _ rfl, Option.map_some, hb, finish, ask]

/-- A step leaves the list of calls to the change of phase, and the loader alone. -/
theorem Step.frame {next : Session} (h : Step server s t p p' next effects) :
    next.tasks = s.tasks ∧ next.begun = s.begun ∧ next.loader = s.loader := by
  cases h <;> exact ⟨rfl, rfl, rfl⟩

theorem Step.phase?_eq {next : Session} (h : Step server s t p p' next effects) (u : TaskId) :
    next.phase? u = s.phase? u := by
  rw [phase?, h.frame.1, phase?]

/-! ## Moves

An event says who moved and between which phases.  Whatever one may want to know of a move, which
request was sent, what was installed and what returned, is read off the two phases and the
effects. -/

/-- What is seen of a move: the call that moves and its phases. -/
inductive Event where
  | began (t : TaskId) (call : Call)
  | advanced (t : TaskId) (before after : Phase) (effects : Effects)
  | dropped (t : TaskId) (phase : Phase)

namespace Event

/-- The call that moves. -/
def task : Event → TaskId
  | .began t _ => t
  | .advanced t _ _ _ => t
  | .dropped t _ => t

/-- The phase the call comes from: none if it has not been there. -/
def before? : Event → Option Phase
  | .began _ _ => none
  | .advanced _ before _ _ => some before
  | .dropped _ phase => some phase

/-- The phase the call goes to: none if it is gone. -/
def after? : Event → Option Phase
  | .began _ call => some (.start call)
  | .advanced _ _ after _ => some after
  | .dropped _ _ => none

/-- What kind of call moves. -/
def call? : Event → Option Call
  | .began _ call => some call
  | .advanced _ before _ _ => before.call?
  | .dropped _ phase => phase.call?

/-- The requests that are sent. -/
def requests : Event → List Request
  | .advanced _ _ _ effects => effects.requests
  | _ => []

/-- The registry that is put into the cell, and which kind of call puts it there. -/
def installed? : Event → Option (Builder × Build)
  | .advanced _ _ (.loadInstalled b) _ => some (.load, b)
  | .advanced _ _ (.reloadInstalled b) _ => some (.reload, b)
  | _ => none

/-- What a call returns, with the kind of the call. -/
def returned? : Event → Option (Call × Outcome)
  | .advanced _ before (.done o) _ => before.call?.map (·, o)
  | _ => none

/-- Whether a call ends without success: it returns an error, or it is given up before its end. -/
def fails : Event → Bool
  | .advanced _ _ (.done (.failed _)) _ => true
  | .dropped _ phase => phase.call?.isSome
  | _ => false

end Event

/-! ## What a move changes

The calls are numbered as they begin, so the one that begins is new.  A move then changes the phase
of one call, and the cell only by an installation. -/

/-- The moves a session can make. -/
inductive Move (server : Nat → TextAnswer) (s : Session) : Event → Session → Prop
  | begin (call : Call) : Move server s (.began s.begun call) (s.begin call).1
  | advance {answers : Nat → Option TextAnswer} {t : TaskId} {p p' : Phase} {s' : Session}
      {effects : Effects} (ha : From server answers) (hp : s.phase? t = some p)
      (h : s.advance answers t = some (s', effects)) (hp' : s'.phase? t = some p') :
      Move server s (.advanced t p p' effects) s'
  | drop {t : TaskId} {p : Phase} (hp : s.phase? t = some p) (hi : p.interruptible) :
      Move server s (.dropped t p) (s.drop t)

/-- A call that advances takes a step. -/
theorem Move.step (m : Move server s (.advanced t p p' effects) s') :
    s.phase? t = some p ∧ ∃ next, Step server s t p p' next effects ∧ s' = next.setPhase t p' := by
  cases m with
  | advance ha hp h hp' =>
    obtain ⟨q, q', next, hq, hstep, rfl⟩ := advance_step ha h
    obtain rfl : p = q := Option.some.inj (hp.symm.trans hq)
    rw [phase?_setPhase, if_pos rfl, hstep.phase?_eq, hq] at hp'
    cases hp'
    exact ⟨hp, next, hstep, rfl⟩

/-- Calls are numbered in the order in which they begin. -/
def Numbered (s : Session) : Prop := ∀ t, s.begun ≤ t → s.phase? t = none

/-- The call that moves comes from the phase the event tells. -/
theorem Move.phase?_task {e : Event} (m : Move server s e s') (hs : s.Numbered) :
    s.phase? e.task = e.before? := by
  cases m with
  | begin => exact hs _ (Nat.le_refl _)
  | advance _ hp => exact hp
  | drop hp => exact hp

/-- **A move changes the phase of one call and of no other.** -/
theorem Move.phase?_eq {e : Event} (m : Move server s e s') (hs : s.Numbered) (u : TaskId) :
    s'.phase? u = if u = e.task then e.after? else s.phase? u := by
  cases e with
  | began t call =>
    cases m
    rw [phase?_begin, Event.task, Event.after?]
    split
    · next hu => rw [hu, hs _ (Nat.le_refl _)]; rfl
    · rw [Option.or_none]
  | advanced t p p' effects =>
    obtain ⟨hp, next, hstep, rfl⟩ := m.step
    rw [phase?_setPhase, hstep.phase?_eq, hstep.phase?_eq, hp]
    rfl
  | dropped t p =>
    cases m
    exact phase?_drop s t u

/-- Numbers go up. -/
theorem Move.numbered {e : Event} (m : Move server s e s') (hs : s.Numbered) : s'.Numbered := by
  intro u hu
  rw [m.phase?_eq hs]
  cases m with
  | begin call =>
    have hlt : s.begun < u := hu
    rw [Event.task, if_neg (Nat.ne_of_gt hlt), hs u (Nat.le_of_lt hlt)]
  | @advance _ t p p' s' effects ha hp h hp' =>
    obtain ⟨_, _, next, -, hstep, rfl⟩ := advance_step ha h
    have hle : s.begun ≤ u := hstep.frame.2.1 ▸ hu
    have hne : u ≠ t := by
      rintro rfl
      rw [hs u hle] at hp
      cases hp
    rw [Event.task, if_neg hne, hs u hle]
  | drop =>
    rw [hs u hu, Event.after?, ite_self]

/-- **Only an installation writes the cell.** -/
theorem Move.cell_eq {e : Event} (m : Move server s e s') :
    s'.cell = (e.installed?.map Prod.snd).or s.cell := by
  cases e with
  | began | dropped => cases m; rfl
  | advanced t p p' effects =>
    obtain ⟨-, next, hstep, rfl⟩ := m.step
    show next.cell = _
    cases hstep <;> rfl

/-- A registry in the cell is replaced, never taken out. -/
theorem Move.cell_isSome {e : Event} (m : Move server s e s') (h : s.cell.isSome) :
    s'.cell.isSome := by
  rw [m.cell_eq, Option.isSome_or, h, Bool.or_true]

/-! ## Runs

A run grows at its end, since invariants are carried forward. -/

/-- The sessions that moves lead to from `s₀`, with the events on the way. -/
inductive Run (server : Nat → TextAnswer) (s₀ : Session) : List Event → Session → Prop
  | nil : Run server s₀ [] s₀
  | snoc {es : List Event} {s s' : Session} {e : Event} (h : Run server s₀ es s)
      (m : Move server s e s') : Run server s₀ (es ++ [e]) s'

/-- One run after the other. -/
theorem Run.append {es es' : List Event} (h : Run server s es s') (h' : Run server s' es' s'') :
    Run server s (es ++ es') s'' := by
  induction h' with
  | nil => rwa [List.append_nil]
  | snoc _ m ih =>
    rw [← List.append_assoc]
    exact ih.snoc m

/-- **What every move keeps, every run keeps.** -/
theorem Run.keeps {P : Session → Prop}
    (step : ∀ {s s' : Session} {e : Event}, Move server s e s' → P s → P s')
    {es : List Event} (h : Run server s es s') (hs : P s) : P s' := by
  induction h with
  | nil => exact hs
  | snoc _ m ih => exact step m ih

theorem numbered_new (loader : Loader) : (new loader).Numbered := fun _ _ => rfl

theorem Run.numbered {loader : Loader} {es : List Event} (h : Run server (new loader) es s) :
    s.Numbered :=
  h.keeps (fun m hs => m.numbered hs) (numbered_new loader)

theorem Run.cell_isSome {es : List Event} (h : Run server s es s') (hs : s.cell.isSome) :
    s'.cell.isSome :=
  h.keeps (fun m => m.cell_isSome) hs

/-- **The cell holds what was installed last.** -/
theorem Run.cell_eq {loader : Loader} {es : List Event} (h : Run server (new loader) es s) :
    s.cell = (es.filterMap Event.installed?).getLast?.map Prod.snd := by
  induction h with
  | nil => rfl
  | @snoc es s s' e _ m ih =>
    rw [m.cell_eq, ih, List.filterMap_append, List.getLast?_append]
    cases he : e.installed? <;> simp [he]

/-- A step stays within its call, or ends it. -/
theorem Step.call?_eq {next : Session} (h : Step server s t p p' next effects) :
    p'.call? = none ∨ p'.call? = p.call? := by
  cases h with
  | peekHit | claimHit | loadFail | loadReturn | reloadFail | reloadReturn | factoryLook
  | readyHit =>
    exact .inl rfl
  | _ => exact .inr rfl

/-- A call that is there has begun. -/
theorem Run.began_of_phase? {loader : Loader} {es : List Event} {call : Call}
    (h : Run server (new loader) es s) (hp : s.phase? t = some p) (hc : p.call? = some call) :
    .began t call ∈ es := by
  induction h generalizing p with
  | nil => cases hp
  | @snoc es s s' e h m ih =>
    rw [m.phase?_eq h.numbered] at hp
    rw [List.mem_append, List.mem_singleton]
    split at hp
    · next ht =>
      subst ht
      cases e with
      | began t call' =>
        cases hp
        cases hc
        exact .inr rfl
      | dropped => cases hp
      | advanced t q q' effects =>
        cases hp
        obtain ⟨hq, next, hstep, rfl⟩ := m.step
        rcases hstep.call?_eq with hnone | hsame
        · rw [hnone] at hc
          cases hc
        · exact .inl (ih hq (hsame ▸ hc))
    · exact .inl (ih hp hc)

/-- Every event of a run is a move in the middle of it. -/
theorem Run.exists_move {s₀ : Session} {es : List Event} {e : Event} (h : Run server s₀ es s)
    (he : e ∈ es) : ∃ pre post s₁ s₂, es = pre ++ e :: post ∧ Run server s₀ pre s₁ ∧
      Move server s₁ e s₂ ∧ Run server s₂ post s := by
  induction h with
  | nil => cases he
  | @snoc es s s' e' h m ih =>
    rcases List.mem_append.1 he with he | he
    · obtain ⟨pre, post, s₁, s₂, rfl, hpre, hmove, hpost⟩ := ih he
      exact ⟨pre, post ++ [e'], s₁, s₂, by simp, hpre, hmove, hpost.snoc m⟩
    · cases List.mem_singleton.1 he
      exact ⟨es, [], s, s', rfl, h, m, .nil⟩

/-- Whoever moves has begun. -/
theorem Run.began_of_mem {loader : Loader} {es : List Event} {e : Event} {call : Call}
    (h : Run server (new loader) es s) (he : e ∈ es) (hc : e.call? = some call) :
    .began e.task call ∈ es := by
  obtain ⟨pre, post, s₁, s₂, rfl, hpre, m, -⟩ := h.exists_move he
  cases e with
  | began t call' =>
    cases hc
    exact he
  | advanced t p p' effects =>
    exact List.mem_append_left _ (hpre.began_of_phase? (m.phase?_task hpre.numbered) hc)
  | dropped t p =>
    exact List.mem_append_left _ (hpre.began_of_phase? (m.phase?_task hpre.numbered) hc)

/-! ## The end of a call

A call ends when it returns or is given up, and no call ever has its number again.  So the end of a
call can be told from the session alone. -/

/-- A call that has returned or was given up. -/
def Over (s : Session) (t : TaskId) : Prop := t < s.begun ∧ (s.phase? t).bind Phase.call? = none

/-- A call takes steps as long as it has not returned. -/
theorem Step.call?_isSome {next : Session} (h : Step server s t p p' next effects) :
    p.call?.isSome := by
  cases h <;> rfl

theorem Move.begun_le {e : Event} (m : Move server s e s') : s.begun ≤ s'.begun := by
  cases e with
  | began =>
    cases m
    exact Nat.le_succ _
  | dropped =>
    cases m
    exact Nat.le_refl _
  | advanced t p p' effects =>
    obtain ⟨-, next, hstep, rfl⟩ := m.step
    exact Nat.le_of_eq hstep.frame.2.1.symm

/-- Whoever moves has its number. -/
theorem Move.task_lt {e : Event} (m : Move server s e s') (hs : s.Numbered) :
    e.task < s'.begun := by
  cases e with
  | began t call =>
    cases m
    exact Nat.lt_succ_self _
  | advanced | dropped =>
    refine Nat.lt_of_lt_of_le (Nat.lt_of_not_le fun hle => ?_) m.begun_le
    have hbefore := m.phase?_task hs
    rw [hs _ hle] at hbefore
    cases hbefore

/-- Every call of a run has begun. -/
theorem Run.task_lt {loader : Loader} {es : List Event} {e : Event}
    (h : Run server (new loader) es s) (he : e ∈ es) : e.task < s.begun := by
  induction h with
  | nil => cases he
  | @snoc es s s' e' h m ih =>
    rcases List.mem_append.1 he with he | he
    · exact Nat.lt_of_lt_of_le (ih he) m.begun_le
    · cases List.mem_singleton.1 he
      exact m.task_lt h.numbered

/-- What is over belongs to no call any more, and stays so. -/
theorem Over.move {e : Event} (h : s.Over t) (hs : s.Numbered) (m : Move server s e s') :
    s'.Over t ∧ (e.task = t → e.call? = none) := by
  have hbefore := m.phase?_task hs
  have hquiet : e.task = t → e.call? = none ∧ e.after?.bind Phase.call? = none := by
    rintro rfl
    have hcall : e.before?.bind Phase.call? = none := hbefore ▸ h.2
    cases e with
    | began t call =>
      cases m
      exact absurd h.1 (Nat.lt_irrefl _)
    | advanced t p p' effects =>
      obtain ⟨-, next, hstep, -⟩ := m.step
      have hsome := hstep.call?_isSome
      rw [show p.call? = none from hcall] at hsome
      cases hsome
    | dropped t p => exact ⟨hcall, rfl⟩
  refine ⟨⟨Nat.lt_of_lt_of_le h.1 m.begun_le, ?_⟩, fun ht => (hquiet ht).1⟩
  rw [m.phase?_eq hs]
  split
  · next ht => exact (hquiet ht.symm).2
  · exact h.2

/-- **A number is never given to a second call**: after the end of a call nothing is heard of it. -/
theorem Over.run {es : List Event} (h : s.Over t) (hs : s.Numbered) (hrun : Run server s es s') :
    s'.Over t ∧ ∀ e ∈ es, e.task = t → e.call? = none := by
  induction hrun with
  | nil => exact ⟨h, by simp⟩
  | @snoc es s₁ s₂ e hrun m ih =>
    obtain ⟨hover, hes⟩ := ih
    obtain ⟨hover', he⟩ := hover.move (hrun.keeps (fun m hs => m.numbered hs) hs) m
    refine ⟨hover', fun f hf => ?_⟩
    rcases List.mem_append.1 hf with hf | hf
    · exact hes f hf
    · cases List.mem_singleton.1 hf
      exact he

/-- A move that ends a call. -/
def Event.isEnd (e : Event) : Bool := e.call?.isSome && (e.after?.bind Phase.call?).isNone

/-- After its end a call is over. -/
theorem Move.over {e : Event} (m : Move server s e s') (hs : s.Numbered) (he : e.isEnd) :
    s'.Over e.task := by
  rw [Event.isEnd, Bool.and_eq_true, Option.isNone_iff_eq_none] at he
  refine ⟨m.task_lt hs, ?_⟩
  rw [m.phase?_eq hs, if_pos rfl]
  exact he.2

/-- A call whose end is behind it moves no more. -/
theorem Run.call?_of_isEnd {loader : Loader} {es : List Event} {e f : Event}
    (h : Run server (new loader) es s) (m : Move server s e s') (hf : f ∈ es) (hend : f.isEnd)
    (ht : e.task = f.task) : e.call? = none := by
  obtain ⟨pre, post, s₁, s₂, rfl, hpre, m', hpost⟩ := h.exists_move hf
  have hover := m'.over hpre.numbered hend
  have hrun : Run server s₂ (post ++ [e]) s' := hpost.snoc m
  exact (hover.run (m'.numbered hpre.numbered) hrun).2 e (by simp) ht

/-! ## Polls are runs

The outside does not choose single steps: it polls a call, which then goes as far as it can.  A poll
is a run all the same, so that what holds of all runs holds under polling. -/

/-- Many steps of one call. -/
theorem run_advanceMany {answers : Nat → Option TextAnswer} (ha : From server answers)
    (t : TaskId) (n : Nat) (s : Session) : ∃ es, Run server s es (advanceMany answers t n s).1 := by
  induction n generalizing s with
  | zero => exact ⟨[], .nil⟩
  | succ n ih =>
    rw [advanceMany]
    cases hs : s.advance answers t with
    | none => exact ⟨[], .nil⟩
    | some r =>
      obtain ⟨s₁, effects⟩ := r
      obtain ⟨p, p', next, hp, hstep, rfl⟩ := advance_step ha hs
      have hp' : (next.setPhase t p').phase? t = some p' := by
        rw [phase?_setPhase, if_pos rfl, hstep.phase?_eq, hp]
        rfl
      obtain ⟨es, hrun⟩ := ih (next.setPhase t p')
      exact ⟨_, Run.append (.snoc .nil (.advance ha hp hs hp')) hrun⟩

/-- **Polling a call is a run**: it takes steps of the call, and lets go of it when it has ended. -/
theorem run_poll {answers : Nat → Option TextAnswer} (ha : From server answers) (s : Session)
    (t : TaskId) : ∃ es, Run server s es (s.poll answers t).1 := by
  obtain ⟨es, hrun⟩ := run_advanceMany ha t maxSteps s
  rw [poll]
  generalize advanceMany answers t maxSteps s = polled at hrun ⊢
  obtain ⟨s₁, effects⟩ := polled
  simp only
  split
  · next o hp => exact ⟨_, hrun.snoc (.drop hp rfl)⟩
  · exact ⟨es, hrun⟩

/-! ## Runs by plan

A plan names the moves one after the other, and requests are answered at once. -/

/-- What is to move next. -/
inductive Choice where
  | begin (call : Call)
  | advance (t : TaskId)
  | drop (t : TaskId)

/-- Makes the chosen move, if it can be made. -/
def choose (s : Session) (server : Nat → TextAnswer) : Choice → Option (Event × Session)
  | .begin call => some (.began s.begun call, (s.begin call).1)
  | .advance t => do
    let p ← s.phase? t
    let (s', effects) ← s.advance (fun n => some (server n)) t
    let p' ← s'.phase? t
    return (.advanced t p p' effects, s')
  | .drop t => do
    let p ← s.phase? t
    if p.interruptible then return (.dropped t p, s.drop t) else none

/-- Makes the moves of a plan. -/
def follow (server : Nat → TextAnswer) : List Choice → Session → Option (List Event × Session)
  | [], s => some ([], s)
  | c :: plan, s => do
    let (e, s') ← s.choose server c
    let (es, s'') ← follow server plan s'
    return (e :: es, s'')

/-- A choice that can be made is a move. -/
theorem move_of_choose {c : Choice} {e : Event} (h : s.choose server c = some (e, s')) :
    Move server s e s' := by
  cases c with
  | begin call =>
    cases h
    exact .begin call
  | advance t =>
    obtain ⟨p, hp, h⟩ := Option.bind_eq_some_iff.1 h
    obtain ⟨⟨s₁, effects⟩, hs, h⟩ := Option.bind_eq_some_iff.1 h
    obtain ⟨p', hp', h⟩ := Option.bind_eq_some_iff.1 h
    cases h
    exact .advance (fun n answer ha => (Option.some.inj ha).symm) hp hs hp'
  | drop t =>
    obtain ⟨p, hp, h⟩ := Option.bind_eq_some_iff.1 h
    split at h
    · next hi =>
      cases h
      exact .drop hp hi
    · cases h

/-- A plan that can be followed is a run. -/
theorem run_of_follow {plan : List Choice} {es : List Event}
    (h : follow server plan s = some (es, s')) : Run server s es s' := by
  induction plan generalizing s es with
  | nil =>
    cases h
    exact .nil
  | cons c plan ih =>
    obtain ⟨⟨e, s₁⟩, hc, h⟩ := Option.bind_eq_some_iff.1 h
    obtain ⟨⟨rest, s₂⟩, hrest, h⟩ := Option.bind_eq_some_iff.1 h
    cases h
    exact Run.append (.snoc .nil (move_of_choose hc)) (ih hrest)

/-- A plan that can be followed to the end, and what holds there. -/
theorem exists_run_of_follow (server : Nat → TextAnswer) (plan : List Choice) (s : Session)
    (P : List Event → Session → Bool) (h : (follow server plan s).any fun r => P r.1 r.2) :
    ∃ es s', Run server s es s' ∧ P es s' := by
  obtain ⟨⟨es, s'⟩, hf, hP⟩ := (Option.any_eq_true _ _).1 h
  exact ⟨es, s', run_of_follow hf, hP⟩

/-- A server with two specifications, which then breaks down. -/
def rushServer : Nat → TextAnswer
  | 0 => .ok ⟨some "application/json", "\x7b\"Gadget\": \x7b\x7d\x7d"⟩
  | 1 => .ok ⟨some "application/json", "\x7b\"Widget\": \x7b\x7d\x7d"⟩
  | _ => .error (.server 500 "down")

/-- A call waits for the first registry while a load and a reload fetch one each.  The load is in
time to fill the cell; it has completed the barrier and still holds the lock, and the two others
stand in line. -/
def rush : List Choice :=
  [.begin .ready, .advance 0, .begin .load, .advance 1, .advance 1, .advance 1, .begin .reload,
    .advance 2, .advance 1, .advance 2, .advance 1, .advance 1, .advance 1, .advance 0]

end Session
end RemoteModels
