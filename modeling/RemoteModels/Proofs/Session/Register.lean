import RemoteModels.Proofs.Session.Cell

/-!
# The cell as a register

Seen from outside, the cell is one register: builders write it in a single step and everybody else
reads it.  A build takes many steps, in a load under the lock and in a reload without it, and may
fail or be given up at each of them; but what a call has done so far can be read off its phase, so
that the step that writes can be tied to the one answer it came from, and a call that fails can be
shown to have written nothing.

* `Loader.Builds` — the registry that an answer gives.
* `Session.Run.record` — the phase of a call remembers what the call has done, with the request it
  sent (`Phase.request?`) and the registry it installed (`Phase.placed?`) as the two uses.
* `Session.Settled` — a call that has installed its registry cannot fail any more.
* `Session.register` — the cell is a register.
-/

set_option autoImplicit false

namespace RemoteModels

/-! ## What a build gives

The loader reports while it builds; here only the registry counts, as a relation between answers and
registries. -/

/-- The answer is a text that parses, and what it says makes up the registry `r`. -/
def Loader.Builds (l : Loader) (answer : TextAnswer) (r : Registry) : Prop :=
  ∃ response spec logs, answer = .ok response ∧
    Specification.parse (Format.negotiate response.contentType l.path) response.body = .ok spec ∧
    Registry.ofSpecification spec = .ok (r, logs)

theorem Loader.builds_of_build {l : Loader} {answer : TextAnswer} {r : Registry}
    {logs : List LogEntry} (h : l.build answer = (.ok r, logs)) : l.Builds answer r := by
  cases answer with
  | error e => cases h
  | ok response =>
    simp only [build, read] at h
    cases hparse : Specification.parse (.negotiate response.contentType l.path) response.body with
    | error e =>
      rw [hparse] at h
      cases h
    | ok spec =>
      rw [hparse] at h
      simp only at h
      cases hspec : Registry.ofSpecification spec with
      | error e =>
        rw [hspec] at h
        cases h
      | ok made =>
        rw [hspec] at h
        cases h
        exact ⟨response, spec, made.2, rfl, hparse, hspec⟩

theorem Loader.build_of_builds {l : Loader} {answer : TextAnswer} {r : Registry}
    (h : l.Builds answer r) : (l.build answer).1 = .ok r := by
  obtain ⟨response, spec, logs, rfl, hparse, hspec⟩ := h
  simp only [build, read, hparse, hspec]

/-- What an answer builds is what the loader makes of it. -/
theorem Loader.builds_iff {l : Loader} {answer : TextAnswer} {r : Registry} :
    l.Builds answer r ↔ (l.build answer).1 = .ok r := by
  refine ⟨build_of_builds, fun h => ?_⟩
  have hbuild : l.build answer = (.ok r, (l.build answer).2) := Prod.ext h rfl
  exact builds_of_build hbuild

/-- An answer builds one registry at most. -/
theorem Loader.Builds.unique {l : Loader} {answer : TextAnswer} {r r' : Registry}
    (h : l.Builds answer r) (h' : l.Builds answer r') : r = r' :=
  Except.ok.inj ((builds_iff.1 h).symm.trans (builds_iff.1 h'))

namespace Phase

/-- The number of the request that the call has sent. -/
def request? : Phase → Option Nat
  | .loadFetch n | .reloadFetch n => some n
  | .reloadClaim b | .loadInstalled b | .reloadInstalled b | .reloadReleased b => some b.request
  | .counted _ b _ | .told _ b => some b.request
  | _ => none

/-- The registry that the call has built. -/
def built? : Phase → Option Build
  | .reloadClaim b | .loadInstalled b | .reloadInstalled b | .reloadReleased b => some b
  | .counted _ b _ | .told _ b => some b
  | _ => none

/-- The registry that the call has installed. -/
def placed? : Phase → Option (Builder × Build)
  | .loadInstalled b => some (.load, b)
  | .reloadInstalled b | .reloadReleased b => some (.reload, b)
  | .counted builder b _ | .told builder b => some (builder, b)
  | _ => none

/-- Between installing its registry and returning a call does not wait, so it is not given up. -/
theorem placed?_of_interruptible {p : Phase} (h : p.interruptible) : p.placed? = none := by
  revert h
  fun_cases placed? p <;> simp [interruptible]

end Phase

namespace Session

variable {server : Nat → TextAnswer} {s s' s'' next : Session} {t u : TaskId} {p p' : Phase}
  {effects : Effects} {e f : Event} {es pre post : List Event} {loader : Loader}

/-! ## What the phase of a call remembers

A call has no history of its own, and a run is a list of events of many calls.  `Run.record` ties
the two: if a phase changes its memory whenever an event of its call does something, it remembers
all that the call has done, whatever other calls did in between. -/

/-- The number of the request that is sent. -/
def Event.sent? : Event → Option Nat
  | .advanced _ _ (.loadFetch n) _ | .advanced _ _ (.reloadFetch n) _ => some n
  | _ => none

/-- The part of a run that one call has in it. -/
def calls (t : TaskId) (es : List Event) : List Event := es.filter (·.task == t)

theorem filterMap_calls_concat {α : Type} (what : Event → Option α) (t : TaskId)
    (es : List Event) (e : Event) :
    (calls t (es ++ [e])).filterMap what
      = (calls t es).filterMap what ++ if e.task = t then (what e).toList else [] := by
  rw [calls, List.filter_append, List.filterMap_append, calls]
  by_cases ht : e.task = t
  · cases hw : what e <;> simp [ht, hw]
  · simp [ht]

/-- **The phase of a call remembers what the call has done**, provided it does so at each step. -/
theorem Run.record {α : Type} (what : Event → Option α) (know : Phase → Option α)
    (hstart : ∀ t call, what (.began t call) = none ∧ know (.start call) = none)
    (hstep : ∀ {s t p p' next effects}, Step server s t p p' next effects → p'.call?.isSome →
      (know p').toList = (know p).toList ++ (what (.advanced t p p' effects)).toList)
    (h : Run server (new loader) es s) (hp : s.phase? t = some p) (hc : p.call?.isSome) :
    (calls t es).filterMap what = (know p).toList := by
  induction h generalizing p with
  | nil => cases hp
  | @snoc es s s' e h m ih =>
    rw [m.phase?_eq h.numbered] at hp
    rw [filterMap_calls_concat]
    split at hp
    · next ht =>
      subst ht
      rw [if_pos rfl]
      cases e with
      | began t call =>
        -- The number of the call is new.
        cases hp
        cases m
        have hnew : calls s.begun es = [] := List.filter_eq_nil_iff.2 fun f hf => by
          simpa using Nat.ne_of_lt (h.task_lt hf)
        rw [Event.task, hnew, (hstart _ call).1, (hstart s.begun call).2]
        rfl
      | dropped => cases hp
      | advanced t q q' effects =>
        cases hp
        obtain ⟨hq, next, hnext, rfl⟩ := m.step
        rw [ih hq hnext.call?_isSome, hstep hnext hc]
    · next ht =>
      rw [if_neg (Ne.symm ht), List.append_nil]
      exact ih hp hc

/-- A phase remembers the request of its call. -/
theorem Step.request?_eq (h : Step server s t p p' next effects) (hc : p'.call?.isSome) :
    p'.request?.toList
      = p.request?.toList ++ (Event.sent? (.advanced t p p' effects)).toList := by
  cases h with
  | peekHit | claimHit | loadFail | loadReturn | reloadFail | reloadReturn | factoryLook
  | readyHit =>
    cases hc
  | _ => rfl

/-- A phase remembers what its call has installed. -/
theorem Step.placed?_eq (h : Step server s t p p' next effects) (hc : p'.call?.isSome) :
    p'.placed?.toList
      = p.placed?.toList ++ (Event.installed? (.advanced t p p' effects)).toList := by
  cases h with
  | peekHit | claimHit | loadFail | loadReturn | reloadFail | reloadReturn | factoryLook
  | readyHit =>
    cases hc
  | _ => rfl

/-- A call has sent the request that its phase tells of, and no other. -/
theorem Run.sent_eq (h : Run server (new loader) es s) (hp : s.phase? t = some p)
    (hc : p.call?.isSome) : (calls t es).filterMap Event.sent? = p.request?.toList :=
  h.record Event.sent? Phase.request? (fun _ _ => ⟨rfl, rfl⟩) Step.request?_eq hp hc

/-- A call has installed the registry that its phase tells of, and no other. -/
theorem Run.installed_eq (h : Run server (new loader) es s) (hp : s.phase? t = some p)
    (hc : p.call?.isSome) : (calls t es).filterMap Event.installed? = p.placed?.toList :=
  h.record Event.installed? Phase.placed? (fun _ _ => ⟨rfl, rfl⟩) Step.placed?_eq hp hc

/-! ## What was built

A build bears the number of its request, so that the answer it comes from can be looked up with the
server. -/

/-- A session keeps its loader. -/
theorem Run.loader_eq (h : Run server (new loader) es s) : s.loader = loader := by
  refine h.keeps (P := fun s => s.loader = loader) (fun {s s' e} m hs => ?_) rfl
  cases e with
  | began | dropped =>
    cases m
    exact hs
  | advanced t p p' effects =>
    obtain ⟨-, next, hstep, rfl⟩ := m.step
    exact hstep.frame.2.2.trans hs

/-- A registry is built from the answer to the request whose number it bears. -/
theorem Step.builds {b : Build} (h : Step server s t p p' next effects) (hb : p'.built? = some b) :
    p.built? = some b ∨ s.loader.Builds (server b.request) b.registry := by
  cases h with
  | loadInstall hbuild | reloadAsk hbuild =>
    cases hb
    exact .inr (Loader.builds_of_build hbuild)
  | loadCount | reloadInstall | reloadRelease | reloadCount | tell => exact .inl hb
  | _ => cases hb

/-- Whatever a call has built comes from the answer to its own request. -/
theorem Run.builds {b : Build} (h : Run server (new loader) es s) (hp : s.phase? t = some p)
    (hb : p.built? = some b) : loader.Builds (server b.request) b.registry := by
  induction h generalizing p with
  | nil => cases hp
  | @snoc es s s' e h m ih =>
    rw [m.phase?_eq h.numbered] at hp
    split at hp
    · next ht =>
      subst ht
      cases e with
      | began t call =>
        cases hp
        cases hb
      | dropped => cases hp
      | advanced t q q' effects =>
        cases hp
        obtain ⟨hq, next, hstep, rfl⟩ := m.step
        rcases hstep.builds hb with hb | hb
        · exact ih hq hb
        · rwa [h.loader_eq] at hb
    · exact ih hp hb

/-- Requests are numbered in the order in which they are sent. -/
theorem Run.sent_range (h : Run server (new loader) es s) :
    es.filterMap Event.sent? = List.range s.requests := by
  induction h with
  | nil => rfl
  | @snoc es s s' e h m ih =>
    rw [List.filterMap_append, ih]
    cases e with
    | began t call =>
      cases m
      exact List.append_nil _
    | dropped t p =>
      cases m
      exact List.append_nil _
    | advanced t p p' effects =>
      obtain ⟨-, next, hstep, rfl⟩ := m.step
      cases hstep with
      | loadSend | reloadSend => exact List.range_succ.symm
      | _ => exact List.append_nil _

/-! ## Calls that fail

A call may fail until it has filled the cell, and not any more after that.  The two halves are
proved apart: a call without a registry in the cell changes nothing that is shared, and a call with
one does not fail. -/

/-- A move changes the cell or the barrier only for a call that has installed its registry, or does
so now. -/
theorem Move.shared_eq (m : Move server s e s') (h : e.after?.bind Phase.placed? = none) :
    s'.cell = s.cell ∧ s'.barrier = s.barrier := by
  cases e with
  | began | dropped =>
    cases m
    exact ⟨rfl, rfl⟩
  | advanced t p p' effects =>
    obtain ⟨-, next, hstep, rfl⟩ := m.step
    show next.cell = s.cell ∧ next.barrier = s.barrier
    cases hstep with
    | loadInstall | loadCount | reloadInstall | reloadCount | tell => cases h
    | _ => exact ⟨rfl, rfl⟩

/-- A move that has installed a registry does not fail. -/
theorem Move.not_fails_of_placed (m : Move server s e s')
    (h : (e.after?.bind Phase.placed?).isSome) : e.call?.isSome ∧ ¬ e.fails := by
  cases e with
  | began | dropped => cases h
  | advanced t p p' effects =>
    obtain ⟨-, next, hstep, -⟩ := m.step
    cases hstep with
    | loadInstall | loadCount | reloadInstall | reloadRelease | reloadCount | tell =>
      exact ⟨rfl, Bool.false_ne_true⟩
    | _ => cases h

/-- A call that fails ends. -/
theorem Move.isEnd_of_fails (m : Move server s e s') (h : e.fails) : e.isEnd := by
  cases e with
  | began => cases h
  | dropped t p =>
    rw [Event.isEnd, Event.call?, show p.call?.isSome from h]
    rfl
  | advanced t p p' effects =>
    obtain ⟨-, next, hstep, -⟩ := m.step
    cases hstep with
    | loadFail | reloadFail => rfl
    | factoryLook =>
      rw [current] at h
      cases hc : s.cell <;> rw [hc] at h <;> cases h
    | _ => cases h

/-! ## A call with a registry does not fail

From the installation on, all steps that are left to a call lead to its return. -/

/-- A call that has installed its registry goes on to return it. -/
theorem Step.settled (h : Step server s t p p' next effects) (hp : p.placed?.isSome) :
    (p'.placed?.isSome ∨ p'.call? = none) ∧ ¬ (Event.advanced t p p' effects).fails := by
  cases h with
  | loadCount | reloadRelease | reloadCount | tell => exact ⟨.inl rfl, Bool.false_ne_true⟩
  | loadReturn | reloadReturn => exact ⟨.inr rfl, Bool.false_ne_true⟩
  | _ => cases hp

/-- The call `t` has installed its registry, or is over. -/
def Settled (s : Session) (t : TaskId) : Prop :=
  s.Over t ∨ ((s.phase? t).bind Phase.placed?).isSome

/-- A call that has installed its registry cannot fail any more. -/
theorem Settled.move (h : s.Settled t) (hs : s.Numbered) (m : Move server s e s') :
    s'.Settled t ∧ (e.task = t → ¬ e.fails) := by
  -- A call that is over does nothing any more; one that has installed its registry can neither be
  -- given up nor fail.
  rcases h with hover | hplaced
  · obtain ⟨hover', hcall⟩ := hover.move hs m
    refine ⟨.inl hover', fun ht hfails => ?_⟩
    have hend := m.isEnd_of_fails hfails
    rw [Event.isEnd, hcall ht] at hend
    cases hend
  · have hbefore := m.phase?_task hs
    have hphase := m.phase?_eq hs t
    by_cases ht : e.task = t
    · subst ht
      rw [hbefore] at hplaced
      rw [if_pos rfl] at hphase
      cases e with
      | began => cases hplaced
      | dropped t p =>
        cases m with
        | drop _ hi =>
          rw [Event.before?, Option.bind_some, Phase.placed?_of_interruptible hi] at hplaced
          cases hplaced
      | advanced t p p' effects =>
        obtain ⟨-, next, hstep, -⟩ := m.step
        obtain ⟨hnext, hfails⟩ := hstep.settled hplaced
        refine ⟨?_, fun _ => hfails⟩
        rcases hnext with hplaced' | hdone
        · exact .inr (hphase ▸ hplaced')
        · refine .inl (m.over hs ?_)
          rw [Event.isEnd, Event.call?, hstep.call?_isSome, Event.after?, Option.bind_some, hdone]
          rfl
    · rw [if_neg (Ne.symm ht)] at hphase
      exact ⟨.inr (hphase ▸ hplaced), fun h => absurd h ht⟩

/-- Nor does it later. -/
theorem Settled.run (h : s.Settled t) (hs : s.Numbered) (hrun : Run server s es s') :
    ∀ e ∈ es, e.task = t → ¬ e.fails := by
  suffices s'.Settled t ∧ ∀ e ∈ es, e.task = t → ¬ e.fails from this.2
  induction hrun with
  | nil => exact ⟨h, by simp⟩
  | @snoc es s₁ s₂ e hrun m ih =>
    obtain ⟨hsettled, hes⟩ := ih
    obtain ⟨hsettled', he⟩ := hsettled.move (hrun.keeps (fun m hs => m.numbered hs) hs) m
    refine ⟨hsettled', fun f hf => ?_⟩
    rcases List.mem_append.1 hf with hf | hf
    · exact hes f hf
    · cases List.mem_singleton.1 hf
      exact he

/-- **A call that fails changes neither the cell nor the barrier**, at no time. -/
theorem Run.shared_of_fails (hpre : Run server (new loader) pre s) (m : Move server s e s')
    (hpost : Run server s' post s'') (hf : f ∈ pre ++ e :: post) (hfails : f.fails)
    (ht : f.task = e.task) : s'.cell = s.cell ∧ s'.barrier = s.barrier := by
  refine m.shared_eq (Option.not_isSome_iff_eq_none.1 fun hplaced => ?_)
  obtain ⟨hcall, hnot⟩ := m.not_fails_of_placed hplaced
  have hs := hpre.numbered
  rcases List.mem_append.1 hf with hf | hf
  · -- The call would go on after its end.
    obtain ⟨_, _, _, _, -, -, m', -⟩ := hpre.exists_move hf
    rw [hpre.call?_of_isEnd m hf (m'.isEnd_of_fails hfails) ht.symm] at hcall
    cases hcall
  · rcases List.mem_cons.1 hf with rfl | hf
    · exact hnot hfails
    · have hsettled : s'.Settled e.task := by
        refine .inr ?_
        rwa [m.phase?_eq hs, if_pos rfl]
      exact hsettled.run (m.numbered hs) hpost f hf ht hfails

/-! ## The register

What the phase remembers at the moment of a return is what the call has sent and installed
before. -/

/-- A registry is installed by a call that has built it from the answer to its one request. -/
theorem Run.made_of_installed {builder : Builder} {b : Build} (hpre : Run server (new loader) pre s)
    (m : Move server s e s') (hx : e.installed? = some (builder, b)) :
    loader.Builds (server b.request) b.registry ∧
      (calls e.task pre).filterMap Event.sent? = [b.request] := by
  cases e with
  | began | dropped => cases hx
  | advanced t p p' effects =>
    obtain ⟨hp, next, hstep, -⟩ := m.step
    cases hstep with
    | loadInstall hbuild =>
      cases hx
      exact ⟨hpre.loader_eq ▸ Loader.builds_of_build hbuild, hpre.sent_eq hp rfl⟩
    | reloadInstall =>
      cases hx
      exact ⟨hpre.builds hp rfl, hpre.sent_eq hp rfl⟩
    | _ => cases hx

/-- A reload that returns has installed what it returns. -/
theorem Run.installed_of_reload {b : Build} (hpre : Run server (new loader) pre s)
    (m : Move server s e s') (hr : e.returned? = some (.reload, .loaded b)) :
    (calls e.task pre).filterMap Event.installed? = [(.reload, b)] := by
  cases e with
  | began | dropped => cases hr
  | advanced t p p' effects =>
    obtain ⟨hp, next, hstep, -⟩ := m.step
    cases hstep with
    | reloadReturn =>
      cases hr
      exact hpre.installed_eq hp rfl
    | _ => cases hr

/-- Whoever returns has begun. -/
theorem Run.began_of_returned {call : Call} {o : Outcome} (hpre : Run server (new loader) pre s)
    (m : Move server s e s') (hr : e.returned? = some (call, o)) : .began e.task call ∈ pre := by
  cases e with
  | began | dropped => cases hr
  | advanced t p p' effects =>
    cases p' with
    | done o' =>
      obtain ⟨call', hcall, heq⟩ := Option.map_eq_some_iff.1 hr
      cases heq
      exact hpre.began_of_phase? m.step.1 hcall
    | _ => cases hr

/-- **The cell is a register.**  Take any move `e` in the middle of any run.

* The cell holds what was installed last, and a move that installs nothing leaves it alone.
* A registry is installed by a call that has sent one request, of which it was built: the answer was
  a text, the text was parsed, and what it says made up the registry.  No two requests have the same
  number.
* If the call fails or is given up, sooner or later, the move changes neither the cell nor the
  barrier.
* A reload returns the registry that it has installed itself.
* Any other call that does not fail returns what is in the cell at that moment, after it has
  begun. -/
theorem register (hpre : Run server (new loader) pre s) (m : Move server s e s')
    (hpost : Run server s' post s'') :
    (s.cell = (pre.filterMap Event.installed?).getLast?.map Prod.snd ∧
      (e.installed? = none → s'.cell = s.cell)) ∧
    (∀ builder b, e.installed? = some (builder, b) →
      s'.cell = some b ∧ loader.Builds (server b.request) b.registry ∧
        (calls e.task pre).filterMap Event.sent? = [b.request] ∧
        pre.filterMap Event.sent? = List.range s.requests) ∧
    (∀ f ∈ pre ++ e :: post, f.fails → f.task = e.task →
      s'.cell = s.cell ∧ s'.barrier = s.barrier) ∧
    (∀ b, e.returned? = some (.reload, .loaded b) →
      (calls e.task pre).filterMap Event.installed? = [(.reload, b)]) ∧
    (∀ call o, e.returned? = some (call, o) → call ≠ .reload → (∀ error, o ≠ .failed error) →
      s.current = o ∧ .began e.task call ∈ pre) := by
  refine ⟨⟨hpre.cell_eq, m.cell_of_not_installed⟩, ?_, ?_, ?_, ?_⟩
  · intro builder b hx
    obtain ⟨hbuilds, hsent⟩ := hpre.made_of_installed m hx
    refine ⟨?_, hbuilds, hsent, hpre.sent_range⟩
    rw [m.cell_eq, hx]
    rfl
  · intro f hf hfails ht
    exact hpre.shared_of_fails m hpost hf hfails ht
  · intro b hr
    exact hpre.installed_of_reload m hr
  · intro call o hr hcall ho
    exact ⟨hpre.informed.current_of_returned m hr hcall ho, hpre.began_of_returned m hr⟩

/-- A reload fetches a registry; before it has the lock, a load that began later has put another one
into the cell, and a second reload has sent a request. -/
def overtaken : List Choice :=
  [.begin .reload, .advance 0,
    .begin .load, .advance 1, .advance 1, .advance 1, .advance 1, .advance 1, .advance 1,
    .advance 1, .advance 1, .begin .reload, .advance 2, .advance 0]

/-- The first reload returns, and the second one fails. -/
def windUp : List Choice := [.advance 2, .advance 0, .advance 0, .advance 0, .advance 0]

/-- The slow reload replaces what the load has built by what it was sent before. -/
theorem register_overtaken :
    ∃ pre s e s' post s'' b, Run rushServer (new .default) pre s ∧ Move rushServer s e s' ∧
      Run rushServer s' post s'' ∧ e.installed? = some (.reload, b) ∧
      s.cell.map (·.registry.names) = some ["Widget"] ∧ b.registry.names = ["Gadget"] ∧
      s'.cell = some b ∧ Loader.default.Builds (rushServer b.request) b.registry ∧
      (calls e.task pre).filterMap Event.sent? = [b.request] := by
  obtain ⟨pre, s, hpre, hs⟩ := exists_run_of_follow rushServer overtaken (new .default)
    (fun _ s => s.cell.map (·.registry.names) == some ["Widget"] &&
      (s.choose rushServer (.advance 0)).any fun r =>
        (r.1.installed?.any fun x => x.1 == .reload && x.2.registry.names == ["Gadget"]) &&
          (follow rushServer windUp r.2).isSome) (by decide +kernel)
  simp only [Bool.and_eq_true, beq_iff_eq, Option.any_eq_true] at hs
  obtain ⟨hcell, ⟨e, s'⟩, hchoose, ⟨⟨builder, b⟩, hx, rfl, hnames⟩, hfollow⟩ := hs
  obtain ⟨⟨post, s''⟩, hfollow⟩ := Option.isSome_iff_exists.1 hfollow
  have m := move_of_choose hchoose
  have hpost := run_of_follow hfollow
  obtain ⟨-, hinstalled, -, -, -⟩ := register hpre m hpost
  obtain ⟨hcell', hbuilds, hsent, -⟩ := hinstalled .reload b hx
  exact ⟨pre, s, e, s', post, s'', b, hpre, m, hpost, hx, hcell, hnames, hcell', hbuilds, hsent⟩

end Session
end RemoteModels
