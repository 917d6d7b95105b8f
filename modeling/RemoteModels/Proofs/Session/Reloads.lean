import RemoteModels.Proofs.Session.Register

/-!
# Which reload prevails

A reload fetches and builds without the lock and takes it only to put its registry into the cell.
So registries are installed in the order in which their calls get the lock, which need not be the
order of their requests: a reload whose answer is late puts its registry over one that was asked for
after it.  This takes two calls that have requests under way at the same time; a request that is
sent when all earlier ones have been dealt with has its registry installed after theirs.

* `Session.Traced`, `Session.Run.traced` — what becomes of a request: it is under way, its registry
  has been installed, no registry can be built from its answer, or its call was given up.
* `Session.Run.nodup_installs` — no request has its registry installed twice.
* `Session.Run.overlap_of_replaced` — a registry that was asked for later is replaced by a reload
  only, and only if that reload's request was under way when the other one was sent.
* `Session.last_install_prevails` — the registry at the end, when all calls have finished.
* `Session.reload_lost` — two reloads, of which the one that asked first prevails.
-/

set_option autoImplicit false

namespace RemoteModels
namespace Session

variable {server : Nat → TextAnswer} {s s' s'' next : Session} {t u : TaskId} {p p' : Phase}
  {effects : Effects} {e f g : Event} {es es' pre post : List Event} {loader : Loader} {n : Nat}
  {b c : Build}

/-! ## Runs cut in two

A run is built up at its end, but what is said about two installations has to name the moves in the
middle. -/

theorem Run.exists_of_concat (h : Run server s (es ++ [e]) s'') :
    ∃ s', Run server s es s' ∧ Move server s' e s'' := by
  generalize hl : es ++ [e] = l at h
  cases h with
  | nil => simp at hl
  | snoc h m =>
    obtain ⟨rfl, hlast⟩ := List.append_inj' hl rfl
    cases hlast
    exact ⟨_, h, m⟩

theorem Run.exists_of_append (h : Run server s (es ++ es') s'') :
    ∃ s', Run server s es s' ∧ Run server s' es' s'' := by
  generalize hl : es ++ es' = l at h
  induction h generalizing es' with
  | nil =>
    obtain ⟨rfl, rfl⟩ := List.append_eq_nil_iff.1 hl
    exact ⟨s, .nil, .nil⟩
  | @snoc l s₁ s₂ e h m ih =>
    rcases List.eq_nil_or_concat es' with rfl | ⟨front, last, rfl⟩
    · rw [List.append_nil] at hl
      subst hl
      exact ⟨s₂, h.snoc m, .nil⟩
    · rw [List.concat_eq_append, ← List.append_assoc] at hl
      obtain ⟨hfront, hlast⟩ := List.append_inj' hl rfl
      cases hlast
      obtain ⟨s', hes, hrest⟩ := ih hfront
      rw [List.concat_eq_append]
      exact ⟨s', hes, hrest.snoc m⟩

/-- Any event of a run is a move between two runs. -/
theorem Run.exists_move_at (h : Run server s (pre ++ e :: post) s'') :
    ∃ s₁ s₂, Run server s pre s₁ ∧ Move server s₁ e s₂ ∧ Run server s₂ post s'' := by
  rw [← List.singleton_append, ← List.append_assoc] at h
  obtain ⟨s₂, hfront, hpost⟩ := h.exists_of_append
  obtain ⟨s₁, hpre, m⟩ := hfront.exists_of_concat
  exact ⟨s₁, s₂, hpre, m, hpost⟩

/-! ## What becomes of a request

There are four cases.  A request that is under way may come to any of the others, and those last, as
they speak of the past or of the server alone. -/

/-- The registries that are put into the cell, one after the other. -/
def installs (es : List Event) : List Build := (es.filterMap Event.installed?).map Prod.snd

theorem installs_append (es es' : List Event) :
    installs (es ++ es') = installs es ++ installs es' := by
  rw [installs, List.filterMap_append, List.map_append, installs, installs]

theorem mem_installs :
    b ∈ installs es ↔ ∃ e ∈ es, ∃ builder, e.installed? = some (builder, b) := by
  rw [installs, List.mem_map]
  constructor
  · rintro ⟨⟨builder, b⟩, hx, rfl⟩
    obtain ⟨e, he, hb⟩ := List.mem_filterMap.1 hx
    exact ⟨e, he, builder, hb⟩
  · rintro ⟨e, he, builder, hb⟩
    exact ⟨(builder, b), List.mem_filterMap.2 ⟨e, he, hb⟩, rfl⟩

/-- What becomes of a request. -/
inductive Traced (server : Nat → TextAnswer) (loader : Loader) (es : List Event) (s : Session)
    (n : Nat) : Prop
  /-- A call has sent it and has not installed a registry yet. -/
  | pending {t : TaskId} {p : Phase} (hp : s.phase? t = some p) (hn : p.request? = some n)
      (hplaced : p.placed? = none)
  | installed {b : Build} (hb : b ∈ installs es) (hn : b.request = n)
  | failed (h : ∀ r, ¬ loader.Builds (server n) r)
  | givenUp {t : TaskId} {p : Phase} (h : .dropped t p ∈ es) (hn : p.request? = some n)

/-- An answer that is refused builds nothing. -/
theorem not_builds_of_build {answer : TextAnswer} {error : LoadError} {logs : List LogEntry}
    (h : loader.build answer = (.error error, logs)) (r : Registry) : ¬ loader.Builds answer r := by
  intro hr
  rw [Loader.builds_iff, h] at hr
  cases hr

/-- A call with a request under way goes on with it, installs its registry, or fails. -/
theorem Step.traced (h : Step server s t p p' next effects) (hn : p.request? = some n)
    (hplaced : p.placed? = none) :
    (p'.request? = some n ∧ p'.placed? = none) ∨
      (∃ builder b, (Event.advanced t p p' effects).installed? = some (builder, b) ∧
        b.request = n) ∨
      ∀ r, ¬ s.loader.Builds (server n) r := by
  cases h with
  | loadInstall hb =>
    cases hn
    exact .inr (.inl ⟨_, _, rfl, rfl⟩)
  | loadFail hb | reloadFail hb =>
    cases hn
    exact .inr (.inr (not_builds_of_build hb))
  | reloadAsk hb =>
    cases hn
    exact .inl ⟨rfl, rfl⟩
  | reloadInstall hl =>
    cases hn
    exact .inr (.inl ⟨_, _, rfl, rfl⟩)
  | loadCount | reloadRelease | reloadCount | tell | loadReturn | reloadReturn => cases hplaced
  | _ => cases hn

/-- Whoever sends a request has it under way afterwards. -/
theorem Move.phase?_of_sent (m : Move server s e s') (hs : s.Numbered) (hn : e.sent? = some n) :
    ∃ p, s'.phase? e.task = some p ∧ p.request? = some n ∧ p.placed? = none := by
  rw [m.phase?_eq hs, if_pos rfl]
  cases e with
  | began | dropped => cases hn
  | advanced t p p' effects =>
    refine ⟨p', rfl, ?_⟩
    cases p' with
    | loadFetch | reloadFetch =>
      cases hn
      exact ⟨rfl, rfl⟩
    | _ => cases hn

/-- A request that was accounted for stays so. -/
theorem Traced.move (h : Traced server s.loader es s n) (hs : s.Numbered)
    (m : Move server s e s') : Traced server s.loader (es ++ [e]) s' n := by
  cases h with
  | @pending t p hp hn hplaced =>
    have hphase := m.phase?_eq hs t
    have hbefore := m.phase?_task hs
    -- A request under way is touched by a move of its own call only.
    by_cases ht : t = e.task
    · subst ht
      rw [hbefore] at hp
      rw [if_pos rfl] at hphase
      cases e with
      | began => cases hp
      | dropped t q =>
        cases hp
        exact .givenUp (List.mem_append_right _ List.mem_cons_self) hn
      | advanced t q q' effects =>
        cases hp
        obtain ⟨-, next, hstep, -⟩ := m.step
        rcases hstep.traced hn hplaced with ⟨hn', hplaced'⟩ | ⟨builder, b, hb, hn'⟩ | hfail
        · exact .pending hphase hn' hplaced'
        · refine .installed (mem_installs.2 ⟨_, ?_, builder, hb⟩) hn'
          exact List.mem_append_right _ List.mem_cons_self
        · exact .failed hfail
    · rw [if_neg ht] at hphase
      exact .pending (hphase.trans hp) hn hplaced
  | installed hb hn => exact .installed (installs_append es [e] ▸ List.mem_append_left _ hb) hn
  | failed hfail => exact .failed hfail
  | givenUp hdrop hn => exact .givenUp (List.mem_append_left _ hdrop) hn

/-- **Every request that was sent is accounted for.** -/
theorem Run.traced (h : Run server (new loader) es s) (hn : n ∈ es.filterMap Event.sent?) :
    Traced server loader es s n := by
  induction h with
  | nil => cases hn
  | @snoc es s s' e h m ih =>
    rw [List.filterMap_append, List.mem_append] at hn
    rcases hn with hn | hn
    · have htraced := ih hn
      rw [← h.loader_eq] at htraced ⊢
      exact htraced.move h.numbered m
    · obtain ⟨f, hf, hsent⟩ := List.mem_filterMap.1 hn
      cases List.mem_singleton.1 hf
      obtain ⟨p, hp, hrequest, hplaced⟩ := m.phase?_of_sent h.numbered hsent
      exact .pending hp hrequest hplaced

/-! ## One installation for a request

Two installations for one request would come from two calls, or twice from one.  Numbers of requests
are given once, and a call installs once. -/

theorem Move.sent_eq (m : Move server s e s') (hn : e.sent? = some n) : n = s.requests := by
  cases e with
  | began | dropped => cases hn
  | advanced t p p' effects =>
    obtain ⟨-, next, hstep, -⟩ := m.step
    cases hstep with
    | loadSend | reloadSend =>
      cases hn
      rfl
    | _ => cases hn

/-- What was sent before the request with the number `n`. -/
theorem Run.sent_before (h : Run server (new loader) (pre ++ e :: post) s)
    (hn : e.sent? = some n) : pre.filterMap Event.sent? = List.range n := by
  obtain ⟨s₁, s₂, hpre, m, -⟩ := h.exists_move_at
  rw [hpre.sent_range, m.sent_eq hn]

/-- No two events send the same request. -/
theorem Run.eq_of_sent (h : Run server (new loader) es s) (he : e ∈ es) (hf : f ∈ es)
    (hen : e.sent? = some n) (hfn : f.sent? = some n) : e = f := by
  obtain ⟨pre, post, rfl⟩ := List.append_of_mem he
  rcases List.mem_append.1 hf with hf | hf
  · have hmem : n ∈ pre.filterMap Event.sent? := List.mem_filterMap.2 ⟨f, hf, hfn⟩
    simp [h.sent_before hen] at hmem
  · rcases List.mem_cons.1 hf with rfl | hf
    · rfl
    · obtain ⟨mid, rest, rfl⟩ := List.append_of_mem hf
      have hsplit : pre ++ e :: (mid ++ f :: rest) = (pre ++ e :: mid) ++ f :: rest := by simp
      rw [hsplit] at h
      have hmem : n ∈ (pre ++ e :: mid).filterMap Event.sent? :=
        List.mem_filterMap.2 ⟨e, by simp, hen⟩
      simp [h.sent_before hfn] at hmem

/-- A call that installs a registry has sent its request, and has installed none before. -/
theorem Run.sent_of_installed {builder : Builder} (h : Run server (new loader) es s)
    (he : e ∈ es) (hb : e.installed? = some (builder, b)) :
    ∃ f ∈ es, f.task = e.task ∧ f.sent? = some b.request := by
  obtain ⟨pre, post, s₁, s₂, rfl, hpre, m, -⟩ := h.exists_move he
  have hsent := (hpre.made_of_installed m hb).2
  have hmem : b.request ∈ (calls e.task pre).filterMap Event.sent? := by simp [hsent]
  obtain ⟨f, hf, hfn⟩ := List.mem_filterMap.1 hmem
  obtain ⟨hf, htask⟩ := List.mem_filter.1 hf
  exact ⟨f, List.mem_append_left _ hf, beq_iff_eq.1 htask, hfn⟩

/-- A call installs nothing before it installs. -/
theorem Run.calls_installed {x : Builder × Build} (h : Run server (new loader) es s)
    (m : Move server s e s') (hx : e.installed? = some x) :
    (calls e.task es).filterMap Event.installed? = [] := by
  cases e with
  | began | dropped => cases hx
  | advanced t p p' effects =>
    obtain ⟨hp, next, hstep, -⟩ := m.step
    cases hstep with
    | loadInstall | reloadInstall => exact h.installed_eq hp rfl
    | _ => cases hx

/-- **No request has its registry installed twice.** -/
theorem Run.nodup_installs (h : Run server (new loader) es s) :
    ((installs es).map (·.request)).Nodup := by
  induction h with
  | nil => exact .nil
  | @snoc es s s' e h m ih =>
    rw [installs_append, List.map_append, List.nodup_append]
    refine ⟨ih, ?_, ?_⟩
    · cases he : e.installed? <;> simp [installs, he]
    · intro n hold k hnew hnk
      subst hnk
      obtain ⟨c, hc, hcn⟩ := List.mem_map.1 hold
      obtain ⟨b, hb, hbn⟩ := List.mem_map.1 hnew
      obtain ⟨f, hf, builder, hfc⟩ := mem_installs.1 hc
      obtain ⟨e', he', builder', heb⟩ := mem_installs.1 hb
      cases List.mem_singleton.1 he'
      -- The two calls have sent the same request, so they are one call, which installs twice.
      obtain ⟨g, hg, hgf, hgn⟩ := h.sent_of_installed hf hfc
      obtain ⟨g', hg', hge, hgn'⟩ := (h.snoc m).sent_of_installed (by simp) heb
      have hsame : g = g' :=
        (h.snoc m).eq_of_sent (List.mem_append_left _ hg) hg' (hcn ▸ hgn) (hbn ▸ hgn')
      have hcalls := h.calls_installed m heb
      have hmem : (builder, c) ∈ (calls e.task es).filterMap Event.installed? := by
        refine List.mem_filterMap.2 ⟨f, List.mem_filter.2 ⟨hf, ?_⟩, hfc⟩
        rw [beq_iff_eq, ← hgf, hsame, hge]
      rw [hcalls] at hmem
      cases hmem

/-! ## Which registry replaces which

A load fills an empty cell only, so whatever replaces a registry is a reload.  If its request is the
older one, it must have been under way when the other one was sent, because it was not installed by
then. -/

/-- A registry is installed after its request was sent. -/
theorem Run.sent_of_mem_installs (h : Run server (new loader) es s) (hb : b ∈ installs es) :
    b.request ∈ es.filterMap Event.sent? := by
  obtain ⟨e, he, builder, hx⟩ := mem_installs.1 hb
  obtain ⟨f, hf, -, hfn⟩ := h.sent_of_installed he hx
  exact List.mem_filterMap.2 ⟨f, hf, hfn⟩

/-- The cell holds the last registry that was installed. -/
theorem Run.cell_eq_installs (h : Run server (new loader) es s) :
    s.cell = (installs es).getLast? := by
  rw [h.cell_eq, installs, List.getLast?_map]

/-- **A registry that was asked for later is replaced by a reload only, and only if the reload's
request was under way when the other one was sent.** -/
theorem Run.overlap_of_replaced {builder : Builder}
    (h : Run server (new loader) (pre ++ e :: post) s) (hb : (installs pre).getLast? = some b)
    (hc : e.installed? = some (builder, c)) (hlt : c.request < b.request) :
    builder = .reload ∧ ∃ before f after, pre = before ++ f :: after ∧
      f.sent? = some b.request ∧ c.request ∈ before.filterMap Event.sent? ∧
      c ∉ installs before := by
  obtain ⟨s₁, s₂, hpre, m, -⟩ := h.exists_move_at
  constructor
  · cases builder with
    | reload => rfl
    | load =>
      -- A load finds the cell empty.
      have hcell := hpre.informed.cell_of_installed m hc
      rw [hpre.cell_eq_installs, hb] at hcell
      cases hcell
  · have hsent := hpre.sent_of_mem_installs (List.mem_of_getLast? hb)
    obtain ⟨f, hf, hfb⟩ := List.mem_filterMap.1 hsent
    obtain ⟨before, after, rfl⟩ := List.append_of_mem hf
    refine ⟨before, f, after, rfl, hfb, ?_, fun hold => ?_⟩
    · rw [hpre.sent_before hfb]
      exact List.mem_range.2 hlt
    · -- It is installed now, and not twice.
      have hnodup := (hpre.snoc m).nodup_installs
      rw [installs_append, List.map_append, List.nodup_append] at hnodup
      refine hnodup.2.2 c.request ?_ c.request ?_ rfl
      · rw [installs_append]
        exact List.mem_map_of_mem (List.mem_append_left _ hold)
      · exact List.mem_map_of_mem (mem_installs.2 ⟨e, by simp, builder, hc⟩)

/-- **A registry prevails if all others were installed before its request was sent.** -/
theorem Run.cell_of_quiet (h : Run server (new loader) (pre ++ e :: post) s)
    (hsent : e.sent? = some b.request) (hb : b ∈ installs (pre ++ e :: post))
    (hquiet : ∀ c ∈ installs (pre ++ e :: post), c ≠ b → c ∈ installs pre) : s.cell = some b := by
  obtain ⟨s₁, s₂, hpre, m, -⟩ := h.exists_move_at
  have hnodup := h.nodup_installs
  rw [installs_append, List.map_append, List.nodup_append] at hnodup
  rw [h.cell_eq_installs]
  rw [installs_append] at hb hquiet ⊢
  have hlate : b ∈ installs (e :: post) := by
    refine (List.mem_append.1 hb).resolve_left fun hearly => ?_
    have hmem := hpre.sent_of_mem_installs hearly
    simp [h.sent_before hsent] at hmem
  cases hlast : (installs (e :: post)).getLast? with
  | none =>
    rw [List.getLast?_eq_none_iff.1 hlast] at hlate
    cases hlate
  | some c =>
    have hc := List.mem_of_getLast? hlast
    by_cases hcb : c = b
    · rw [List.getLast?_append, hlast, hcb]
      rfl
    · have hearly := hquiet c (List.mem_append_right _ hc) hcb
      exact absurd rfl
        (hnodup.2.2 c.request (List.mem_map_of_mem hearly) c.request (List.mem_map_of_mem hc))

/-! ## When all calls have finished

No request is under way then and none was given up, which leaves two of the four cases. -/

/-- All calls have returned, and none was given up before. -/
structure Finished (es : List Event) (s : Session) : Prop where
  returned : ∀ t p, s.phase? t = some p → p.call? = none
  kept : ∀ t p, .dropped t p ∈ es → p.call? = none

/-- A phase with a request belongs to a call. -/
theorem call?_isSome_of_request? (h : p.request? = some n) : p.call?.isSome := by
  revert h
  fun_cases Phase.request? p <;> simp [Phase.call?]

/-- What was installed was built from the answer to its request. -/
theorem Run.builds_of_mem_installs (h : Run server (new loader) es s) (hb : b ∈ installs es) :
    loader.Builds (server b.request) b.registry := by
  obtain ⟨e, he, builder, hx⟩ := mem_installs.1 hb
  obtain ⟨pre, post, s₁, s₂, rfl, hpre, m, -⟩ := h.exists_move he
  exact (hpre.made_of_installed m hx).1

/-- Registries built from the answer to one request are the same. -/
theorem eq_of_builds (hb : loader.Builds (server b.request) b.registry)
    (hc : loader.Builds (server c.request) c.registry) (hn : c.request = b.request) : c = b := by
  obtain ⟨k, r⟩ := b
  obtain ⟨k', r'⟩ := c
  obtain rfl : k' = k := hn
  exact congrArg (Build.mk k') (hc.unique hb)

/-- **In the end every registry that could be built has been installed**, and no other. -/
theorem Run.mem_installs_iff (h : Run server (new loader) es s) (hf : Finished es s) :
    b ∈ installs es ↔
      b.request < s.requests ∧ loader.Builds (server b.request) b.registry := by
  have hsent : b.request ∈ es.filterMap Event.sent? ↔ b.request < s.requests := by
    rw [h.sent_range, List.mem_range]
  constructor
  · intro hb
    exact ⟨hsent.1 (h.sent_of_mem_installs hb), h.builds_of_mem_installs hb⟩
  · rintro ⟨hlt, hbuilds⟩
    cases h.traced (hsent.2 hlt) with
    | pending hp hn =>
      have hcall := call?_isSome_of_request? hn
      rw [hf.returned _ _ hp] at hcall
      cases hcall
    | installed hc hn => exact eq_of_builds hbuilds (h.builds_of_mem_installs hc) hn ▸ hc
    | failed hfail => exact absurd hbuilds (hfail _)
    | givenUp hdrop hn =>
      have hcall := call?_isSome_of_request? hn
      rw [hf.kept _ _ hdrop] at hcall
      cases hcall

/-- **The registry that was installed last prevails.**  When all calls have finished:

* The registries that were installed are those that could be built from the answer to some request,
  each once, and the cell holds the last of them.
* A registry is replaced by one that was asked for before it only by a reload, and only if that
  reload's request had been sent, and its registry not been installed, when the other request was
  sent.
* So if the last request from which a registry could be built was sent when the registries of all
  others had been installed, its registry is in the cell. -/
theorem last_install_prevails (h : Run server (new loader) es s) (hf : Finished es s) :
    (s.cell = (installs es).getLast? ∧ ((installs es).map (·.request)).Nodup ∧
      ∀ b, b ∈ installs es ↔
        b.request < s.requests ∧ loader.Builds (server b.request) b.registry) ∧
    (∀ pre e post b builder c, es = pre ++ e :: post → (installs pre).getLast? = some b →
      e.installed? = some (builder, c) → c.request < b.request →
      builder = .reload ∧ ∃ before f after, pre = before ++ f :: after ∧
        f.sent? = some b.request ∧ c.request ∈ before.filterMap Event.sent? ∧
        c ∉ installs before) ∧
    (∀ pre e post b, es = pre ++ e :: post → e.sent? = some b.request → b ∈ installs es →
      (∀ c ∈ installs es, c.request ≤ b.request) →
      (∀ c ∈ installs es, c.request < b.request → c ∈ installs pre) → s.cell = some b) := by
  refine ⟨⟨h.cell_eq_installs, h.nodup_installs, fun b => h.mem_installs_iff hf⟩, ?_, ?_⟩
  · rintro pre e post b builder c rfl hb hc hlt
    exact h.overlap_of_replaced hb hc hlt
  · rintro pre e post b rfl hsent hb hlast hquiet
    refine h.cell_of_quiet hsent hb fun c hc hne => hquiet c hc ?_
    refine Nat.lt_of_le_of_ne (hlast c hc) fun heq => hne ?_
    exact eq_of_builds (h.builds_of_mem_installs hb) (h.builds_of_mem_installs hc) heq

/-! ## A reload that is lost

The last request is the second one, and it was answered; yet in the end nothing is left of its
answer. -/

/-- Whether the event gives no call up. -/
def Event.keeps : Event → Bool
  | .dropped _ phase => phase.call?.isNone
  | _ => true

/-- Whether all calls have finished. -/
def finishes (es : List Event) (s : Session) : Bool :=
  s.tasks.all (·.2.call?.isNone) && es.all Event.keeps

/-- This can be checked on a run that is given. -/
theorem finished_of_finishes (h : finishes es s) : Finished es s := by
  rw [finishes, Bool.and_eq_true, List.all_eq_true, List.all_eq_true] at h
  constructor
  · intro t p hp
    obtain ⟨q, hq, rfl⟩ := Option.map_eq_some_iff.1 hp
    exact Option.isNone_iff_eq_none.1 (h.1 q (List.mem_of_find?_eq_some hq))
  · intro t p hdrop
    exact Option.isNone_iff_eq_none.1 (h.2 _ hdrop)

/-- A reload sends its request; before it is answered, a second reload sends one, installs its
registry and returns; then the first one does. -/
def lateAnswer : List Choice :=
  [.begin .reload, .advance 0, .begin .reload] ++ List.replicate 7 (.advance 1) ++
    List.replicate 6 (.advance 0)

/-- Whether the run comes to this: the first reload installs its registry over the second one's. -/
def overwrites (es : List Event) (s : Session) : Bool :=
  finishes es s && (installs es).map (fun b => (b.request, b.registry.names))
    == [(1, ["Widget"]), (0, ["Gadget"])]

theorem exists_lateAnswer : ∃ es s b c, Run rushServer (new .default) es s ∧ Finished es s ∧
    installs es = [b, c] ∧ b.request = 1 ∧ b.registry.names = ["Widget"] ∧
    c.request = 0 ∧ c.registry.names = ["Gadget"] := by
  obtain ⟨es, s, hrun, hP⟩ := exists_run_of_follow rushServer lateAnswer (new .default) overwrites
    (by decide +kernel)
  rw [overwrites, Bool.and_eq_true, beq_iff_eq] at hP
  obtain ⟨hfinishes, hinstalls⟩ := hP
  obtain ⟨b, rest, hb, hbx, hrest⟩ := List.map_eq_cons_iff.1 hinstalls
  obtain ⟨c, last, hc, hcx, hlast⟩ := List.map_eq_cons_iff.1 hrest
  rw [List.map_eq_nil_iff] at hlast
  rw [Prod.mk.injEq] at hbx hcx
  subst hlast
  exact ⟨es, s, b, c, hrun, finished_of_finishes hfinishes, hc ▸ hb, hbx.1, hbx.2, hcx.1, hcx.2⟩

/-- The reload that asked last has built its registry and installed it; in the end the cell holds
the registry that was asked for before. -/
theorem reload_lost : ∃ es s b c, Run rushServer (new .default) es s ∧ Finished es s ∧
    b ∈ installs es ∧ b.request = 1 ∧ b.registry.names = ["Widget"] ∧
    s.cell = some c ∧ c.request = 0 ∧ c.registry.names = ["Gadget"] := by
  obtain ⟨es, s, b, c, hrun, hfinished, hinstalls, hb, hbnames, hc, hcnames⟩ := exists_lateAnswer
  refine ⟨es, s, b, c, hrun, hfinished, by simp [hinstalls], hb, hbnames, ?_, hc, hcnames⟩
  rw [hrun.cell_eq_installs, hinstalls]
  rfl

/-- Both requests of that run have their registries installed, and the last one is in the cell. -/
theorem last_install_prevails_late : ∃ es s, Run rushServer (new .default) es s ∧
    Finished es s ∧ s.cell.map (·.registry.names) = some ["Gadget"] ∧
    ∀ b, b ∈ installs es ↔
      b.request < s.requests ∧ Loader.default.Builds (rushServer b.request) b.registry := by
  obtain ⟨es, s, b, c, hrun, hfinished, hinstalls, -, -, -, hcnames⟩ := exists_lateAnswer
  obtain ⟨⟨hcell, -, hbuilds⟩, -, -⟩ := last_install_prevails hrun hfinished
  refine ⟨es, s, hrun, hfinished, ?_, hbuilds⟩
  rw [hcell, hinstalls]
  exact congrArg some hcnames

end Session
end RemoteModels
