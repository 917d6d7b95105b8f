import RemoteModels.Proofs.Session.Cell

/-!
# One fetch at a time

A load looks at the cell twice, first as a reader and then, if the cell was empty, as the writer,
and sends its request only if the cell is empty still.  It keeps the lock until the answer has been
dealt with.  So loads fetch one after the other and never after a registry has been installed, by
whomever; and since a load that fails leaves the cell empty, the next one tries again.

The requests of loads are therefore accounted for: each is still under way, or was wasted, or built
the one registry that a load ever installs.

* `Session.InFlight` — a load has a request under way; `Session.Flights` — how many have, which is
  one at most.
* `Session.Move.balance`, `Session.Run.balance` — the account, for a move and for a run.
* `Session.singleFlight` — what follows for clients.
-/

set_option autoImplicit false

namespace RemoteModels

/-- A load whose request is under way. -/
def Phase.isFetch : Phase → Bool
  | .loadFetch _ => true
  | _ => false

/-- A load keeps the lock while it fetches. -/
theorem Phase.owns_of_isFetch {p : Phase} (h : p.isFetch) : p.owns := by
  cases p with
  | loadFetch => rfl
  | _ => cases h

namespace Session

variable {server : Nat → TextAnswer} {s s' next : Session} {t u : TaskId} {p p' : Phase}
  {effects : Effects} {e : Event} {es : List Event} {loader : Loader} {k : Nat}

/-! ## What becomes of the requests of loads

The account is kept in numbers.  Each event adds to one side what it adds to the other, so that it
can be summed up along a run. -/

namespace Event

/-- The requests that are sent by a load. -/
def loadRequests (e : Event) : List Request := if e.call? = some .load then e.requests else []

/-- A load that has built a registry fills the cell. -/
def isLoadInstall (e : Event) : Bool := e.installed?.any (·.1 == .load)

/-- A load ends without a registry although it has sent a request: it fails, or it is given up. -/
def isWaste : Event → Bool
  | .advanced _ before (.done (.failed _)) _ => before.call? == some .load
  | .dropped _ phase => phase.isFetch
  | _ => false

theorem exists_of_isLoadInstall (h : e.isLoadInstall) : ∃ b, e.installed? = some (.load, b) := by
  obtain ⟨⟨builder, b⟩, hx, hb⟩ := (Option.any_eq_true _ _).1 h
  cases builder with
  | load => exact ⟨b, hx⟩
  | reload => cases hb

/-- A request that was wasted ends the call. -/
theorem isEnd_of_isWaste (h : e.isWaste) : e.isEnd := by
  revert h
  fun_cases isWaste e with
  | case1 t before error effects =>
    intro h
    rw [isEnd, call?, beq_iff_eq.1 h]
    rfl
  | case2 t p =>
    intro h
    cases p with
    | loadFetch => rfl
    | _ => cases h
  | case3 => exact fun h => by cases h

end Event

/-- **The account of one move**: a request sent opens a flight, and a flight ends in waste or in a
registry. -/
theorem Move.balance (m : Move server s e s') :
    e.loadRequests.length + (e.before?.any Phase.isFetch).toNat
      = e.isWaste.toNat + e.isLoadInstall.toNat + (e.after?.any Phase.isFetch).toNat := by
  cases e with
  | began t call => cases call <;> rfl
  | dropped t p =>
    have hnone : (Event.dropped t p).loadRequests = [] := ite_self _
    simp [hnone, Event.before?, Event.after?, Event.isWaste, Event.isLoadInstall, Event.installed?]
  | advanced t p p' effects =>
    obtain ⟨-, next, hstep, -⟩ := m.step
    cases hstep with
    | factoryLook =>
      rw [current]
      cases s.cell <;> rfl
    | tell builder => cases builder <;> rfl
    | _ => rfl

/-! ## One at a time

A request under way is that of a call which has the lock as the writer.  Since there is one writer
at most, there are two kinds of sessions, with a flight and without, and a move turns one into the
other only by a step of the call in question. -/

/-- Whoever opens or ends a flight has the lock. -/
theorem Move.holds_of_isFetch (m : Move server s e s') (ho : s.Orderly)
    (h : e.before?.any Phase.isFetch ∨ e.after?.any Phase.isFetch) : s.lock.holds e.task := by
  have hbefore := m.phase?_task ho.numbered
  rcases h with h | h
  · obtain ⟨p, hp, hf⟩ := (Option.any_eq_true _ _).1 h
    exact ho.holds_of_owns (hbefore.trans hp) (Phase.owns_of_isFetch hf)
  · cases e with
    | began | dropped => cases h
    | advanced t p p' effects =>
      obtain ⟨-, next, hstep, -⟩ := m.step
      cases hstep with
      | loadSend hl => exact hl
      | _ => cases h

/-- Some call other than `t` is a load whose request is under way. -/
def OtherInFlight (s : Session) (t : TaskId) : Prop := ∃ u, u ≠ t ∧ (s.phase? u).any Phase.isFetch

/-- Some load has a request under way. -/
def InFlight (s : Session) : Prop := ∃ u, (s.phase? u).any Phase.isFetch

/-- Whether there is a flight, seen from one call. -/
theorem inFlight_iff (s : Session) (t : TaskId) :
    s.InFlight ↔ (s.phase? t).any Phase.isFetch ∨ s.OtherInFlight t := by
  constructor
  · rintro ⟨u, hu⟩
    by_cases hut : u = t
    · exact .inl (hut ▸ hu)
    · exact .inr ⟨u, hut, hu⟩
  · rintro (h | ⟨u, -, hu⟩)
    · exact ⟨t, h⟩
    · exact ⟨u, hu⟩

/-- A flight that the moving call opens or ends is the only one. -/
theorem Move.not_otherInFlight (m : Move server s e s') (ho : s.Orderly)
    (h : e.before?.any Phase.isFetch ∨ e.after?.any Phase.isFetch) : ¬ s.OtherInFlight e.task := by
  rintro ⟨u, hne, hu⟩
  obtain ⟨p, hp, hf⟩ := (Option.any_eq_true _ _).1 hu
  exact hne (ho.owner_eq hp (Phase.owns_of_isFetch hf) (m.holds_of_isFetch ho h)).symm

theorem Move.otherInFlight_iff (m : Move server s e s') (hs : s.Numbered) :
    s'.OtherInFlight e.task ↔ s.OtherInFlight e.task := by
  refine exists_congr fun u => and_congr_right fun hne => ?_
  rw [m.phase?_eq hs, if_neg hne]

/-- `k` requests of loads are under way, one or none. -/
def Flights (s : Session) (k : Nat) : Prop := k = 1 ∧ s.InFlight ∨ k = 0 ∧ ¬ s.InFlight

theorem flights_of_otherInFlight (h : s.OtherInFlight t) : s.Flights k ↔ k = 1 := by
  simp [Flights, (inFlight_iff s t).2 (.inr h)]

theorem flights_of_not_otherInFlight (h : ¬ s.OtherInFlight t) :
    s.Flights k ↔ k = ((s.phase? t).any Phase.isFetch).toNat := by
  rw [Flights, inFlight_iff s t]
  cases (s.phase? t).any Phase.isFetch <;> simp [h]

/-- A move changes the number of flights as far as its call opens or ends one. -/
theorem Move.flights (m : Move server s e s') (ho : s.Orderly) (h : s.Flights k) :
    ∃ k', s'.Flights k' ∧
      k + (e.after?.any Phase.isFetch).toNat = k' + (e.before?.any Phase.isFetch).toNat := by
  have hbefore := m.phase?_task ho.numbered
  have hafter : s'.phase? e.task = e.after? := by rw [m.phase?_eq ho.numbered, if_pos rfl]
  by_cases hother : s.OtherInFlight e.task
  · have hnone : ¬ (e.before?.any Phase.isFetch ∨ e.after?.any Phase.isFetch) :=
      fun h => m.not_otherInFlight ho h hother
    rw [not_or, Bool.not_eq_true, Bool.not_eq_true] at hnone
    refine ⟨1, (flights_of_otherInFlight ((m.otherInFlight_iff ho.numbered).2 hother)).2 rfl, ?_⟩
    rw [(flights_of_otherInFlight hother).1 h, hnone.1, hnone.2]
  · have hother' := mt (m.otherInFlight_iff ho.numbered).1 hother
    refine ⟨_, (flights_of_not_otherInFlight hother').2 rfl, ?_⟩
    rw [(flights_of_not_otherInFlight hother).1 h, hafter, hbefore, Nat.add_comm]

/-- **The account of a run**: every request of a load is wasted, or builds the registry of a load,
or is still under way, and at most one is. -/
theorem Run.balance (h : Run server (new loader) es s) :
    ∃ k, s.Flights k ∧ (es.flatMap Event.loadRequests).length
      = es.countP Event.isWaste + es.countP Event.isLoadInstall + k := by
  induction h with
  | nil => exact ⟨0, .inr ⟨rfl, fun ⟨u, hu⟩ => by cases hu⟩, rfl⟩
  | @snoc es s s' e h m ih =>
    obtain ⟨k, hk, hes⟩ := ih
    obtain ⟨k', hk', hflights⟩ := m.flights h.orderly hk
    have he := m.balance
    have hone : ∀ q : Event → Bool, [e].countP q = (q e).toNat := fun q => by
      cases hq : q e <;> simp [hq]
    refine ⟨k', hk', ?_⟩
    rw [List.flatMap_append, List.flatMap_singleton, List.length_append, List.countP_append,
      List.countP_append, hone, hone]
    omega

/-! ## After a registry has been installed

A load sends its request with the cell empty before its eyes, and a cell that has been filled stays
so. -/

/-- A load that installs finds the cell empty, so at most one ever does. -/
theorem Run.countP_isLoadInstall (h : Run server (new loader) es s) :
    es.countP Event.isLoadInstall ≤ 1 ∧ (s.cell = none → es.countP Event.isLoadInstall = 0) := by
  induction h with
  | nil => exact ⟨Nat.zero_le 1, fun _ => rfl⟩
  | @snoc es s s' e h m ih =>
    rw [List.countP_append]
    by_cases he : e.isLoadInstall
    · obtain ⟨b, hb⟩ := Event.exists_of_isLoadInstall he
      have hzero := ih.2 (h.informed.cell_of_installed m hb)
      rw [hzero, List.countP_singleton, if_pos he]
      refine ⟨Nat.le_refl 1, fun hnone => ?_⟩
      rw [m.cell_eq, hb] at hnone
      cases hnone
    · rw [List.countP_singleton, if_neg he]
      refine ⟨ih.1, fun hnone => ih.2 ?_⟩
      cases hc : s.cell with
      | none => rfl
      | some b =>
        have hsome := m.cell_isSome (by rw [hc]; rfl)
        rw [hnone] at hsome
        cases hsome

/-- **With a registry in the cell no load sends a request.** -/
theorem Run.requests_eq_nil (h : Run server s es s') (hs : s.cell.isSome) (he : e ∈ es)
    (hcall : e.call? = some .load) : e.requests = [] := by
  obtain ⟨pre, post, s₁, s₂, rfl, hpre, m, -⟩ := h.exists_move he
  have hsome := hpre.cell_isSome hs
  cases hr : e.requests with
  | nil => rfl
  | cons r rest =>
    have hnone := m.cell_of_requests hcall (by rw [hr]; exact List.cons_ne_nil r rest)
    rw [hnone] at hsome
    cases hsome

/-- Whatever was installed, the cell is filled from then on. -/
theorem Run.cell_isSome_of_installed (h : Run server (new loader) es s) (he : e ∈ es)
    (hx : e.installed?.isSome) : s.cell.isSome := by
  obtain ⟨pre, post, s₁, s₂, rfl, hpre, m, hpost⟩ := h.exists_move he
  refine hpost.cell_isSome ?_
  rw [m.cell_eq, Option.isSome_or, Option.isSome_map, hx, Bool.true_or]

/-! ## Runs without a reload

Where nothing is reloaded, every request is that of a load, and the one registry that is ever
installed is what all loads that succeed return. -/

/-- Requests are sent by loads and reloads. -/
theorem Move.call?_of_requests (m : Move server s e s') (hr : e.requests ≠ []) :
    e.call? = some .load ∨ e.call? = some .reload := by
  cases e with
  | began | dropped => exact absurd rfl hr
  | advanced t p p' effects =>
    obtain ⟨-, next, hstep, -⟩ := m.step
    cases hstep with
    | loadSend => exact .inl rfl
    | reloadSend => exact .inr rfl
    | _ => exact absurd rfl hr

theorem Move.call?_of_installed (m : Move server s e s') {builder : Builder} {b : Build}
    (hx : e.installed? = some (builder, b)) : e.call? = some builder.call := by
  cases e with
  | began | dropped => cases hx
  | advanced t p p' effects =>
    obtain ⟨-, next, hstep, -⟩ := m.step
    cases hstep with
    | loadInstall | reloadInstall =>
      cases hx
      rfl
    | _ => cases hx

/-- A registry in the cell stays there as long as no reload replaces it. -/
theorem Run.cell_of_not_reload {pre post : List Event} {s₁ : Session} {b : Build}
    (hpre : Run server (new loader) pre s₁) (hpost : Run server s₁ post s)
    (hno : ∀ e ∈ post, e.call? ≠ some .reload) (hc : s₁.cell = some b) : s.cell = some b := by
  induction hpost with
  | nil => exact hc
  | @snoc post s s' e hpost m ih =>
    have hs := ih fun f hf => hno f (List.mem_append_left _ hf)
    rw [m.cell_eq]
    cases hx : e.installed? with
    | none => exact hs
    | some x =>
      obtain ⟨builder, c⟩ := x
      cases builder with
      | load =>
        have hnone := (hpre.append hpost).informed.cell_of_installed m hx
        rw [hnone] at hs
        cases hs
      | reload => exact absurd (m.call?_of_installed hx) (hno e (by simp))

section NoReload

variable (h : Run server (new loader) es s) (hno : ∀ t, Event.began t .reload ∉ es)

include h hno

theorem Run.loadRequests_eq (he : e ∈ es) : e.loadRequests = e.requests := by
  rw [Event.loadRequests]
  split
  · rfl
  · next hcall =>
    obtain ⟨pre, post, s₁, s₂, rfl, hpre, m, -⟩ := h.exists_move he
    cases hr : e.requests with
    | nil => rfl
    | cons r rest =>
      rcases m.call?_of_requests (by rw [hr]; exact List.cons_ne_nil r rest) with hload | hreload
      · exact absurd hload hcall
      · exact absurd (h.began_of_mem he hreload) (hno e.task)

/-- What a load returns stays in the cell. -/
theorem Run.cell_of_load {b : Build} (he : e ∈ es)
    (hr : e.returned? = some (.load, .loaded b)) : s.cell = some b := by
  have hcalls : ∀ f ∈ es, f.call? ≠ some .reload := fun f hf hcall =>
    hno f.task (h.began_of_mem hf hcall)
  obtain ⟨pre, post, s₁, s₂, rfl, hpre, m, hpost⟩ := h.exists_move he
  have hcell : s₁.cell = some b :=
    cell_of_current (hpre.informed.current_of_returned m hr (by simp) (by simp))
  refine Run.cell_of_not_reload hpre (Run.append (.snoc .nil m) hpost) ?_ hcell
  exact fun f hf => hcalls f (List.mem_append_right _ hf)

end NoReload

/-! ## Counting requests

A call ends once, so no request is counted as wasted twice.  Together with the balance above this
gives the number of requests. -/

/-- A call is counted once, whatever becomes of its request. -/
theorem Run.nodup_isWaste (h : Run server (new loader) es s) :
    ((es.filter Event.isWaste).map Event.task).Nodup := by
  induction h with
  | nil => exact List.nodup_nil
  | @snoc es s s' e h m ih =>
    rw [List.filter_append, List.map_append, List.nodup_append]
    refine ⟨ih, ?_, fun t ht u hu => ?_⟩
    · by_cases he : e.isWaste <;> simp [he]
    · obtain ⟨f, hf, rfl⟩ := List.mem_map.1 ht
      obtain ⟨e', he', rfl⟩ := List.mem_map.1 hu
      rw [List.mem_filter] at hf he'
      cases List.mem_singleton.1 he'.1
      intro htask
      have hgone := h.call?_of_isEnd m hf.1 (Event.isEnd_of_isWaste hf.2) htask.symm
      have hend := Event.isEnd_of_isWaste he'.2
      rw [Event.isEnd, hgone] at hend
      cases hend

/-- **Loads fetch one at a time, and no more than they have to.**  At every moment at most one load
has a request under way.  At most one load ever installs a registry, and only into an empty cell;
once anybody has installed one, loads send no more requests.  If nothing is reloaded, all loads that
succeed return the same registry, and when all calls have come to their end, the requests are those
of the loads that failed or were given up after sending theirs, and one more if a load built the
registry. -/
theorem singleFlight (h : Run server (new loader) es s) :
    (∀ t u n m, s.phase? t = some (.loadFetch n) → s.phase? u = some (.loadFetch m) → t = u) ∧
    es.countP Event.isLoadInstall ≤ 1 ∧
    (∀ e s', Move server s e s' → e.isLoadInstall → s.cell = none) ∧
    ((∃ e ∈ es, e.installed?.isSome) → ∀ later s', Run server s later s' →
      ∀ e ∈ later, e.call? = some .load → e.requests = []) ∧
    ((∀ t, Event.began t .reload ∉ es) →
      (∀ e ∈ es, ∀ f ∈ es, ∀ b c, e.returned? = some (.load, .loaded b) →
        f.returned? = some (.load, .loaded c) → b = c) ∧
      ((∀ t p, s.phase? t = some p → p.call? = none) →
        (es.flatMap Event.requests).length
            = es.countP Event.isWaste + (if es.any Event.isLoadInstall then 1 else 0) ∧
          ((es.filter Event.isWaste).map Event.task).Nodup)) := by
  refine ⟨?_, h.countP_isLoadInstall.1, ?_, ?_, fun hno => ⟨?_, fun hend => ⟨?_, h.nodup_isWaste⟩⟩⟩
  · intro t u n m ht hu
    exact h.orderly.owner_eq hu rfl (h.orderly.holds_of_owns ht rfl)
  · intro e s' m he
    obtain ⟨b, hb⟩ := Event.exists_of_isLoadInstall he
    exact h.informed.cell_of_installed m hb
  · rintro ⟨e, he, hx⟩ later s' hlater f hf hcall
    exact hlater.requests_eq_nil (h.cell_isSome_of_installed he hx) hf hcall
  · intro e he f hf b c hb hc
    exact Option.some.inj ((h.cell_of_load hno he hb).symm.trans (h.cell_of_load hno hf hc))
  · have hrequests : es.flatMap Event.requests = es.flatMap Event.loadRequests := by
      rw [List.flatMap_def, List.flatMap_def,
        List.map_congr_left fun e he => h.loadRequests_eq hno he]
    have hinstalls :
        es.countP Event.isLoadInstall = if es.any Event.isLoadInstall then 1 else 0 := by
      have hle := h.countP_isLoadInstall.1
      split
      · next hany =>
        have hpos := List.countP_pos_iff.2 (List.any_eq_true.1 hany)
        omega
      · next hany => simpa [List.countP_eq_zero] using hany
    -- When all calls are over nothing is under way, and the account has only two sides left.
    obtain ⟨k, ⟨-, hflight⟩ | ⟨rfl, -⟩, hbalance⟩ := h.balance
    · obtain ⟨u, hu⟩ := hflight
      obtain ⟨p, hp, hf⟩ := (Option.any_eq_true _ _).1 hu
      have hcall := hend u p hp
      cases p with
      | loadFetch => cases hcall
      | _ => cases hf
    · rw [hrequests, hbalance, hinstalls, Nat.add_zero]

/-! ## Four loads at the same time

A failure and a load that is given up cost one request each, and from then on one is enough for
everybody. -/

/-- A server that is down at first. -/
def lateServer : Nat → TextAnswer
  | 0 => .error (.server 500 "down")
  | _ => .ok ⟨some "application/json", "\x7b\"Gadget\": \x7b\x7d\x7d"⟩

/-- Four loads come at the same time.  The first fails, the second is given up while it fetches, the
third builds the registry, and the fourth finds it in the cell. -/
def queue : List Choice :=
  [.begin .load, .begin .load, .begin .load, .begin .load,
    .advance 0, .advance 1, .advance 2, .advance 3, .advance 0, .advance 1, .advance 2, .advance 3,
    .advance 0, .advance 1, .advance 2, .advance 3, .advance 0, .advance 0,
    .advance 1, .drop 1,
    .advance 2, .advance 2, .advance 2, .advance 2, .advance 2,
    .advance 3]

/-- Three requests for four loads: one that failed, one that was given up, and one for the registry
that both others return. -/
theorem singleFlight_queue :
    ∃ es s, Run lateServer (new .default) es s ∧ (∀ t, Event.began t .reload ∉ es) ∧
      (∀ t p, s.phase? t = some p → p.call? = none) ∧
      es.countP Event.isWaste = 2 ∧ es.countP (·.returned?.isSome) = 3 ∧
      (es.flatMap Event.requests).length = 3 := by
  obtain ⟨es, s, h, hs⟩ := exists_run_of_follow lateServer queue (new .default)
    (fun es s => es.all (fun e => e.call? == some .load || e.call? == none) &&
      s.tasks.all (fun q => q.2.call? == none) && es.any Event.isLoadInstall &&
      es.countP Event.isWaste == 2 && es.countP (·.returned?.isSome) == 3) (by decide +kernel)
  simp only [Bool.and_eq_true, beq_iff_eq] at hs
  obtain ⟨⟨⟨⟨hcalls, htasks⟩, hany⟩, hwaste⟩, hreturned⟩ := hs
  have hno : ∀ t, Event.began t .reload ∉ es := fun t ht => by
    have hcall := List.all_eq_true.1 hcalls _ ht
    cases hcall
  have hend : ∀ t p, s.phase? t = some p → p.call? = none := fun t p hp => by
    obtain ⟨q, hq, rfl⟩ := Option.map_eq_some_iff.1 hp
    exact eq_of_beq (List.all_eq_true.1 htasks q (List.mem_of_find?_eq_some hq))
  obtain ⟨-, -, -, -, hquiet⟩ := singleFlight h
  have hrequests := ((hquiet hno).2 hend).1
  rw [hwaste, if_pos hany] at hrequests
  exact ⟨es, s, h, hno, hend, hwaste, hreturned, hrequests⟩

end Session
end RemoteModels
