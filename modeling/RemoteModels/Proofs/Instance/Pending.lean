import RemoteModels.Proofs.Instance.Invariant

/-!
# Requests under way

`Gateway.perform` tells what a call has done when it is over.  In between, the call has marked the
instance and waits for an answer; the answer may never come, and a call that is given up does not
take the mark away.  This file looks at the moments in between too.

While a call waits it has the instance to itself, so what happens next is that the answer arrives or
that the call is given up.  At any other moment the owner may change the instance, or begin a call,
which is refused or sends its post.

* `Moment`, `Beat`, `Moment.Move`, `Moment.Run` — an instance and the call that waits, what can
  happen to them, and what has happened since the instance was made.
* `Moment.run_history`, `Moment.Run.exists_operations` — between calls these are the runs of whole
  operations, and a call that waits does so behind one of them.
* `Moment.LastGivenUp` — the last request sent was given up.
* `Moment.Marked`, `Moment.Marked.move` — how the mark follows from what has happened, and that
  every move keeps to it.
* `Moment.pending_exactly` — the mark is there as long as a request is under way and after it has
  been given up, until another one is answered.
-/

set_option autoImplicit false

namespace RemoteModels

open Json (Value Object)

/-- An operation of the owner, not of a gateway. -/
def Operation.isOwn : Operation → Bool
  | .call _ _ _ => false
  | _ => true

/-- A call that waits for the answer to its post. -/
structure Flight where
  action : Action
  url : String

/-- An instance at one time, and the call that has it, if one waits. -/
structure Moment where
  current : Instance
  flight? : Option Flight

/-- What can happen to an instance. -/
inductive Beat where
  /-- The owner does something. -/
  | own (op : Operation)
  /-- A call is refused in front of its request. -/
  | refused (g : Gateway) (a : Action) (e : RequestError)
  /-- A call sends its post, and waits from then on. -/
  | sent (g : Gateway) (a : Action) (request : Request)
  /-- The answer arrives, and the call returns. -/
  | answered (answer : Answer) (result : Except RequestError Unit)
  /-- The call is given up while it waits. -/
  | givenUp

/-- Whether a post is sent. -/
def Beat.isSent : Beat → Bool
  | .sent _ _ _ => true
  | _ => false

/-- What happens in an operation from its beginning to its end. -/
def Event.beats (e : Event) : List Beat :=
  match e.operation, e.response with
  | .call g a _, .call (.refused err) => [.refused g a err]
  | .call g a _, .call (.dropped request) => [.sent g a request, .givenUp]
  | .call g a (.answered answer), .call (.finished request result) =>
    [.sent g a request, .answered answer result]
  | op, _ => [.own op]

namespace Moment

variable {i j : Instance} {m m' : Moment} {beat : Beat} {beats : List Beat}

/-- The ways things can go on.  Only a call that waits is answered or given up, and nothing else
happens to the instance while it does. -/
inductive Move : Moment → Beat → Moment → Prop
  | own {i : Instance} {op : Operation} (h : op.isOwn) :
      Move ⟨i, none⟩ (.own op) ⟨(i.act op).1, none⟩
  | refused {i : Instance} {g : Gateway} {a : Action} {e : RequestError}
      (h : g.target a i = .error e) : Move ⟨i, none⟩ (.refused g a e) ⟨i, none⟩
  | sent {i : Instance} {g : Gateway} {a : Action} {url : String} (h : g.target a i = .ok url) :
      Move ⟨i, none⟩ (.sent g a (.post url (Gateway.body a i)))
        ⟨Gateway.inFlight i, some ⟨a, url⟩⟩
  | answered {i : Instance} {f : Flight} (answer : Answer) :
      Move ⟨i, some f⟩ (.answered answer (Gateway.settle f.action f.url i answer).2)
        ⟨(Gateway.settle f.action f.url i answer).1, none⟩
  | givenUp {i : Instance} {f : Flight} : Move ⟨i, some f⟩ .givenUp ⟨i, none⟩

/-- What has happened to an instance so far, and what has become of it. -/
inductive Run (i : Instance) : List Beat → Moment → Prop
  | nil : Run i [] ⟨i, none⟩
  | snoc {beats : List Beat} {m m' : Moment} {beat : Beat} (h : Run i beats m)
      (hm : Move m beat m') : Run i (beats ++ [beat]) m'

/-- What happened last, and what was before. -/
theorem Run.exists_of_concat (h : Run i (beats ++ [beat]) m) :
    ∃ m₀, Run i beats m₀ ∧ Move m₀ beat m := by
  generalize hall : beats ++ [beat] = all at h
  cases h with
  | nil => simp at hall
  | snoc h hm =>
    obtain ⟨rfl, hlast⟩ := List.append_inj' hall rfl
    cases hlast
    exact ⟨_, h, hm⟩

/-! ## Whole operations

Operations as they are elsewhere run from beginning to end.  The two views are brought together
here: an operation is one beat or two, and every sequence of beats is that of some operations, with
at most a call at its end that still waits.  So nothing that can happen in between is left out, and
nothing is added. -/

/-- The mark has no part in what an answer does. -/
theorem settle_inFlight (a : Action) (url : String) (i : Instance) (answer : Answer) :
    Gateway.settle a url (Gateway.inFlight i) answer = Gateway.settle a url i answer := rfl

/-- What the owner does is one beat. -/
theorem beats_own {op : Operation} (h : op.isOwn) (resp : Response) :
    (Event.mk op resp).beats = [.own op] := by
  cases op with
  | call => cases h
  | set | setLocal | update => rfl

variable {g : Gateway} {a : Action} {url : String}

/-- A call that is refused leaves the instance alone. -/
theorem act_refused {e : RequestError} (h : g.target a i = .error e) (fate : Gateway.Fate) :
    i.act (.call g a fate) = (i, .call (.refused e)) := by
  simp only [Instance.act, Gateway.perform, h]

/-- A call that is given up leaves the instance as it was while it waited. -/
theorem act_dropped (h : g.target a i = .ok url) :
    i.act (.call g a .dropped)
      = (Gateway.inFlight i, .call (.dropped (.post url (Gateway.body a i)))) := by
  simp only [Instance.act, Gateway.perform, h]

/-- A call that is answered settles the instance as it was while it waited. -/
theorem act_answered (h : g.target a i = .ok url) (answer : Answer) :
    i.act (.call g a (.answered answer))
      = ((Gateway.settle a url (Gateway.inFlight i) answer).1,
          .call (.finished (.post url (Gateway.body a i))
            (Gateway.settle a url (Gateway.inFlight i) answer).2)) := by
  simp only [Instance.act, Gateway.perform, h, settle_inFlight]

/-- An operation takes the instance through its beats. -/
theorem Run.act (h : Run i beats ⟨j, none⟩) (op : Operation) :
    Run i (beats ++ (Event.mk op (j.act op).2).beats) ⟨(j.act op).1, none⟩ := by
  cases op with
  | set | setLocal | update =>
    rw [beats_own rfl]
    exact h.snoc (.own rfl)
  | call g a fate =>
    cases ht : g.target a j with
    | error e =>
      rw [act_refused ht]
      exact h.snoc (.refused ht)
    | ok url =>
      have hsent := h.snoc (.sent ht)
      cases fate with
      | dropped =>
        have hend := hsent.snoc .givenUp
        rw [List.append_assoc] at hend
        rw [act_dropped ht]
        exact hend
      | answered answer =>
        have hend := hsent.snoc (.answered answer)
        rw [List.append_assoc] at hend
        rw [act_answered ht]
        exact hend

/-- A sequence of operations takes the instance through the beats of all its events. -/
theorem Run.history (h : Run i beats ⟨j, none⟩) (ops : List Operation) :
    Run i (beats ++ (j.history ops).flatMap Event.beats) ⟨j.run ops, none⟩ := by
  induction ops generalizing beats j with
  | nil => rwa [Instance.history, List.flatMap_nil, List.append_nil]
  | cons op ops ih =>
    rw [Instance.history, List.flatMap_cons, ← List.append_assoc]
    exact ih (h.act op)

/-- **Every run of operations is a run.** -/
theorem run_history (i : Instance) (ops : List Operation) :
    Run i ((i.history ops).flatMap Event.beats) ⟨i.run ops, none⟩ :=
  Run.history .nil ops

/-! ## Every moment is behind some operations

By induction on the run: a beat between calls is an operation of its own or begins one, and the next
beat ends it. -/

/-- A moment behind a run of operations: between calls, or with a call that waits. -/
inductive Behind (i : Instance) (ops : List Operation) : List Beat → Moment → Prop
  | between : Behind i ops ((i.history ops).flatMap Event.beats) ⟨i.run ops, none⟩
  | waiting {g : Gateway} {a : Action} {url : String} (h : g.target a (i.run ops) = .ok url) :
      Behind i ops
        ((i.history ops).flatMap Event.beats ++
          [.sent g a (.post url (Gateway.body a (i.run ops)))])
        ⟨Gateway.inFlight (i.run ops), some ⟨a, url⟩⟩

/-- The beats of one more operation. -/
theorem beats_concat (i : Instance) (ops : List Operation) (op : Operation) :
    (i.history (ops ++ [op])).flatMap Event.beats
      = (i.history ops).flatMap Event.beats ++ (Event.mk op ((i.run ops).act op).2).beats := by
  rw [Instance.history_append, List.flatMap_append]
  exact congrArg (List.append _) (List.append_nil _)

theorem run_concat (i : Instance) (ops : List Operation) (op : Operation) :
    i.run (ops ++ [op]) = ((i.run ops).act op).1 :=
  i.run_append ops [op]

/-- The moment behind one more operation. -/
theorem behind_concat (i : Instance) (ops : List Operation) (op : Operation) :
    Behind i (ops ++ [op])
      ((i.history ops).flatMap Event.beats ++ (Event.mk op ((i.run ops).act op).2).beats)
      ⟨((i.run ops).act op).1, none⟩ := by
  rw [← beats_concat, ← run_concat]
  exact .between

/-- Whatever happens next, the moment is again behind a run of operations. -/
theorem Behind.move {ops : List Operation} (h : Behind i ops beats m) (hm : Move m beat m') :
    ∃ ops', Behind i ops' (beats ++ [beat]) m' := by
  cases h with
  | between =>
    cases hm with
    | @own _ op hop =>
      have hnext := behind_concat i ops op
      rw [beats_own hop] at hnext
      exact ⟨_, hnext⟩
    | @refused _ g a _ ht =>
      have hnext := behind_concat i ops (.call g a .dropped)
      rw [act_refused ht] at hnext
      exact ⟨_, hnext⟩
    | sent ht => exact ⟨ops, .waiting ht⟩
  | @waiting g a _ ht =>
    rw [List.append_assoc]
    cases hm with
    | answered answer =>
      have hnext := behind_concat i ops (.call g a (.answered answer))
      rw [act_answered ht] at hnext
      exact ⟨_, hnext⟩
    | givenUp =>
      have hnext := behind_concat i ops (.call g a .dropped)
      rw [act_dropped ht] at hnext
      exact ⟨_, hnext⟩

/-- **Every moment is behind a run of operations.** -/
theorem Run.exists_operations (h : Run i beats m) : ∃ ops, Behind i ops beats m := by
  induction h with
  | nil => exact ⟨[], .between⟩
  | snoc _ hm ih =>
    obtain ⟨ops, hops⟩ := ih
    exact hops.move hm

/-! ## The mark

Whether the mark is there is a question about the last request.  The invariant says how the answer
follows from what has happened; it also says that a call waits only right after it has sent its
post, which is what makes the last request the one that is answered. -/

/-- The last request sent was given up before its answer. -/
def LastGivenUp (beats : List Beat) : Prop :=
  ∃ before g a request after,
    beats = before ++ .sent g a request :: .givenUp :: after ∧ ∀ b ∈ after, ¬ b.isSent

/-- The last thing that has happened is that a request was sent. -/
def EndsSent (beats : List Beat) : Prop :=
  ∃ before g a request, beats = before ++ [.sent g a request]

theorem not_lastGivenUp_nil : ¬ LastGivenUp [] := by
  rintro ⟨before, g, a, request, after, h, -⟩
  simp at h

/-- When one thing more has happened: either the last request had been given up before and no other
was sent, or the one under way has been given up now. -/
theorem lastGivenUp_concat :
    LastGivenUp (beats ++ [beat])
      ↔ LastGivenUp beats ∧ ¬ beat.isSent ∨ EndsSent beats ∧ beat = .givenUp := by
  constructor
  · rintro ⟨before, g, a, request, after, h, hafter⟩
    rcases List.eq_nil_or_concat after with rfl | ⟨front, last, rfl⟩
    · have hsplit : beats ++ [beat] = (before ++ [.sent g a request]) ++ [.givenUp] := by
        rw [h, List.append_assoc]
        rfl
      obtain ⟨rfl, hlast⟩ := List.append_inj' hsplit rfl
      exact .inr ⟨⟨before, g, a, request, rfl⟩, List.cons.inj hlast |>.1⟩
    · rw [List.concat_eq_append] at h hafter
      have hsplit : beats ++ [beat]
          = (before ++ .sent g a request :: .givenUp :: front) ++ [last] := by
        rw [h, List.append_assoc]
        rfl
      obtain ⟨rfl, hlast⟩ := List.append_inj' hsplit rfl
      cases hlast
      rw [List.forall_mem_append] at hafter
      exact .inl ⟨⟨before, g, a, request, front, rfl, hafter.1⟩, hafter.2 beat List.mem_cons_self⟩
  · rintro (⟨⟨before, g, a, request, after, rfl, hafter⟩, hbeat⟩ | ⟨hends, rfl⟩)
    · refine ⟨before, g, a, request, after ++ [beat], by rw [List.append_assoc]; rfl, ?_⟩
      rw [List.forall_mem_append]
      exact ⟨hafter, by simpa using hbeat⟩
    · obtain ⟨before, g, a, request, rfl⟩ := hends
      exact ⟨before, g, a, request, [], by rw [List.append_assoc]; rfl, by simp⟩

/-- The mark, as it follows from what has happened. -/
structure Marked (beats : List Beat) (m : Moment) : Prop where
  waiting : m.flight?.isSome → EndsSent beats
  pending : m.current.pending ↔ m.flight?.isSome ∨ LastGivenUp beats

/-! ## Moves and the mark

Only calls touch the mark.  One that is sent sets it, and an answer takes it away, whatever the
answer says. -/

/-- The owner does not touch the mark. -/
theorem pending_own {op : Operation} (h : op.isOwn) (i : Instance) :
    (i.act op).1.pending = i.pending := by
  have hs := i.act_step op
  generalize (i.act op).1 = i' at hs ⊢
  generalize (i.act op).2 = resp at hs
  cases hs with
  | set | undeclared | setLocal | update => rfl
  | call => cases h

/-- An answer takes the mark away, whatever it is. -/
theorem pending_settle (a : Action) (url : String) (i : Instance) (answer : Answer) :
    (Gateway.settle a url i answer).1.pending = false := by
  obtain ⟨change, result, heffect, hsettle⟩ := Gateway.exists_settle_eq a url answer
  rw [hsettle]
  cases heffect <;> rfl

/-- **Every move keeps the mark right.** -/
theorem Marked.move (h : Marked beats m) (hm : Move m beat m') : Marked (beats ++ [beat]) m' := by
  have hmark := h.pending
  cases hm with
  | own hop =>
    refine ⟨nofun, ?_⟩
    rw [lastGivenUp_concat, pending_own hop, hmark]
    simp [Beat.isSent]
  | refused =>
    refine ⟨nofun, ?_⟩
    rw [lastGivenUp_concat, hmark]
    simp [Beat.isSent]
  | sent => exact ⟨fun _ => ⟨_, _, _, _, rfl⟩, iff_of_true rfl (.inl rfl)⟩
  | answered =>
    -- The request that is answered is the last one, so none behind it was given up.
    obtain ⟨before, g, a, request, rfl⟩ := h.waiting rfl
    refine ⟨nofun, ?_⟩
    rw [lastGivenUp_concat, lastGivenUp_concat, pending_settle]
    simp [Beat.isSent]
  | givenUp =>
    refine ⟨nofun, iff_of_true (hmark.2 (.inl rfl)) (.inr ?_)⟩
    exact lastGivenUp_concat.2 (.inr ⟨h.waiting rfl, rfl⟩)

/-- **The mark is right at every moment.** -/
theorem Run.marked (hi : i.pending = false) (h : Run i beats m) : Marked beats m := by
  induction h with
  | nil =>
    refine ⟨nofun, iff_of_false (by simp [hi]) ?_⟩
    rintro (hf | hlast)
    · cases hf
    · exact not_lastGivenUp_nil hlast
  | snoc _ hm ih => exact ih.move hm

/-- **The mark of a request under way.**  Whatever has happened to an instance since it was made,
which is a run of operations and perhaps a call that waits behind it: the instance is marked exactly
if a request is under way or the last request sent was given up.  It is not marked when a call has
just been answered, whatever the outcome; operations of the owner do not touch the mark, a call that
is refused changes nothing at all, and one that is given up changes nothing but the mark. -/
theorem pending_exactly {d : Descriptor} {record : Option Object}
    (ho : Instance.Origin d i record) (h : Run i beats m) :
    (∃ ops, Behind i ops beats m) ∧
    (m.current.pending ↔ m.flight?.isSome ∨ LastGivenUp beats) ∧
    (∀ before answer result, beats = before ++ [.answered answer result] →
      m.current.pending = false) ∧
    (∀ op m', Move m (.own op) m' → m'.current.pending = m.current.pending) ∧
    (∀ g a e m', Move m (.refused g a e) m' → m' = m) ∧
    (∀ g a request m₁ m₂, Move m (.sent g a request) m₁ → Move m₁ .givenUp m₂ →
      m₂ = ⟨{ m.current with pending := true }, none⟩) := by
  have hmark := h.marked ho.untouched.2.2
  refine ⟨h.exists_operations, hmark.pending, ?_, ?_, ?_, ?_⟩
  · rintro before answer result rfl
    obtain ⟨m₀, -, hm⟩ := h.exists_of_concat
    cases hm with
    | answered => exact pending_settle _ _ _ _
  · intro op m' hm
    cases hm with
    | own hop => exact pending_own hop _
  · intro g a e m' hm
    cases hm with
    | refused => rfl
  · intro g a request m₁ m₂ hsent hend
    cases hsent with
    | sent =>
      cases hend with
      | givenUp => rfl

/-- A change of the bolt is given up.  A creation that comes too late and a field that is set leave
the mark where it is; the next change is marked while it waits, and takes the mark away when it
fails. -/
theorem pending_exactly_newBolt :
    let ops : List Operation :=
      [.call ⟨widget⟩ .put .dropped, .call ⟨widget⟩ (.post "1") .dropped,
        .set "label" (.string "nut")]
    let failing : Operation := .call ⟨widget⟩ .put (.answered (.error (.server 500 "down")))
    Instance.Origin widget Instance.newBolt (some Instance.boltRecord) ∧
      LastGivenUp ((Instance.newBolt.history ops).flatMap Event.beats) ∧
      (Instance.newBolt.run ops).pending = true ∧ (Instance.newBolt.run ops).id = some "7" ∧
      (∃ beats m, Run Instance.newBolt beats m ∧ m.flight?.isSome ∧ m.current.pending = true) ∧
      (Instance.newBolt.run (ops ++ [failing])).pending = false := by
  intro ops failing
  have ho := Instance.newBolt_origin
  have hops := run_history Instance.newBolt ops
  have hsent := hops.snoc (.sent (g := ⟨widget⟩) (a := .put) rfl)
  have hlast : LastGivenUp ((Instance.newBolt.history ops).flatMap Event.beats) :=
    ⟨[], ⟨widget⟩, .put, _, [_, _], rfl, by simp [Beat.isSent]⟩
  obtain ⟨-, hmark, -⟩ := pending_exactly ho hops
  obtain ⟨-, hwaiting, -⟩ := pending_exactly ho hsent
  obtain ⟨-, -, hanswered, -⟩ :=
    pending_exactly ho (run_history Instance.newBolt (ops ++ [failing]))
  exact ⟨ho, hlast, hmark.2 (.inr hlast), rfl, ⟨_, _, hsent, rfl, hwaiting.2 (.inl rfl)⟩,
    hanswered [_, _, _, _, _] _ _ rfl⟩

end Moment
end RemoteModels
