import RemoteModels.Proofs.Command.Plan

/-!
# What a dialogue says

On its way a dialogue says things: lines of output, texts beside the output, and reports for a log.
`Dialogue.Tells` speaks of what is said to the user beside the turns.  Most parts of a command say
nothing to the user, and for those a statement about their turns is enough
(`Dialogue.Quiet.tells`).

What is said has no effect on what is sent.  The run of two dialogues, one after the other, is put
together from their runs (`Dialogue.run_bind`), so that two dialogues which differ in what they say
can be compared part by part (`Attempt.unheard_bind`).

* `Dialogue.Quiet`, `Dialogue.Quiet.tells` — dialogues that say nothing to the user.
* `Dialogue.run_bind` — the run of one dialogue after the other.
* `Dialogue.Record.unheard`, `Attempt.unheard_bind` — runs without what was said.
-/

set_option autoImplicit false

namespace RemoteModels

open Json (Value Object)

namespace Dialogue

variable {α β : Type} {d : Dialogue α} {f : α → Dialogue β}

/-! ## Dialogues that only report

Reports go to a log, and nothing is promised about them; a dialogue that says nothing else is quiet.
For a quiet dialogue a statement about its turns is a statement about what it tells. -/

/-- The dialogue says nothing to the user, however it is answered. -/
def Quiet : Dialogue α → Prop
  | .done _ => True
  | .say s rest => s.heard = [] ∧ rest.Quiet
  | .getText _ next => ∀ answer, (next answer).Quiet
  | .getJson _ next => ∀ answer, (next answer).Quiet
  | .postJson _ _ next => ∀ answer, (next answer).Quiet

/-- **A quiet dialogue tells nothing**: what holds of its turns with nothing said is what it
tells. -/
theorem Quiet.tells {post : List Turn → List Saying → α → Prop} (hd : d.Quiet)
    (h : d.Ensures fun ts a => post ts [] a) : d.Tells post := by
  induction d generalizing post with
  | done a => exact h
  | say s rest ih =>
    refine ih hd.2 ?_
    rw [hd.1]
    exact h
  | getText path next ih => exact fun answer => ih answer (hd answer) (h answer)
  | getJson path next ih => exact fun answer => ih answer (hd answer) (h answer)
  | postJson path body next ih => exact fun answer => ih answer (hd answer) (h answer)

theorem Quiet.bind (hd : d.Quiet) (hf : ∀ a, (f a).Quiet) : (d.bind f).Quiet := by
  induction d with
  | done a => exact hf a
  | say s rest ih => exact ⟨hd.1, ih hd.2⟩
  | getText path next ih => exact fun answer => ih answer (hd answer)
  | getJson path next ih => exact fun answer => ih answer (hd answer)
  | postJson path body next ih => exact fun answer => ih answer (hd answer)

theorem quiet_logAll (logs : List LogEntry) : (logAll logs).Quiet := by
  induction logs with
  | nil => trivial
  | cons e rest ih => exact ⟨rfl, ih⟩

/-! ## Runs without what was said

Two runs are compared with everything that was said struck out of both.  That a run of two parts is
put together from the runs of the parts makes this comparison one that can be made part by part. -/

/-- A run after another one. -/
def Record.followedBy (r : Record α) (r' : Record β) : Record β :=
  { r' with
    turns := r.turns ++ r'.turns
    sayings := r.sayings ++ r'.sayings
    arrived := r.arrived ++ r'.arrived }

/-- A run without what was said in it. -/
def Record.unheard (r : Record α) : Record α := { r with sayings := [] }

/-- **One dialogue after the other is run in what the first one leaves.** -/
theorem run_bind (d : Dialogue α) (f : α → Dialogue β) (c : HttpClient) (n : Network) :
    run c n (d.bind f)
      = (run c n d).followedBy (run c (run c n d).network (f (run c n d).result)) := by
  induction d generalizing n with
  | done a => rfl
  | say s rest ih => exact congrArg (Record.saying s) (ih n)
  | getText path next ih =>
    simp only [bind, run, ih, Record.followedBy, Record.saying, Record.after, List.cons_append,
      List.append_assoc]
  | getJson path next ih =>
    simp only [bind, run, ih, Record.followedBy, Record.saying, Record.after, List.cons_append,
      List.append_assoc]
  | postJson path body next ih =>
    simp only [bind, run, ih, Record.followedBy, Record.saying, Record.after, List.cons_append,
      List.append_assoc]

/-- What was said in the second part does not matter for the whole. -/
theorem unheard_followedBy {r : Record α} {r₁ r₂ : Record β} (h : r₁.unheard = r₂.unheard) :
    (r.followedBy r₁).unheard = (r.followedBy r₂).unheard := by
  obtain ⟨result, network, turns, sayings, arrived⟩ := r₁
  cases h
  rfl

end Dialogue

/-! ## Dialogues that may fail

The same for attempts, where a second part is run only if the first one has succeeded. -/

namespace Attempt

variable {α β : Type}

/-- The attempt says nothing to the user, however it is answered. -/
def Quiet (m : Attempt α) : Prop := Dialogue.Quiet m.run

/-- A part that only reports. -/
theorem Quiet.tells_bind {m : Attempt α} {f : α → Attempt β}
    {post : List Turn → List Saying → Except Failure β → Prop} (hm : m.Quiet)
    (h : m.Ensures fun ts r => Leading f post ts [] r) : (m >>= f).Tells post :=
  Attempt.tells_bind (Dialogue.Quiet.tells hm h)

theorem Quiet.bind {m : Attempt α} {f : α → Attempt β} (hm : m.Quiet) (hf : ∀ a, (f a).Quiet) :
    (m >>= f).Quiet := by
  refine Dialogue.Quiet.bind hm fun r => ?_
  cases r with
  | ok a => exact hf a
  | error e => trivial

/-- A second part adds turns behind those of the first. -/
theorem turns_bind (m : Attempt α) (f : α → Attempt β) (c : HttpClient) (n : Network) :
    ∃ more, (Dialogue.run c n (m >>= f).run).turns = (Dialogue.run c n m.run).turns ++ more :=
  ⟨_, congrArg Dialogue.Record.turns (Dialogue.run_bind m.run _ c n)⟩

/-- Two second parts that are run alike behind the same first part. -/
theorem unheard_bind {m : Attempt α} {f f' : α → Attempt β} {c : HttpClient} {n : Network}
    (h : ∀ a, (Dialogue.run c n m.run).result = .ok a →
      (Dialogue.run c (Dialogue.run c n m.run).network (f a).run).unheard
        = (Dialogue.run c (Dialogue.run c n m.run).network (f' a).run).unheard) :
    (Dialogue.run c n (m >>= f).run).unheard = (Dialogue.run c n (m >>= f').run).unheard := by
  refine (congrArg _ (Dialogue.run_bind m.run _ c n)).trans
    (Eq.trans (Dialogue.unheard_followedBy ?_) (congrArg _ (Dialogue.run_bind m.run _ c n).symm))
  cases hr : (Dialogue.run c n m.run).result with
  | ok a => exact h a hr
  | error e => rfl

/-- The same second part behind two first parts that are run alike. -/
theorem unheard_bind_left {m m' : Attempt α} {c : HttpClient} {n : Network}
    (h : (Dialogue.run c n m.run).unheard = (Dialogue.run c n m'.run).unheard) (f : α → Attempt β) :
    (Dialogue.run c n (m >>= f).run).unheard = (Dialogue.run c n (m' >>= f).run).unheard := by
  refine (congrArg _ (Dialogue.run_bind m.run _ c n)).trans
    (Eq.trans ?_ (congrArg _ (Dialogue.run_bind m'.run _ c n).symm))
  generalize Dialogue.run c n m.run = r at h ⊢
  generalize Dialogue.run c n m'.run = r' at h ⊢
  obtain ⟨result, network, turns, sayings, arrived⟩ := r
  cases h
  rfl

end Attempt

/-! ## The parts of a command

All parts but one only report.  The exception is setting the members of a text, where the user is
told of each name that is not declared. -/

namespace Records

variable {α : Type}

theorem quiet_lift {d : Dialogue α} (h : d.Quiet) : (lift d).Quiet :=
  Dialogue.Quiet.bind h fun _ => trivial

theorem quiet_orFail {ε : Type} (f : ε → Failure) (x : Except ε α) : (orFail f x).Quiet := by
  cases x <;> trivial

theorem quiet_loadModels (l : Loader) : (loadModels l).Quiet := by
  refine .bind (quiet_lift fun _ => trivial) fun answer => ?_
  refine .bind (quiet_lift (Dialogue.quiet_logAll _)) fun _ => ?_
  exact .bind (quiet_orFail _ _) fun r => .bind (quiet_lift ⟨rfl, trivial⟩) fun _ => trivial

theorem quiet_gatewayOf (r : Registry) (model : String) : (gatewayOf r model).Quiet := by
  rw [gatewayOf]
  split <;> trivial

theorem quiet_fetch (g : Gateway) (id : String) : (fetch g id).Quiet :=
  .bind (quiet_lift ⟨rfl, trivial⟩) fun _ =>
    .bind (quiet_lift fun _ => trivial) fun _ => quiet_orFail _ _

theorem quiet_send (g : Gateway) (a : Action) (i : Instance) : (send g a i).Quiet := by
  refine .bind (quiet_orFail _ _) fun url => .bind (quiet_lift ⟨rfl, trivial⟩) fun _ => ?_
  refine .bind (quiet_lift fun _ => trivial) fun answer => ?_
  split <;> trivial

end Records
end RemoteModels
