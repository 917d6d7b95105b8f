import RemoteModels.Proofs.Instance.History
import RemoteModels.Proofs.Specification.Attainable

/-!
# The life of an instance

An instance gets its identity once, when it is made of a record or created on the server, and
keeps it.  A destroyed instance stays destroyed and sends nothing.  A creation is the step that
gives an identity, so it can succeed once, and not at all where the record brought one along.

Each of the three is a fact about one step, carried along a run: three operations write the state
of an instance and two write its identity, and it is the check in front of a request that keeps a
destroyed instance from being brought back and an identity from being replaced.

* `Instance.Step.id_eq`, `Instance.Step.destroyed`, `Instance.Step.isCreation` — the three steps.
* `Instance.lifecycle` — what they give for a run and for everything that follows it.
-/

set_option autoImplicit false

namespace RemoteModels

open Json (Value Object)

/-- A creation that succeeded. -/
def Event.isCreation (e : Event) : Bool :=
  match e.response, e.operation with
  | .call (.finished _ (.ok ())), .call _ (.post _) _ => true
  | _, _ => false

namespace Instance

variable {i i' : Instance} {op : Operation} {resp : Response} {id : String}

/-! ## One step

Everything that can happen to identity and state happens in one step, and the steps are known.  So
each fact is a case analysis in which most cases leave identity and state alone. -/

/-- An identity stays, whatever identity a record carries. -/
theorem Step.id_eq (hs : Step i op i' resp) (h : i.id = some id) : i'.id = some id := by
  cases hs with
  | set | undeclared | setLocal | update => exact h
  | call hc =>
    cases hc with
    | refused | dropped | failed | put | delete => exact h
    | post hsend =>
      -- A creation is sent only without an identity.
      cases hsend with
      | post _ _ hid =>
        rw [hid] at h
        cases h

/-- A destroyed instance stays so, and no request is sent for it. -/
theorem Step.destroyed (hs : Step i op i' resp) (h : i.state = .destroyed) :
    i'.state = .destroyed ∧ (Event.mk op resp).requests = [] := by
  cases hs with
  | set | undeclared | setLocal | update => exact ⟨h, rfl⟩
  | call hc =>
    cases hc with
    | refused => exact ⟨h, rfl⟩
    | dropped hsend | failed hsend | put hsend | post hsend | delete hsend =>
      exact absurd h hsend.state_ne

/-- A creation takes an instance from no identity to one. -/
theorem Step.isCreation (hs : Step i op i' resp) (h : (Event.mk op resp).isCreation) :
    i.id = none ∧ ∃ id, i'.id = some id := by
  cases hs with
  | set | undeclared | setLocal | update => cases h
  | call hc =>
    cases hc with
    | post hsend hr =>
      cases hsend with
      | post _ _ hid => exact ⟨hid, _, rfl⟩
    | refused | dropped | failed | put | delete => cases h

/-! ## A run

The facts about a run follow by induction on the operations.  For the creations there are two
inductions, one inside the other: up to the first creation the instance has no identity, and from
there on it has one, so that no other creation passes the check. -/

/-- An identity is kept to the end of a run. -/
theorem run_id (h : i.id = some id) (ops : List Operation) : (i.run ops).id = some id :=
  run_keeps (fun i op hi => (i.act_step op).id_eq hi) h ops

/-- A destroyed instance is destroyed at the end of a run. -/
theorem run_destroyed (h : i.state = .destroyed) (ops : List Operation) :
    (i.run ops).state = .destroyed :=
  run_keeps (fun i op hi => ((i.act_step op).destroyed hi).1) h ops

/-- For a destroyed instance nothing is ever sent. -/
theorem requests_of_destroyed (h : i.state = .destroyed) (ops : List Operation) :
    ∀ e ∈ i.history ops, e.requests = [] := by
  induction ops generalizing i with
  | nil => simp [history]
  | cons op ops ih =>
    obtain ⟨hs, hr⟩ := (i.act_step op).destroyed h
    rw [history, List.forall_mem_cons]
    exact ⟨hr, ih hs⟩

/-- With an identity from the start, no creation succeeds. -/
theorem countP_isCreation_eq_zero (h : i.id = some id) (ops : List Operation) :
    (i.history ops).countP Event.isCreation = 0 := by
  induction ops generalizing i with
  | nil => rfl
  | cons op ops ih =>
    have hs := i.act_step op
    have hn : ¬ (Event.mk op (i.act op).2).isCreation := by
      intro hc
      rw [(hs.isCreation hc).1] at h
      cases h
    rw [history, List.countP_cons_of_neg hn]
    exact ih (hs.id_eq h)

/-- **At most one creation succeeds.** -/
theorem countP_isCreation_le_one (i : Instance) (ops : List Operation) :
    (i.history ops).countP Event.isCreation ≤ 1 := by
  induction ops generalizing i with
  | nil => simp [history]
  | cons op ops ih =>
    by_cases hc : (Event.mk op (i.act op).2).isCreation
    · obtain ⟨id, hid⟩ := ((i.act_step op).isCreation hc).2
      have hrest := countP_isCreation_eq_zero hid ops
      rw [history, List.countP_cons_of_pos hc]
      omega
    · rw [history, List.countP_cons_of_neg hc]
      exact ih (i.act op).1

/-- An instance has the identity of the record it was made of. -/
theorem Origin.id_eq {d : Descriptor} {r : Object} (h : Origin d i (some r)) :
    i.id = recordId r := by
  cases h with
  | record h =>
    rw [ofRecord_object] at h
    cases h
    rfl

/-- **The life of an instance.**  After any operations `before` and whatever follows them: an
identity is kept, a destroyed instance stays destroyed and sends nothing, and at most one creation
succeeds, none where the instance was made of a record that carries an identity. -/
theorem lifecycle (i : Instance) (before after : List Operation) :
    (∀ id, (i.run before).id = some id → (i.run (before ++ after)).id = some id) ∧
    ((i.run before).state = .destroyed →
      (i.run (before ++ after)).state = .destroyed ∧
        ∀ e ∈ (i.run before).history after, e.requests = []) ∧
    (i.history (before ++ after)).countP Event.isCreation ≤ 1 ∧
    ∀ d r, Origin d i (some r) → (recordId r).isSome →
      (i.history (before ++ after)).countP Event.isCreation = 0 := by
  refine ⟨?_, ?_, countP_isCreation_le_one i _, ?_⟩
  · intro id h
    rw [run_append]
    exact run_id h after
  · intro h
    rw [run_append]
    exact ⟨run_destroyed h after, requests_of_destroyed h after⟩
  · intro d r ho hr
    obtain ⟨id, hid⟩ := Option.isSome_iff_exists.1 hr
    exact countP_isCreation_eq_zero (ho.id_eq.trans hid) _

/-- A widget that is created, changed by an answer with another identity, and deleted; what is
tried afterwards is refused. -/
theorem lifecycle_widget :
    let before : List Operation :=
      [.call ⟨widget⟩ (.post "1") (.answered (.ok (.object [("id", .number (.natural 7))]))),
        .call ⟨widget⟩ .put (.answered (.ok (.object [("id", .string "8")]))),
        .call ⟨widget⟩ .delete (.answered (.ok .null))]
    let after : List Operation :=
      [.update [("id", .string "9")], .call ⟨widget⟩ .put (.answered (.ok (.object []))),
        .call ⟨widget⟩ (.post "1") (.answered (.ok (.object [("id", .string "9")])))]
    (((fresh widget).run before).id = some "7" ∧
      ((fresh widget).run (before ++ after)).id = some "7") ∧
    (((fresh widget).run before).state = .destroyed ∧
      ((fresh widget).run (before ++ after)).state = .destroyed) ∧
    ((fresh widget).history (before ++ after)).countP Event.isCreation = 1 := by
  intro before after
  obtain ⟨hid, hdestroyed, -, -⟩ := lifecycle (fresh widget) before after
  exact ⟨⟨rfl, hid "7" rfl⟩, ⟨rfl, (hdestroyed rfl).1⟩, by decide⟩

end Instance
end RemoteModels
