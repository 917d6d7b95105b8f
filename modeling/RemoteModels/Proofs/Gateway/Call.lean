import RemoteModels.Gateway
import RemoteModels.Proofs.Instance.Fields

/-!
# What one call can do

A call of a gateway checks the instance, sends one post, and settles the instance by the answer.
`Gateway.perform` does all of it in one go; this file takes it apart once, so that nothing said
about calls later has to open it again.

The order in which a call can fail is part of what it promises.  The check in front of the request
is made on the instance alone, before anything is sent; whatever fails after that fails on an
answer, and the mark of the request is gone by then.

* `Gateway.Sends g i a url` — the action passes the check, and its post goes to `url`.
* `Action.Accepts a answer` — the answer is one with which the action succeeds.
* `Gateway.Effect`, `Gateway.exists_settle_eq` — what an answer does, which is the same for every
  instance: the mark of the request goes, and one of four changes is made.
* `Gateway.Call` — the six ways a call can go, each with the instance it leaves behind;
  `Gateway.perform_call` says that there is no seventh.
-/

set_option autoImplicit false

namespace RemoteModels

open Json (Value Object)

/-- The answers with which an action succeeds: a change wants a record, a creation a record that
carries an identity, and a deletion any answer that is no failure. -/
inductive Action.Accepts : Action → Answer → Prop
  | put (r : Object) : Accepts .put (.ok (.object r))
  | postText {parentId : String} {r : Object} {s : String}
      (h : r.get? "id" = some (.string s)) (hs : s ≠ "") :
      Accepts (.post parentId) (.ok (.object r))
  | postNumber {parentId : String} {r : Object} {n : Json.Number}
      (h : r.get? "id" = some (.number n)) : Accepts (.post parentId) (.ok (.object r))
  | delete (v : Value) : Accepts .delete (.ok v)

theorem Action.accepts_post_iff {parentId : String} {r : Object} :
    (Action.post parentId).Accepts (.ok (.object r)) ↔ (recordId r).isSome := by
  rw [recordId_isSome_iff]
  constructor
  · intro h
    cases h with
    | postText h hs => exact Or.inl ⟨_, h, hs⟩
    | postNumber h => exact Or.inr ⟨_, h⟩
  · rintro (⟨s, h, hs⟩ | ⟨n, h⟩)
    · exact .postText h hs
    · exact .postNumber h

/-- An instance lacks an identity exactly while it is new. -/
def Instance.Linked (i : Instance) : Prop := i.id = none ↔ i.state = .new

namespace Gateway

variable {g : Gateway} {i : Instance} {a : Action} {url id : String}

/-! ## The check in front of a request

What may be sent depends on the state of the instance and on whether it has an identity.  `Sends`
and `Refuses` are the two outcomes of the check, each with the conditions under which it comes
about, and for an instance whose identity and state go together there is no third. -/

/-- The action may be carried out, and its post goes to this path. -/
inductive Sends (g : Gateway) (i : Instance) : Action → String → Prop
  | put {id : String} (hs : i.state ≠ .destroyed) (hid : i.id = some id) :
      Sends g i .put (g.itemUrl id)
  | post (parentId : String) (hs : i.state = .new) (hid : i.id = none) :
      Sends g i (.post parentId) (g.collectionUrl parentId)
  | delete {id : String} (hs : i.state ≠ .destroyed) (hid : i.id = some id) :
      Sends g i .delete (g.itemUrl id)

/-- The identity to send to is that of an instance which has not been destroyed. -/
theorem liveId_eq_ok_iff : liveId i = .ok id ↔ i.state ≠ .destroyed ∧ i.id = some id := by
  rw [liveId, Instance.isDestroyed]
  by_cases hs : i.state = .destroyed
  · simp [hs]
  · cases i.id <;> simp [hs]

theorem exists_id_of_map_liveId {f : String → String} (h : (liveId i).map f = .ok url) :
    ∃ id, url = f id ∧ i.state ≠ .destroyed ∧ i.id = some id := by
  cases hl : liveId i with
  | error e => rw [hl] at h; cases h
  | ok id =>
    rw [hl] at h
    cases h
    exact ⟨id, rfl, liveId_eq_ok_iff.1 hl⟩

/-- **The check passes exactly if the action may be sent**, and then gives the path. -/
theorem target_eq_ok_iff : g.target a i = .ok url ↔ Sends g i a url := by
  constructor
  · intro h
    cases a with
    | put =>
      obtain ⟨id, rfl, hs, hid⟩ := exists_id_of_map_liveId h
      exact .put hs hid
    | delete =>
      obtain ⟨id, rfl, hs, hid⟩ := exists_id_of_map_liveId h
      exact .delete hs hid
    | post parentId =>
      simp only [target] at h
      split at h
      · cases h
      · next hs hid =>
        cases h
        exact .post parentId hs hid
      · cases h
  · intro h
    cases h with
    | put hs hid => rw [target, liveId_eq_ok_iff.2 ⟨hs, hid⟩]; rfl
    | delete hs hid => rw [target, liveId_eq_ok_iff.2 ⟨hs, hid⟩]; rfl
    | post parentId hs hid => simp only [target, hs, hid]

/-- Nothing is sent for an instance that has been destroyed. -/
theorem Sends.state_ne (h : Sends g i a url) : i.state ≠ .destroyed := by
  cases h with
  | put hs => exact hs
  | delete hs => exact hs
  | post _ hs => rw [hs]; decide

/-! ## Why nothing is sent

For an instance whose state and identity go together there is one reason at most, and none exactly
if something is sent. -/

/-- The action is refused without a request, for this reason. -/
inductive Refuses (i : Instance) : Action → RequestError → Prop
  | destroyed {a : Action} (hs : i.state = .destroyed) : Refuses i a .destroyed
  | putMissingId (hs : i.state ≠ .destroyed) (hid : i.id = none) : Refuses i .put .missingId
  | deleteMissingId (hs : i.state ≠ .destroyed) (hid : i.id = none) : Refuses i .delete .missingId
  | alreadyCreated {parentId id : String} (hs : i.state = .synced) (hid : i.id = some id) :
      Refuses i (.post parentId) (.alreadyCreated id)

/-- A call that is to be refused is refused for that reason. -/
theorem target_of_refuses {e : RequestError} (h : Refuses i a e) : g.target a i = .error e := by
  cases h with
  | destroyed hs => cases a <;> simp [target, liveId, Instance.isDestroyed, hs, Except.map]
  | putMissingId hs hid => simp [target, liveId, Instance.isDestroyed, hs, hid, Except.map]
  | deleteMissingId hs hid => simp [target, liveId, Instance.isDestroyed, hs, hid, Except.map]
  | alreadyCreated hs hid => simp [target, hs, hid]

/-- **Every call is refused or sends.**  It takes the link between identity and state: an instance
known to the server without an identity would be refused with an empty one. -/
theorem refuses_or_sends (hi : i.Linked) (g : Gateway) (a : Action) :
    (∃ e, Refuses i a e) ∨ ∃ url, Sends g i a url := by
  by_cases hd : i.state = .destroyed
  · exact Or.inl ⟨_, .destroyed hd⟩
  · cases a with
    | put =>
      cases hid : i.id with
      | none => exact Or.inl ⟨_, .putMissingId hd hid⟩
      | some id => exact Or.inr ⟨_, .put hd hid⟩
    | delete =>
      cases hid : i.id with
      | none => exact Or.inl ⟨_, .deleteMissingId hd hid⟩
      | some id => exact Or.inr ⟨_, .delete hd hid⟩
    | post parentId =>
      cases hs : i.state with
      | new => exact Or.inr ⟨_, .post parentId hs (hi.2 hs)⟩
      | destroyed => exact absurd hs hd
      | synced =>
        obtain ⟨id, hid⟩ := Option.ne_none_iff_exists'.1 fun hn => by rw [hi.1 hn] at hs; cases hs
        exact Or.inl ⟨_, .alreadyCreated hs hid⟩

/-- The reason of a refusal is one of those listed. -/
theorem refuses_of_target (hi : i.Linked) {e : RequestError} (h : g.target a i = .error e) :
    Refuses i a e := by
  rcases refuses_or_sends hi g a with ⟨e', he⟩ | ⟨url, hu⟩
  · rw [target_of_refuses he] at h
    cases h
    exact he
  · rw [target_eq_ok_iff.2 hu] at h
    cases h

/-! ## What becomes of a call

A request can be answered or given up.  An answer is judged by the action: what it accepts is taken
over into the instance, and everything else is an error that leaves the instance as it was.  The
judgement does not depend on the instance, which is why it is stated once for all instances. -/

/-- The requests a call has sent. -/
def Outcome.requests : Outcome → List Request
  | .refused _ => []
  | .dropped request => [request]
  | .finished request _ => [request]

/-- The error a call has reported. -/
def Outcome.error? : Outcome → Option RequestError
  | .refused e => some e
  | .dropped _ => none
  | .finished _ (.ok ()) => none
  | .finished _ (.error e) => some e

/-- The errors that an answer can give rise to. -/
inductive AnswerError : RequestError → Prop
  | transport (e : TransportError) : AnswerError (.transport e)
  | decode (text : String) : AnswerError (.decode text)

/-- What an answer to an action does to the instance, and what the call results in. -/
inductive Effect : Action → Answer → (Instance → Instance) → Except RequestError Unit → Prop
  /-- The answer is none that the action accepts: nothing is taken over. -/
  | failed {a : Action} {answer : Answer} {e : RequestError} (hn : ¬ a.Accepts answer)
      (he : AnswerError e) : Effect a answer (fun i => i) (.error e)
  /-- A change takes the record over. -/
  | put (r : Object) : Effect .put (.ok (.object r)) (fun i => i.markSynced r) (.ok ())
  /-- A creation takes the record over, and the identity with it. -/
  | post (parentId : String) {id : String} {r : Object} (hr : recordId r = some id) :
      Effect (.post parentId) (.ok (.object r)) (fun i => i.markCreated id r) (.ok ())
  /-- A deletion marks the instance as destroyed, whatever the answer says. -/
  | delete (v : Value) : Effect .delete (.ok v) (fun i => i.markDestroyed) (.ok ())

/-- The ways a call can go: the instance and the outcome for a fate of its request. -/
inductive Call (g : Gateway) (i : Instance) : Action → Fate → Instance → Outcome → Prop
  /-- The check fails, and nothing is sent. -/
  | refused {a : Action} {fate : Fate} {e : RequestError} (h : g.target a i = .error e) :
      Call g i a fate i (.refused e)
  /-- The request is given up, and its mark stays. -/
  | dropped {a : Action} {url : String} (h : Sends g i a url) :
      Call g i a .dropped { i with pending := true } (.dropped (.post url (body a i)))
  /-- The answer is none that the action accepts. -/
  | failed {a : Action} {url : String} {answer : Answer} {e : RequestError} (h : Sends g i a url)
      (hn : ¬ a.Accepts answer) (he : AnswerError e) :
      Call g i a (.answered answer) { i with pending := false }
        (.finished (.post url (body a i)) (.error e))
  /-- A change is accepted. -/
  | put {url : String} {r : Object} (h : Sends g i .put url) :
      Call g i .put (.answered (.ok (.object r)))
        (Instance.markSynced { i with pending := false } r)
        (.finished (.post url (body .put i)) (.ok ()))
  /-- A creation is accepted. -/
  | post {parentId url id : String} {r : Object} (h : Sends g i (.post parentId) url)
      (hr : recordId r = some id) :
      Call g i (.post parentId) (.answered (.ok (.object r)))
        (Instance.markCreated { i with pending := false } id r)
        (.finished (.post url (body (.post parentId) i)) (.ok ()))
  /-- A deletion is accepted. -/
  | delete {url : String} {v : Value} (h : Sends g i .delete url) :
      Call g i .delete (.answered (.ok v)) (Instance.markDestroyed { i with pending := false })
        (.finished (.post url (body .delete i)) (.ok ()))

/-! ## One spec for the answer

`Effect` lists what an answer can do, without naming an instance.  What becomes of an instance when
its call is answered is read off the lemma below by a case split on the effect. -/

/-- **An answer does the same to every instance**: the mark of the request goes, and then the
instance is changed as the action wants, or not at all. -/
theorem exists_settle_eq (a : Action) (url : String) (answer : Answer) :
    ∃ change result, Effect a answer change result ∧
      ∀ i, settle a url i answer = (change { i with pending := false }, result) := by
  cases answer with
  | error e => exact ⟨_, _, .failed (fun ha => by cases ha) (.transport e), fun _ => rfl⟩
  | ok v =>
    cases a with
    | delete => exact ⟨_, _, .delete v, fun _ => rfl⟩
    | put =>
      cases v with
      | object r => exact ⟨_, _, .put r, fun _ => rfl⟩
      | null | bool | number | string | array =>
        exact ⟨_, _, .failed (fun ha => by cases ha) (.decode _), fun _ => rfl⟩
    | post parentId =>
      cases v with
      | object r =>
        cases hr : recordId r with
        | none =>
          have hn : ¬ (Action.post parentId).Accepts (.ok (.object r)) := by
            rw [Action.accepts_post_iff, hr]
            simp
          refine ⟨_, _, .failed hn (.decode (url ++ ": created record has no id")), fun i => ?_⟩
          simp only [settle, absorb, recordOf, Value.asObject?, bind, Except.bind, hr]
        | some id =>
          refine ⟨_, _, .post parentId hr, fun i => ?_⟩
          simp only [settle, absorb, recordOf, Value.asObject?, bind, Except.bind, hr, pure,
            Except.pure]
      | null | bool | number | string | array =>
        exact ⟨_, _, .failed (fun ha => by cases ha) (.decode _), fun _ => rfl⟩

/-- A call that is answered goes one of four ways. -/
theorem settle_call (h : Sends g i a url) (answer : Answer) :
    Call g i a (.answered answer) (settle a url i answer).1
      (.finished (.post url (body a i)) (settle a url i answer).2) := by
  obtain ⟨change, result, heffect, hsettle⟩ := exists_settle_eq a url answer
  rw [hsettle]
  cases heffect with
  | failed hn he => exact .failed h hn he
  | put r => exact .put h
  | post parentId hr => exact .post h hr
  | delete v => exact .delete h

/-- **There is no other way a call can go.** -/
theorem perform_call (g : Gateway) (i : Instance) (a : Action) (fate : Fate) :
    Call g i a fate (g.perform a i fate).1 (g.perform a i fate).2 := by
  rw [perform]
  cases ht : g.target a i with
  | error e => exact .refused ht
  | ok url =>
    have h : Sends g i a url := target_eq_ok_iff.1 ht
    cases fate with
    | dropped => exact .dropped h
    | answered answer => exact settle_call h answer

end Gateway
end RemoteModels
