import RemoteModels.Proofs.Instance.Invariant

/-!
# The contract of a call

A call that may not be made sends nothing and changes nothing.  Any other call sends one post,
succeeds on the answers its action accepts, and on every other answer leaves the instance as it
was, with no request under way.

A call can fail in front of its request, in transport, on an answer that is no record and on a
record without an identity; `Contract` treats the last three as one, since they are the answers
outside `Action.Accepts`.

The contract is stated for an instance and an action, with the fate of the request left open inside
it, because a caller has to know what holds before the fate is known.  That a call is refused or
sends is part of the contract; it is the one place where it matters that the instance can be
reached.

* `Gateway.Contract` — the contract for one instance and action.
* `Gateway.perform_contract` — every call on a reachable instance keeps it.
-/

set_option autoImplicit false

namespace RemoteModels

open Json (Value Object)

namespace Gateway

variable {g : Gateway} {i : Instance} {a : Action} {url : String}

/-- What a call of an action on an instance keeps to, whatever becomes of its request. -/
structure Contract (g : Gateway) (a : Action) (i : Instance) : Prop where
  /-- The call is refused, or it sends its post to one place. -/
  total : (∃ e, Refuses i a e) ∨ ∃ url, Sends g i a url
  /-- A call that is refused sends nothing and changes nothing. -/
  refused : ∀ e, Refuses i a e → ∀ fate,
    g.perform a i fate = (i, .refused e) ∧ (g.perform a i fate).2.requests = []
  /-- A call that is not refused sends one post. -/
  sent : ∀ url, Sends g i a url → ∀ fate,
    (g.perform a i fate).2.requests = [.post url (body a i)]
  /-- Once answered, the call has succeeded exactly if the action accepts the answer, and if it
  has failed then only the mark of a request under way may have changed. -/
  answered : ∀ url, Sends g i a url → ∀ answer, ∃ i' result,
    g.perform a i (.answered answer) = (i', .finished (.post url (body a i)) result) ∧
      (result = .ok () ↔ a.Accepts answer) ∧
      ∀ e, result = .error e → i' = { i with pending := false }

/-! ## Its parts

A call is refused or sent; if it is sent, the answer decides, and nothing else does. -/

/-- A call that is refused leaves the instance alone. -/
theorem perform_of_refuses {e : RequestError} (h : Refuses i a e) (fate : Fate) :
    g.perform a i fate = (i, .refused e) := by
  rw [perform, target_of_refuses h]

/-- A call that is answered is settled by its answer. -/
theorem perform_answered (h : Sends g i a url) (answer : Answer) :
    g.perform a i (.answered answer)
      = ((settle a url i answer).1,
          .finished (.post url (body a i)) (settle a url i answer).2) := by
  rw [perform, target_eq_ok_iff.2 h]

/-- The post is sent whatever becomes of it. -/
theorem requests_of_sends (h : Sends g i a url) (fate : Fate) :
    (g.perform a i fate).2.requests = [.post url (body a i)] := by
  cases fate with
  | dropped => rw [perform, target_eq_ok_iff.2 h]; rfl
  | answered answer => rw [perform_answered h]; rfl

/-- An answered call succeeds on the answers its action accepts, and no other. -/
theorem settle_eq_ok_iff (h : Sends g i a url) (answer : Answer) :
    (settle a url i answer).2 = .ok () ↔ a.Accepts answer := by
  have hc := settle_call h answer
  generalize settle a url i answer = settled at hc ⊢
  obtain ⟨i', result⟩ := settled
  cases hc with
  | failed _ hn _ => exact iff_of_false (by simp) hn
  | put => exact iff_of_true rfl (.put _)
  | post _ hr => exact iff_of_true rfl (Action.accepts_post_iff.2 (by simp [hr]))
  | delete => exact iff_of_true rfl (.delete _)

/-- **A failure leaves the instance as it was**, but for the mark of a request under way. -/
theorem settle_of_eq_error (h : Sends g i a url) {answer : Answer} {e : RequestError}
    (he : (settle a url i answer).2 = .error e) :
    (settle a url i answer).1 = { i with pending := false } := by
  have hc := settle_call h answer
  generalize settle a url i answer = settled at hc he ⊢
  obtain ⟨i', result⟩ := settled
  cases hc with
  | failed => rfl
  | put | post | delete => cases he

/-- **Every call on a reachable instance keeps its contract**, through whatever gateway. -/
theorem perform_contract {d : Descriptor} (h : i.Reachable d) (g : Gateway) (a : Action) :
    Contract g a i where
  total := refuses_or_sends h.sound.linked g a
  refused := by
    intro e he fate
    rw [perform_of_refuses he]
    exact ⟨rfl, rfl⟩
  sent := fun _ hs fate => requests_of_sends hs fate
  answered := by
    intro url hs answer
    exact ⟨_, _, perform_answered hs answer, settle_eq_ok_iff hs answer,
      fun e he => settle_of_eq_error hs he⟩

/-- A change of the bolt goes to its record, and a creation is refused. -/
theorem bolt_contract :
    Instance.bolt.Reachable widget ∧
      Sends ⟨widget⟩ Instance.bolt .put (itemUrl ⟨widget⟩ "7") ∧
      Refuses Instance.bolt (.post "1") (.alreadyCreated "7") ∧
      Contract ⟨widget⟩ .put Instance.bolt ∧ Contract ⟨widget⟩ (.post "1") Instance.bolt := by
  have h : Instance.bolt.Reachable widget := Instance.bolt_reachable
  have hid : Instance.bolt.id = some "7" := rfl
  have hs : Instance.bolt.state ≠ .destroyed := by decide
  exact ⟨h, .put hs hid, .alreadyCreated rfl hid, perform_contract h _ _, perform_contract h _ _⟩

end Gateway
end RemoteModels
