import RemoteModels.Command.Dialogue
import RemoteModels.Proofs.Faults

/-!
# What a dialogue does, whatever it is answered

A dialogue is a tree: after each of its requests it goes on in a way that depends on the answer.
A statement about all its branches is put together from statements about its parts, without a word
about networks.  A run over a network is one of the branches, whatever the network answers and
whether anything arrives at all.

* `Dialogue.Tells` — however the dialogue is answered, its turns, what the user hears and its end
  are like this; `Dialogue.Ensures` — the same with no eye on what is said.
* `Dialogue.tells_bind`, `Dialogue.ensures_bind` — one dialogue after the other.
* `Dialogue.Tells.run`, `Dialogue.Ensures.run` — a run over a network is one of the branches.
* `Dialogue.arrived_run` — what arrives over a network are the messages of the turns.
-/

set_option autoImplicit false

namespace RemoteModels

open Json (Value)

/-! ## Turns

A turn keeps the request and its answer, and the request alone fixes what goes over the network. -/

namespace Turn

/-- How the request of a turn is sent. -/
def method : Turn → HttpMethod
  | .text _ _ => .get
  | .get _ _ => .get
  | .post _ _ _ => .post

/-- Where the request of a turn goes. -/
def path : Turn → String
  | .text path _ => path
  | .get path _ => path
  | .post path _ _ => path

/-- The text that is sent along with the request of a turn. -/
def content : Turn → Option String
  | .text _ _ => none
  | .get _ _ => none
  | .post _ body _ => some body.compact

/-- The request was answered, and the answer is no failure. -/
inductive Succeeded : Turn → Prop
  | text (path : String) (response : TextResponse) : Succeeded (.text path (.ok response))
  | get (path : String) (v : Value) : Succeeded (.get path (.ok v))
  | post (path : String) (body v : Value) : Succeeded (.post path body (.ok v))

/-- The message of a turn, if one can be built. -/
def message? (c : HttpClient) (t : Turn) : Option HttpMessage :=
  (c.prepare t.method t.path t.content).toOption

end Turn

theorem HttpClient.method_of_prepare {c : HttpClient} {method : HttpMethod} {path : String}
    {body : Option String} {m : HttpMessage} (h : c.prepare method path body = .ok m) :
    m.method = method := by
  rw [prepare] at h
  split at h
  · cases h
  · simp only at h
    split at h
    · cases h
    · split at h
      · cases h
      · split at h
        · cases h
        · split at h
          · cases h
          · cases h
            rfl

theorem Turn.method_of_message? {c : HttpClient} {t : Turn} {m : HttpMessage}
    (h : t.message? c = some m) : m.method = t.method :=
  HttpClient.method_of_prepare (eq_ok_of_toOption h)

/-! ## All branches of a dialogue

A predicate over a dialogue is a weakest precondition: it says of the tree, before any answer is
known, that every branch ends in the right way.  `Tells` is the general one.  Most of what is proved
about commands is about what they send, and there `Ensures` does, which is `Tells` with no eye on
what is said; its rules are those of `Tells`. -/

/-- What the user hears of a saying: all but reports. -/
def Saying.heard : Saying → List Saying
  | .log _ => []
  | s => [s]

namespace Dialogue

variable {α β : Type} {d : Dialogue α} {f : α → Dialogue β}

/-- However the dialogue is answered, its turns, what the user hears and its end are like this. -/
def Tells : Dialogue α → (List Turn → List Saying → α → Prop) → Prop
  | .done a, post => post [] [] a
  | .say s rest, post => rest.Tells fun ts said a => post ts (s.heard ++ said) a
  | .getText path next, post =>
    ∀ answer, (next answer).Tells fun ts said a => post (.text path answer :: ts) said a
  | .getJson path next, post =>
    ∀ answer, (next answer).Tells fun ts said a => post (.get path answer :: ts) said a
  | .postJson path body next, post =>
    ∀ answer, (next answer).Tells fun ts said a => post (.post path body answer :: ts) said a

/-- **One dialogue after the other**: the turns of the second follow those of the first, and so does
what is said. -/
theorem tells_bind {post : List Turn → List Saying → β → Prop} :
    (d.bind f).Tells post ↔ d.Tells fun ts said a =>
      (f a).Tells fun ts' said' b => post (ts ++ ts') (said ++ said') b := by
  induction d generalizing post with
  | done a => rfl
  | say s rest ih =>
    refine ih.trans ?_
    simp only [Tells, List.append_assoc]
  | getText path next ih => exact forall_congr' fun answer => ih answer
  | getJson path next ih => exact forall_congr' fun answer => ih answer
  | postJson path body next ih => exact forall_congr' fun answer => ih answer

theorem Tells.mono {post post' : List Turn → List Saying → α → Prop}
    (hpost : ∀ ts said a, post ts said a → post' ts said a) (h : d.Tells post) : d.Tells post' := by
  induction d generalizing post post' with
  | done a => exact hpost [] [] a h
  | say s rest ih => exact ih (fun ts said a => hpost ts _ a) h
  | getText path next ih =>
    exact fun answer => ih answer (fun ts said a => hpost _ said a) (h answer)
  | getJson path next ih =>
    exact fun answer => ih answer (fun ts said a => hpost _ said a) (h answer)
  | postJson path body next ih =>
    exact fun answer => ih answer (fun ts said a => hpost _ said a) (h answer)

theorem tells_logAll {logs : List LogEntry} {post : List Turn → List Saying → Unit → Prop} :
    (logAll logs).Tells post ↔ post [] [] () := by
  induction logs with
  | nil => rfl
  | cons e rest ih => exact ih

theorem tells_outAll {lines : List String} {post : List Turn → List Saying → Unit → Prop} :
    (outAll lines).Tells post ↔ post [] (lines.map .out) () := by
  induction lines generalizing post with
  | nil => rfl
  | cons line rest ih => exact ih

/-- However the dialogue is answered, its turns and its end are like this, whatever is said. -/
def Ensures (d : Dialogue α) (post : List Turn → α → Prop) : Prop :=
  d.Tells fun ts _ a => post ts a

theorem ensures_bind {post : List Turn → β → Prop} :
    (d.bind f).Ensures post ↔
      d.Ensures fun ts a => (f a).Ensures fun ts' b => post (ts ++ ts') b :=
  tells_bind

theorem Ensures.mono {post post' : List Turn → α → Prop}
    (hpost : ∀ ts a, post ts a → post' ts a) (h : d.Ensures post) : d.Ensures post' :=
  Tells.mono (fun ts _ a => hpost ts a) h

theorem ensures_logAll {logs : List LogEntry} {post : List Turn → Unit → Prop} :
    (logAll logs).Ensures post ↔ post [] () :=
  tells_logAll

theorem ensures_outAll {lines : List String} {post : List Turn → Unit → Prop} :
    (outAll lines).Ensures post ↔ post [] () :=
  tells_outAll

/-! ## Over a network

A network picks one answer for each request, so a run is one branch of the tree.  Beside its turns
the run has what was handed to the server; the two are tied together once, in `arrived_run`, so that
statements about turns become statements about messages. -/

/-- **A run over a network is one of the branches.** -/
theorem Tells.run {post : List Turn → List Saying → α → Prop} (h : d.Tells post) (c : HttpClient)
    (n : Network) :
    post (d.run c n).turns ((d.run c n).sayings.flatMap Saying.heard) (d.run c n).result := by
  induction d generalizing n post with
  | done a => exact h
  | say s rest ih => exact ih h n
  | getText path next ih => exact ih _ (h (c.getText n path).answer) (c.getText n path).network
  | getJson path next ih => exact ih _ (h (c.getJson n path).answer) (c.getJson n path).network
  | postJson path body next ih =>
    exact ih _ (h (c.postJson n path body).answer) (c.postJson n path body).network

theorem Ensures.run {post : List Turn → α → Prop} (h : d.Ensures post) (c : HttpClient)
    (n : Network) : post (d.run c n).turns (d.run c n).result :=
  Tells.run h c n

end Dialogue

/-- Whether messages are carried at all. -/
def Network.isReachable : Network → Bool
  | .unreachable => false
  | .scripted _ => true

/-- The messages that a network lets through. -/
def Network.carried (n : Network) (ms : List HttpMessage) : List HttpMessage :=
  if n.isReachable then ms else []

namespace HttpClient

variable {α : Type} (c : HttpClient) (n : Network) (method : HttpMethod) (path : String)
  (body : Option String) (read : HttpResponse → Except TransportError α)

theorem isReachable_send :
    (c.send n method path body read).network.isReachable = n.isReachable := by
  rw [send]
  cases c.prepare method path body with
  | error fault => rfl
  | ok m =>
    cases n with
    | unreachable => rfl
    | scripted responses =>
      cases responses with
      | nil => rfl
      | cons response rest => cases response <;> rfl

theorem arrived_send :
    (c.send n method path body read).arrived
      = n.carried (c.prepare method path body).toOption.toList := by
  rw [send]
  cases c.prepare method path body with
  | error fault => cases n <;> rfl
  | ok m =>
    cases n with
    | unreachable => rfl
    | scripted responses =>
      cases responses with
      | nil => rfl
      | cons response rest => cases response <;> rfl

end HttpClient

namespace Dialogue

variable {α : Type}

/-- One more turn in front keeps the turns and what arrived together. -/
theorem arrived_after {c : HttpClient} {n n' : Network} {r : Record α} {t : Turn}
    {arrived : List HttpMessage} (hn : n'.isReachable = n.isReachable)
    (ht : arrived = n.carried (c.prepare t.method t.path t.content).toOption.toList)
    (hr : r.arrived = n'.carried (r.turns.filterMap (Turn.message? c))) :
    (r.after t arrived).arrived
      = n.carried ((r.after t arrived).turns.filterMap (Turn.message? c)) := by
  rw [Record.after, ht, hr, Network.carried, Network.carried, Network.carried, hn]
  cases n.isReachable with
  | false => rfl
  | true =>
    rw [List.filterMap_cons, Turn.message?]
    cases (c.prepare t.method t.path t.content).toOption <;> rfl

/-- **What arrives are the messages of the turns**, in their order, if anything arrives at all. -/
theorem arrived_run (d : Dialogue α) (c : HttpClient) (n : Network) :
    (d.run c n).arrived = n.carried ((d.run c n).turns.filterMap (Turn.message? c)) := by
  induction d generalizing n with
  | done a => cases n <;> rfl
  | say s rest ih => exact ih n
  | getText path next ih =>
    exact arrived_after (c.isReachable_send n .get path none (·.text))
      (c.arrived_send n .get path none (·.text)) (ih _ _)
  | getJson path next ih =>
    exact arrived_after (c.isReachable_send n .get path none (·.json))
      (c.arrived_send n .get path none (·.json)) (ih _ _)
  | postJson path body next ih =>
    exact arrived_after (c.isReachable_send n .post path (some body.compact) (·.json))
      (c.arrived_send n .post path (some body.compact) (·.json)) (ih _ _)

end Dialogue
end RemoteModels
