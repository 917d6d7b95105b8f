import RemoteModels.Http

/-!
# Dialogues with a server

A dialogue is a program that asks a server one thing after another, and says things on the way.  It
fixes which request follows which answer, and nothing about how they travel.

Since a dialogue is data, its branches can be looked at without running it.  What it sends in reply
to answers that no network would give is fixed as well.

* `Dialogue` — the programs.
* `Turn` — a request with its answer.
* `Dialogue.run` — a dialogue over a network, with its turns and all that was said.
-/

set_option autoImplicit false

namespace RemoteModels

open Json (Value)

/-- What a program says: a line of output, a text beside the output, or a report. -/
inductive Saying where
  | out (line : String)
  | err (text : String)
  | log (e : LogEntry)
deriving DecidableEq

/-- A program that talks to a server: it ends with a result, says something, or asks and goes on
with the answer. -/
inductive Dialogue (α : Type) where
  | done (a : α)
  | say (s : Saying) (rest : Dialogue α)
  | getText (path : String) (next : TextAnswer → Dialogue α)
  | getJson (path : String) (next : Answer → Dialogue α)
  | postJson (path : String) (body : Value) (next : Answer → Dialogue α)

/-- A request of a dialogue with its answer. -/
inductive Turn where
  | text (path : String) (answer : TextAnswer)
  | get (path : String) (answer : Answer)
  | post (path : String) (body : Value) (answer : Answer)

namespace Dialogue

variable {α β : Type}

/-- Goes on with a second dialogue where the first ends. -/
def bind : Dialogue α → (α → Dialogue β) → Dialogue β
  | .done a, f => f a
  | .say s rest, f => .say s (rest.bind f)
  | .getText path next, f => .getText path fun a => (next a).bind f
  | .getJson path next, f => .getJson path fun a => (next a).bind f
  | .postJson path body next, f => .postJson path body fun a => (next a).bind f

instance : Monad Dialogue where
  pure := .done
  bind := bind

def out (line : String) : Dialogue Unit := .say (.out line) (.done ())

def err (text : String) : Dialogue Unit := .say (.err text) (.done ())

def log (e : LogEntry) : Dialogue Unit := .say (.log e) (.done ())

/-- Says several reports in order. -/
def logAll : List LogEntry → Dialogue Unit
  | [] => .done ()
  | e :: rest => .say (.log e) (logAll rest)

/-- Says several lines of output in order. -/
def outAll : List String → Dialogue Unit
  | [] => .done ()
  | line :: rest => .say (.out line) (outAll rest)

def askText (path : String) : Dialogue TextAnswer := .getText path .done

def askJson (path : String) : Dialogue Answer := .getJson path .done

def askPost (path : String) (body : Value) : Dialogue Answer := .postJson path body .done

/-! ## Running

A run follows one branch.  It keeps the turns it took, what was said, and what went over the
network, all in the order in which they came. -/

/-- What became of a dialogue over a network. -/
structure Record (α : Type) where
  result : α
  network : Network
  turns : List Turn := []
  sayings : List Saying := []
  /-- What was handed over to the network, whether or not an answer came back. -/
  arrived : List HttpMessage := []

/-- Puts something said before in front. -/
def Record.saying {α : Type} (s : Saying) (r : Record α) : Record α :=
  { r with sayings := s :: r.sayings }

/-- Puts a turn with what arrived in it in front. -/
def Record.after {α : Type} (turn : Turn) (arrived : List HttpMessage) (r : Record α) : Record α :=
  { r with turns := turn :: r.turns, arrived := arrived ++ r.arrived }

/-- The report of a request. -/
def sending (text : String) : Saying := .log ⟨.debug, .transport, text, []⟩

/-- Runs a dialogue over a network. -/
def run (c : HttpClient) : Network → Dialogue α → Record α
  | n, .done a => { result := a, network := n }
  | n, .say s rest => (run c n rest).saying s
  | n, .getText path next =>
    let x := c.getText n path
    ((run c x.network (next x.answer)).after (.text path x.answer) x.arrived).saying
      (sending ("GET " ++ path ++ " (text)"))
  | n, .getJson path next =>
    let x := c.getJson n path
    ((run c x.network (next x.answer)).after (.get path x.answer) x.arrived).saying
      (sending ("GET " ++ path))
  | n, .postJson path body next =>
    let x := c.postJson n path body
    ((run c x.network (next x.answer)).after (.post path body x.answer) x.arrived).saying
      (sending ("POST " ++ path))

end Dialogue
end RemoteModels
