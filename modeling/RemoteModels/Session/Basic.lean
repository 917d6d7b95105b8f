import RemoteModels.Barrier
import RemoteModels.Loader
import RemoteModels.Session.Lock

/-!
# Sessions

A session owns the current registry.  Any number of calls work on it at the same time: `load` builds
the registry if there is none, `reload` builds a new one, `factory` looks at it, and `ready` waits
for the first one.  The registry is kept in a cell behind a lock, and a barrier tells when there is
one.

Calls may run in parallel, so a step of a call changes at most one thing that the others can see:
the lock, the cell, the count of the barrier, or whether the barrier is open.

* `Call`, `Phase` — the calls, and how far one has come.
* `Session.advance` — one step of one call; a call that has to wait takes none.
* `Session.begin`, `Session.drop` — starting a call and giving it up.
* `Session.poll` — a call's steps up to its end or to where it has to wait.
-/

set_option autoImplicit false

namespace RemoteModels

/-! ## Calls

A phase stands for the place in a call at which it has come to a stop between two steps, with what
it has to remember there. -/

/-- What can be asked of a session. -/
inductive Call where
  | load
  | reload
  | factory
  | ready
deriving DecidableEq

/-- The calls that build a registry. -/
inductive Builder where
  | load
  | reload
deriving DecidableEq

/-- What has been done once a registry is in its place. -/
def Builder.verb : Builder → String
  | .load => "loaded"
  | .reload => "reloaded"

/-- A registry, and the number of the request whose answer it was built from. -/
structure Build where
  request : Nat
  registry : Registry

/-- What a call returns. -/
inductive Outcome where
  | loaded (b : Build)
  | unloaded
  | failed (e : LoadError)

/-- How far a call has come. -/
inductive Phase where
  /-- Nothing has been done. -/
  | start (call : Call)
  /-- A load waits for the lock as a reader, to look whether there is a registry. -/
  | loadPeek
  /-- A load has found no registry and given the lock back. -/
  | loadMissed
  /-- A load waits for the lock as the writer. -/
  | loadClaim
  /-- A load that holds the lock waits for an answer. -/
  | loadFetch (request : Nat)
  /-- A load has filled the cell and holds the lock to its end. -/
  | loadInstalled (b : Build)
  /-- A reload waits for an answer. -/
  | reloadFetch (request : Nat)
  /-- A reload waits for the lock as the writer. -/
  | reloadClaim (b : Build)
  /-- A reload has filled the cell and holds the lock. -/
  | reloadInstalled (b : Build)
  /-- A reload has filled the cell and given the lock back. -/
  | reloadReleased (b : Build)
  /-- The barrier has been counted down; `last` tells whether it has to be opened. -/
  | counted (builder : Builder) (b : Build) (last : Bool)
  /-- The barrier has been completed. -/
  | told (builder : Builder) (b : Build)
  /-- A look at the cell waits for the lock as a reader. -/
  | factoryPeek
  /-- A wait for the first registry waits for the barrier. -/
  | readyWait
  /-- A wait for the first registry waits for the lock as a reader. -/
  | readyPeek
  | done (o : Outcome)

/-- Whether a call may be given up here: only where it waits, has not started or has ended.  So
nothing comes between filling the cell and telling. -/
def Phase.interruptible : Phase → Bool
  | .loadMissed => false
  | .loadInstalled _ => false
  | .reloadInstalled _ => false
  | .reloadReleased _ => false
  | .counted _ _ _ => false
  | .told _ _ => false
  | _ => true

/-- The registry in use, and all calls that are under way. -/
structure Session where
  loader : Loader
  cell : Option Build := none
  barrier : Barrier := .ofCount 1
  lock : Lock := .free
  /-- The number of requests sent. -/
  requests : Nat := 0
  /-- The number of calls begun. -/
  begun : Nat := 0
  tasks : List (TaskId × Phase) := []

/-- What a step lets the outside see. -/
structure Effects where
  requests : List Request := []
  logs : List LogEntry := []

namespace Effects

def append (a b : Effects) : Effects := ⟨a.requests ++ b.requests, a.logs ++ b.logs⟩

instance : Append Effects := ⟨append⟩

end Effects

namespace Session

def new (loader : Loader) : Session := { loader := loader }

def isReady (s : Session) : Bool := s.barrier.ready

def phase? (s : Session) (t : TaskId) : Option Phase :=
  (s.tasks.find? (·.1 == t)).map (·.2)

def setPhase (s : Session) (t : TaskId) (p : Phase) : Session :=
  { s with tasks := s.tasks.map fun q => if q.1 == t then (t, p) else q }

/-- The outcome of what is in the cell. -/
def current (s : Session) : Outcome :=
  match s.cell with
  | some b => .loaded b
  | none => .unloaded

/-! ## Steps

Most steps do one thing and go on to the next phase; these are named first.  A step that has to wait
is one that is not there, so that a call stays where it is until the step can be taken. -/

/-- Asks for the lock and goes on to a phase that waits for it. -/
def ask (s : Session) (t : TaskId) (m : Mode) (p : Phase) : Session :=
  ({ s with lock := s.lock.request t m } : Session).setPhase t p

def giveBack (s : Session) (t : TaskId) : Session := { s with lock := s.lock.release t }

def finish (s : Session) (t : TaskId) (o : Outcome) : Session := s.setPhase t (.done o)

/-- Sends a request for the specification. -/
def send (s : Session) (t : TaskId) (p : Nat → Phase) : Session × Effects :=
  (({ s with requests := s.requests + 1 } : Session).setPhase t (p s.requests),
    { requests := [s.loader.request] })

def install (s : Session) (b : Build) : Session := { s with cell := some b }

/-- Counts the barrier down. -/
def count (s : Session) (t : TaskId) (builder : Builder) (b : Build) : Session :=
  ({ s with barrier := s.barrier.decrement.1 } : Session).setPhase t
    (.counted builder b s.barrier.decrement.2)

/-- Opens the barrier, if that is what is left to do. -/
def tell (s : Session) (t : TaskId) (builder : Builder) (b : Build) (last : Bool) : Session :=
  ({ s with barrier := if last then s.barrier.publish else s.barrier } : Session).setPhase t
    (.told builder b)

/-- Reports and ends a call that has filled the cell. -/
def conclude (s : Session) (t : TaskId) (builder : Builder) (b : Build) : Session × Effects :=
  (s.finish t (.loaded b),
    { logs := [⟨.info, .session,
        "session " ++ builder.verb ++ " " ++ toString b.registry.size ++ " models", []⟩] })

/-- One step of a call, where `answers` tells which requests have been answered.  A call that has to
wait or has ended takes no step. -/
def advance (s : Session) (answers : Nat → Option TextAnswer) (t : TaskId) :
    Option (Session × Effects) :=
  match s.phase? t with
  | none => none
  | some (.done _) => none
  | some (.start .load) => some (s.ask t .read .loadPeek, {})
  | some (.start .reload) => some (s.send t .reloadFetch)
  | some (.start .factory) => some (s.ask t .read .factoryPeek, {})
  | some (.start .ready) => some (s.setPhase t .readyWait, {})
  | some .loadPeek =>
    if s.lock.holds t then
      match s.cell with
      | some b => some ((s.giveBack t).finish t (.loaded b), {})
      | none => some ((s.giveBack t).setPhase t .loadMissed, {})
    else none
  | some .loadMissed => some (s.ask t .write .loadClaim, {})
  | some .loadClaim =>
    if s.lock.holds t then
      match s.cell with
      | some b => some ((s.giveBack t).finish t (.loaded b), {})
      | none => some (s.send t .loadFetch)
    else none
  | some (.loadFetch n) =>
    (answers n).map fun answer =>
      match s.loader.build answer with
      | (.ok r, logs) =>
        ((s.install ⟨n, r⟩).setPhase t (.loadInstalled ⟨n, r⟩), { logs := logs })
      | (.error e, logs) => ((s.giveBack t).finish t (.failed e), { logs := logs })
  | some (.loadInstalled b) => some (s.count t .load b, {})
  | some (.reloadFetch n) =>
    (answers n).map fun answer =>
      match s.loader.build answer with
      | (.ok r, logs) => (s.ask t .write (.reloadClaim ⟨n, r⟩), { logs := logs })
      | (.error e, logs) =>
        (s.finish t (.failed e),
          { logs := logs ++ [⟨.warn, .session,
              "reload failed, keeping current models: " ++ e.message, []⟩] })
  | some (.reloadClaim b) =>
    if s.lock.holds t then some ((s.install b).setPhase t (.reloadInstalled b), {}) else none
  | some (.reloadInstalled b) => some ((s.giveBack t).setPhase t (.reloadReleased b), {})
  | some (.reloadReleased b) => some (s.count t .reload b, {})
  | some (.counted builder b last) => some (s.tell t builder b last, {})
  | some (.told .load b) => some ((s.giveBack t).conclude t .load b)
  | some (.told .reload b) => some (s.conclude t .reload b)
  | some .factoryPeek =>
    if s.lock.holds t then some ((s.giveBack t).finish t s.current, {}) else none
  | some .readyWait => if s.isReady then some (s.ask t .read .readyPeek, {}) else none
  | some .readyPeek =>
    if s.lock.holds t then
      match s.cell with
      | some b => some ((s.giveBack t).finish t (.loaded b), {})
      | none => some ((s.giveBack t).setPhase t .readyWait, {})
    else none

/-! ## Calls from outside

The outside starts calls, lets them go on and gives them up.  A call that has ended is forgotten
when its end has been seen. -/

/-- Begins a call, which has done nothing yet. -/
def begin (s : Session) (call : Call) : Session × TaskId :=
  ({ s with begun := s.begun + 1, tasks := s.tasks ++ [(s.begun, .start call)] }, s.begun)

/-- Gives up a call: what it has of the lock goes back. -/
def drop (s : Session) (t : TaskId) : Session :=
  { s.giveBack t with tasks := s.tasks.filter (·.1 != t) }

/-- Takes steps of a call, at most `n` of them. -/
def advanceMany (answers : Nat → Option TextAnswer) (t : TaskId) :
    Nat → Session → Session × Effects
  | 0, s => (s, {})
  | n + 1, s =>
    match s.advance answers t with
    | none => (s, {})
    | some (s, e) =>
      let (s, more) := advanceMany answers t n s
      (s, e ++ more)

/-- More than the steps a call can take without waiting. -/
def maxSteps : Nat := 12

/-- What has become of a call: it waits, or it has ended and is forgotten. -/
inductive Status where
  | waiting
  | ended (o : Outcome)

/-- Takes steps of a call until it ends or has to wait. -/
def poll (s : Session) (answers : Nat → Option TextAnswer) (t : TaskId) :
    Session × Effects × Status :=
  let (s, e) := advanceMany answers t maxSteps s
  match s.phase? t with
  | some (.done o) => (s.drop t, e, .ended o)
  | _ => (s, e, .waiting)

/-- A call that is polled once and given up if it does not end. -/
def once (s : Session) (answers : Nat → Option TextAnswer) (call : Call) :
    Session × Effects × Status :=
  let (s, t) := s.begin call
  match s.poll answers t with
  | (s, e, .waiting) => (s.drop t, e, .waiting)
  | r => r

end Session
end RemoteModels
