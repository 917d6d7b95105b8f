/-!
# Fair locks

A lock is held by any number of readers or by one writer.  Those who cannot have it wait in line.
When it becomes free it goes at once to the head of the line: to one writer, or to all readers up to
the next writer.  Nobody overtakes the line.

* `Lock.request` — taking the lock or a place in line.
* `Lock.release` — giving back whichever of the two a task has.
-/

set_option autoImplicit false

namespace RemoteModels

/-- The number of a task. -/
abbrev TaskId := Nat

inductive Mode where
  | read
  | write
deriving DecidableEq

structure Lock where
  held : List (TaskId × Mode) := []
  line : List (TaskId × Mode) := []
deriving DecidableEq

namespace Lock

def free : Lock := {}

/-- Whether one more may join the holders. -/
def admits (held : List (TaskId × Mode)) : Mode → Bool
  | .read => held.all (·.2 == .read)
  | .write => held.isEmpty

def holds (l : Lock) (t : TaskId) : Bool := l.held.any (·.1 == t)

/-- Hands the lock to the head of the line as long as the holders admit it. -/
def grant (held : List (TaskId × Mode)) : List (TaskId × Mode) → Lock
  | [] => ⟨held, []⟩
  | w :: rest => if admits held w.2 then grant (held ++ [w]) rest else ⟨held, w :: rest⟩

/-- Takes the lock if nobody waits and the holders admit it, else a place in line. -/
def request (l : Lock) (t : TaskId) (m : Mode) : Lock :=
  if l.line.isEmpty && admits l.held m then { l with held := l.held ++ [(t, m)] }
  else { l with line := l.line ++ [(t, m)] }

/-- Gives back what a task has of the lock. -/
def release (l : Lock) (t : TaskId) : Lock :=
  grant (l.held.filter (·.1 != t)) (l.line.filter (·.1 != t))

end Lock
end RemoteModels
