/-!
# Barriers

A barrier counts outstanding things down to zero and then opens for good.  Completing one thing
takes two steps: the count goes down, and the step that takes it to zero makes the opening known.

* `Barrier.decrement`, `Barrier.publish` — the two steps.
* `Barrier.complete` — both at once.
-/

set_option autoImplicit false

namespace RemoteModels

structure Barrier where
  pending : Nat
  ready : Bool
deriving DecidableEq

namespace Barrier

/-- A barrier for so many things; one for nothing is open. -/
def ofCount (n : Nat) : Barrier := ⟨n, n == 0⟩

/-- Counts down by one, never below zero.  The result tells whether this step reached zero. -/
def decrement (b : Barrier) : Barrier × Bool :=
  ({ b with pending := b.pending - 1 }, b.pending == 1)

/-- Makes known that the barrier is open. -/
def publish (b : Barrier) : Barrier := { b with ready := true }

/-- Completes one thing.  The result tells whether this opened the barrier. -/
def complete (b : Barrier) : Barrier × Bool :=
  let (b, fired) := b.decrement
  (if fired then b.publish else b, fired)

end Barrier
end RemoteModels
