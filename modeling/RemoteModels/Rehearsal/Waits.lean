import RemoteModels.Barrier

/-!
# Rehearsing barriers

Waits on a barrier are started under a name and polled one at a time.

A wait is done as soon as it is polled with the barrier open, and a wait that was given up leaves no
trace.
-/

set_option autoImplicit false

namespace RemoteModels
namespace Rehearsal

/-- What can be done with a barrier and those who wait for it. -/
inductive BarrierStep where
  | complete
  | wait (task : String)
  | poll (task : String)
  | cancel (task : String)

/-- What a step results in. -/
inductive BarrierReply where
  | fired (b : Bool)
  | done
  | waiting
  | noTask
  | cancelled (wasThere : Bool)

/-- A barrier and the names of those who wait for it. -/
structure Watch where
  barrier : Barrier
  waiting : List String := []

namespace Watch

/-- One step. -/
def act (w : Watch) : BarrierStep → Watch × BarrierReply
  | .complete =>
    let (b, fired) := w.barrier.complete
    ({ w with barrier := b }, .fired fired)
  | .wait task =>
    if w.barrier.ready then (w, .done)
    else ({ w with waiting := task :: w.waiting.filter (· ≠ task) }, .waiting)
  | .poll task =>
    if !w.waiting.contains task then (w, .noTask)
    else if w.barrier.ready then ({ w with waiting := w.waiting.filter (· ≠ task) }, .done)
    else (w, .waiting)
  | .cancel task =>
    ({ w with waiting := w.waiting.filter (· ≠ task) }, .cancelled (w.waiting.contains task))

end Watch
end Rehearsal
end RemoteModels
