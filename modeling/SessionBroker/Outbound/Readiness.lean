import SessionBroker.Wire.Worker
import SessionBroker.Wire.Event

/-!
One readiness out of several.

A registry waits for signals of different workers. The signal that completes the target is
answered with all workers seen, in their fixed order; no other signal is.
-/

namespace SessionBroker

/-- The workers that have signalled so far. -/
structure Readiness where
  target : Nat
  seen : List Worker
  announced : Bool
  deriving DecidableEq, Repr

namespace Readiness

def new (target : Nat) : Readiness := ⟨target, [], false⟩

/-- The workers that satisfy `p`, in their fixed order. -/
def inOrder (p : Worker → Bool) : List Worker := Worker.all.filter p

/-- Notes the signal of a worker; gives the merged readiness if the signal completes it. -/
def observe (r : Readiness) (w : Worker) : Option (List Worker) × Readiness :=
  if r.announced || r.seen.contains w then (none, r)
  else
    let seen := inOrder fun v => v == w || r.seen.contains v
    if seen.length < r.target then (none, { r with seen })
    else (some seen, { r with seen, announced := true })

/-- What an event becomes: readiness of an analysis worker is merged, all else is kept. -/
def merge (r : Readiness) : Event → Option Event × Readiness
  | .ready w =>
    if w.isAnalysis then
      let (merged, r) := r.observe w
      (merged.map .analysisReady, r)
    else (some (.ready w), r)
  | e => (some e, r)

end Readiness

end SessionBroker
