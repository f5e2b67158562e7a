import SessionBroker.Session.Basic

/-!
The start of a session.

The indexer is started first, then the analysis workers of the layout, the debugger and the
docs worker. A worker that cannot be started is left out. The readiness of two analysis
workers is merged; that of a single one passes as it is.
-/

namespace SessionBroker

/-- How the workers of a session start. -/
structure Staffing where
  layout : Layout
  /-- The size of the mailbox of each worker that can be started. -/
  sizes : PerWorker (Option Nat)
  deriving DecidableEq, Repr

def Layout.analysis : Layout → List Worker
  | .mixed => [.primary, .java]
  | .javaOnly => [.java]

namespace Staffing

/-- The workers that are to be started, in order. -/
def wanted (f : Staffing) : List Worker := .indexer :: f.layout.analysis ++ [.debugger, .docs]

def isStarted (f : Staffing) (w : Worker) : Bool := f.wanted.contains w && (f.sizes.get w).isSome

/-- The workers as they are found by the session. -/
def topology (f : Staffing) : Topology where
  layout := f.layout
  mailboxes := .ofFn fun w => if f.isStarted w then (f.sizes.get w).map Mailbox.empty else none

def analysisCount (f : Staffing) : Nat := (f.layout.analysis.filter f.isStarted).length

/-- The relay of the analysis workers, when the layout has two. -/
def analysisRelay (f : Staffing) : Option Relay :=
  match f.layout with
  | .javaOnly => none
  | .mixed =>
    let n := f.analysisCount
    some (Relay.new.start (if 1 < n then some (.new n) else none))

end Staffing

namespace Session

/-- A session whose workers have been started and have not emitted anything. -/
def start (c : Config) (f : Staffing) (search files : Behaviour) (clientSize : Nat) :
    Except ConfigFault Session := do
  c.validate
  let broker ← Broker.ofConfig c
  return {
    collaborators := ⟨search, files, c.shutdown.searchGrace⟩
    now := 0, cancelled := false, handleHeld := true
    inbox := .empty inboxSize, broker
    phase := .serving [], teardown := .new [], released := false
    topology := f.topology, emitters := .ofFn f.isStarted
    support := Relay.new.start none, analysis := f.analysisRelay
    gate := .new c.session.maxBufferedEvents.toNat
    client := .empty clientSize, index := .refreshing, watches := [] }

end Session

end SessionBroker
