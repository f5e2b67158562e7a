import SessionBroker.Outbound.Relay
import SessionBroker.Session.Outlets
import SessionBroker.Watch.Task

/-!
A session: the broker with everything around it.

The tasks of a session share nothing but mailboxes. `Session.step` is one move of one task;
it is `none` when the task has to wait or is over. Any order of moves is possible.
-/

namespace SessionBroker

/-- What the broker is busy with. -/
inductive Phase where
  /-- It serves its mailbox; `agenda` holds acts that are still to be carried out. -/
  | serving (agenda : List Act)
  /-- It tears the session down. -/
  | closing (ending : Ending)
  | ended (ending : Ending)
  deriving DecidableEq, Repr

/-- The refresh of the search index at start-up. -/
inductive IndexTask where
  | refreshing
  /-- The outcome is on its way to the broker; `holdsSender` tells whether the task waits for
  room in the mailbox. -/
  | reporting (outcome : IndexOutcome) (holdsSender : Bool)
  | done
  deriving DecidableEq, Repr

/-- Whether the task keeps the broker's mailbox in use. -/
def IndexTask.holdsSender : IndexTask → Bool
  | .reporting _ holds => holds
  | _ => false

inductive Task where
  | gate
  /-- The relay of the workers that do not take part in merged readiness. -/
  | support
  /-- The relay of the analysis workers. -/
  | analysis
  | broker
  | index
  /-- The watch of that number. -/
  | watch (number : Nat)
  deriving DecidableEq, Repr

structure Session where
  collaborators : Collaborators
  now : Duration
  /-- Whether the session was cancelled from outside. -/
  cancelled : Bool
  /-- Whether the client still holds its handle. -/
  handleHeld : Bool
  inbox : Mailbox BrokerMessage
  broker : Broker
  phase : Phase
  teardown : Teardown
  /-- Whether the broker has told the workers to end. -/
  released : Bool
  topology : Topology
  /-- Whether a worker can still emit events. -/
  emitters : PerWorker Bool
  support : Relay
  /-- Only sessions with two kinds of analysis worker have it. -/
  analysis : Option Relay
  gate : Gate Outgoing
  client : Mailbox Outgoing
  index : IndexTask
  watches : List Watch
  deriving Repr

namespace Session

def inboxSize : Nat := 256

/-! ### Who is still there -/

def hasSender (s : Session) : Bool :=
  s.handleHeld || s.index.holdsSender || s.watches.any (·.holdsSender)

def ending? (s : Session) : Option Ending :=
  match s.phase with
  | .ended ending => some ending
  | _ => none

def isOver (s : Session) : Bool := s.ending?.isSome

/-- Whether the events of a worker go through the relay of the analysis workers. -/
def usesAnalysisRelay (s : Session) (w : Worker) : Bool := s.analysis.isSome && w.isAnalysis

/-- Whether a worker can still emit into the relay of the analysis workers, or into the other
one. -/
def hasEmitter (s : Session) (analysis : Bool) : Bool :=
  Worker.all.any fun w => s.emitters.get w && s.usesAnalysisRelay w == analysis

def gateInUse (s : Session) : Bool :=
  !s.isOver || s.support.running || s.analysis.any (·.running)

def clientInUse (s : Session) : Bool := !s.isOver || s.gate.running

/-- Whether the workers are told to end: by the broker, or with the whole session. -/
def workersCancelled (s : Session) : Bool := s.cancelled || s.released

/-- Whether the watch of a number is to end: its stop was called, or the session was
cancelled. -/
def watchStopped (s : Session) (number : Nat) : Bool :=
  s.cancelled || s.teardown.calls.any fun
    | .stopWatcher ⟨_, .awaits task⟩ => task == number
    | _ => false

/-- Whether the task of the watch of a number is over. -/
def watchEnded (s : Session) (number : Nat) : Bool :=
  (s.watches[number]?).all fun w => !w.running

/-! ### The moves of the broker -/

def outlets (s : Session) : Outlets := ⟨s.topology, s.gate.inbox, s.client⟩

/-- The session after the broker has written to its mailboxes. -/
def withOutlets (s : Session) (p : Outlets) : Session :=
  { s with topology := p.topology, gate := { s.gate with inbox := p.gate }, client := p.client }

def beginTeardown (s : Session) (ending : Ending) : Session :=
  { s with phase := .closing ending, teardown := .new s.broker.watchers
           broker := { s.broker with watchers := [] } }

/-- The analysis workers are asked to recompile when that is due. -/
def recompileIfDue (s : Session) : Option Session :=
  match s.broker.debouncer.poll s.now with
  | (true, debouncer) =>
    some { s with broker := { s.broker with debouncer }, topology := s.topology.recompileAll }
  | (false, _) => none

/-- The broker carries out acts as far as it need not wait. When none is left it looks at the
clock, so that a recompile that fell due in the meantime comes before anything else. -/
def act (s : Session) (acts : List Act) : Session :=
  match s.outlets.perform acts with
  | (.finish ending :: _, p) => (s.withOutlets p).beginTeardown ending
  | ([], p) =>
    let s := { s.withOutlets p with phase := .serving [] }
    s.recompileIfDue.getD s
  | (left, p) => { s.withOutlets p with phase := .serving left }

/-- The broker takes the next message out of its mailbox. -/
def receive (s : Session) : Option Session :=
  match s.inbox.next? with
  | some (m, inbox) =>
    let (broker, acts) := s.broker.handle s.now m
    some ({ s with inbox, broker }.act acts)
  | none => if s.hasSender then none else some (s.beginTeardown (.exit .disconnected))

/-- The session is over: nobody reads the broker's mailbox, and the workers are to end. -/
def conclude (s : Session) (ending : Ending) : Session :=
  { s with phase := .ended ending, released := true, inbox := s.inbox.close }

def stepTeardown (s : Session) (ending : Ending) : Option Session :=
  (s.teardown.step s.collaborators s.watchEnded s.now).map fun teardown =>
    let s := { s with teardown }
    if teardown.stage = .done then s.conclude ending else s

/-- One move of the broker. Cancellation comes before a recompile that is due, and that
before the mailbox. A recompile can be made from the debouncer's deadline on; a timer that wakes
the broker late only makes it later, so the deadline is not rounded. The limits of a teardown
are, in `Teardown.expiry`, for there the rounding decides between an answer and its absence. -/
def stepBroker (s : Session) : Option Session :=
  match s.phase with
  | .serving (a :: rest) => if s.outlets.canPerform a then some (s.act (a :: rest)) else none
  | .serving [] =>
    if s.cancelled then some (s.beginTeardown (.exit .cancelled))
    else s.recompileIfDue.or s.receive
  | .closing ending => s.stepTeardown ending
  | .ended _ => none

/-! ### The moves of the other tasks -/

def stepGate (s : Session) : Option Session :=
  (s.gate.step s.client !s.gateInUse).map fun (gate, client) => { s with gate, client }

/-- One move of the relay of the workers without merged readiness. -/
def stepSupport (s : Session) : Option Session :=
  (s.support.step s.gate.inbox !s.hasEmitter false).map fun (support, inbox) =>
    { s with support, gate := { s.gate with inbox } }

/-- One move of the relay of the analysis workers. -/
def stepAnalysis (s : Session) : Option Session :=
  s.analysis.bind fun relay =>
    (relay.step s.gate.inbox !s.hasEmitter true).map fun (relay, inbox) =>
      { s with analysis := some relay, gate := { s.gate with inbox } }

/-- One move of the index task. It reports only while someone else can send to the
broker. -/
def stepIndex (s : Session) : Option Session :=
  match s.index with
  | .reporting outcome holds =>
    if !s.hasSender then some { s with index := .done }
    else
      match s.inbox.offer (.indexed outcome) with
      | .ok inbox => some { s with inbox, index := .done }
      | .error .gone => some { s with index := .done }
      | .error .full => if holds then none else some { s with index := .reporting outcome true }
  | _ => none

/-- One move of the watch of a number. While it delivers changes it does not notice that it
is to end. -/
def stepWatch (s : Session) (number : Nat) : Option Session :=
  let put (w : Watch) : Session := { s with watches := s.watches.set number w }
  (s.watches[number]?).bind fun w =>
    if !w.running then none
    else
      match w.delivering with
      | change :: rest =>
        if !s.hasSender then some (put w.stop)
        else
          match s.inbox.offer (.change change) with
          | .ok inbox =>
            some { put { w with delivering := rest, holdsSender := false } with inbox }
          | .error .gone => some (put w.stop)
          | .error .full => if w.holdsSender then none else some (put { w with holdsSender := true })
      | [] => if s.watchStopped number then some (put w.stop) else w.look.map put

def step (s : Session) : Task → Option Session
  | .gate => s.stepGate
  | .support => s.stepSupport
  | .analysis => s.stepAnalysis
  | .broker => s.stepBroker
  | .index => s.stepIndex
  | .watch number => s.stepWatch number

def tasks (s : Session) : List Task :=
  [.gate, .support, .analysis, .broker, .index] ++ (List.range s.watches.length).map .watch

end Session

end SessionBroker
