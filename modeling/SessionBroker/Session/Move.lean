import SessionBroker.Session.Start
import SessionBroker.Watch.Activity

/-!
What can happen to a session.

A move is the step of a task or something from outside: the client, a worker, a file, the
clock. `Session.run` follows a list of moves; a move that is not possible changes nothing.
So the lists of moves are all the ways in which the tasks can take turns.
-/

namespace SessionBroker

inductive Move where
  /-- A task takes its turn. -/
  | step (task : Task)
  /-- The holder of the client's handle sends a message to the broker. -/
  | send (message : BrokerMessage)
  /-- The client's handle is given up. -/
  | dropHandle
  /-- A worker emits an event. -/
  | emit (worker : Worker) (event : Event)
  /-- A worker gives up its mailbox and can emit no more. -/
  | stopWorker (worker : Worker)
  /-- A worker can emit no more. -/
  | muteWorker (worker : Worker)
  /-- A worker reads its mailbox. -/
  | readWorker (worker : Worker) (count : Nat)
  /-- The refresh of the search index ends. -/
  | finishIndex (outcome : IndexOutcome)
  /-- A watch begins. -/
  | watch (watch : Watch)
  /-- The watch of that number sees a raw event. -/
  | fileEvent (number : Nat) (event : FileEvent)
  /-- The session is cancelled. -/
  | cancel
  /-- Time passes. -/
  | advance (by_ : Duration)
  /-- The client reads. -/
  | readClient (count : Nat)
  /-- The client reads no more. -/
  | closeClient
  deriving Repr

namespace Session

def send (s : Session) (m : BrokerMessage) : Except Refusal Session :=
  if s.handleHeld then (s.inbox.offer m).map fun inbox => { s with inbox } else .error .gone

/-- A worker emits an event. It is refused as gone if the worker cannot emit. -/
def emit (s : Session) (w : Worker) (e : Event) : Except Refusal Session :=
  if !s.emitters.get w then .error .gone
  else
    match s.analysis, w.isAnalysis with
    | some relay, true =>
      (relay.inbox.offer ⟨.worker w, e⟩).map fun inbox =>
        { s with analysis := some { relay with inbox } }
    | _, _ =>
      (s.support.inbox.offer ⟨.worker w, e⟩).map fun inbox =>
        { s with support := { s.support with inbox } }

def muteWorker (s : Session) (w : Worker) : Session :=
  { s with emitters := s.emitters.set w false }

/-- A worker gives up its mailbox and can emit no more. -/
def stopWorker (s : Session) (w : Worker) : Session :=
  { s.muteWorker w with topology := s.topology.close w }

def readWorker (s : Session) (w : Worker) (count : Nat) : List WorkerMessage × Session :=
  let (read, topology) := s.topology.take w count
  (read, { s with topology })

def finishIndex (s : Session) (outcome : IndexOutcome) : Session :=
  match s.index with
  | .refreshing => { s with index := .reporting outcome false }
  | _ => s

def addWatch (s : Session) (w : Watch) : Session := { s with watches := s.watches ++ [w] }

/-- The watcher to be registered for the watch that began last. -/
def lastWatcher (s : Session) : Watcher := ⟨"fs", .awaits (s.watches.length - 1)⟩

def fileEvent (s : Session) (number : Nat) (event : FileEvent) : Session :=
  { s with watches := s.watches.modify number fun w =>
      if w.running then { w with events := w.events ++ [event] } else w }

def readClient (s : Session) (count : Nat) : Session :=
  { s with client := (s.client.take count).2 }

def apply (s : Session) : Move → Session
  | .step task => (s.step task).getD s
  | .send m => (s.send m).toOption.getD s
  | .dropHandle => { s with handleHeld := false }
  | .emit w e => (s.emit w e).toOption.getD s
  | .stopWorker w => s.stopWorker w
  | .muteWorker w => s.muteWorker w
  | .readWorker w count => (s.readWorker w count).2
  | .finishIndex outcome => s.finishIndex outcome
  | .watch w => s.addWatch w
  | .fileEvent number event => s.fileEvent number event
  | .cancel => { s with cancelled := true }
  | .advance by_ => { s with now := s.now + by_ }
  | .readClient count => s.readClient count
  | .closeClient => { s with client := s.client.close }

def run (s : Session) (moves : List Move) : Session := moves.foldl apply s

/-- What the watches see of some raw events: each watch those that concern its root. -/
def sightings (s : Session) (events : List FileEvent) : List Move :=
  s.watches.zipIdx.flatMap fun (w, number) =>
    (events.filterMap (·.under? w.root)).map (.fileEvent number)

end Session

end SessionBroker
