import SessionBroker.Debounce
import SessionBroker.Outbound.Outgoing
import SessionBroker.Session.Message

/-!
The broker between the client, the workers and the gate.

`Broker.handle` tells what a message changes and which acts follow from it, in order.
Before the handshake requests are parked. The handshake is answered straight to the client;
then the parked requests are routed, and only then the gate is opened, so that the reply
comes before anything else.
-/

namespace SessionBroker

/-- Whether the handshake has been made. -/
inductive Connection where
  | awaiting
  | active
  deriving DecidableEq, Repr

inductive Act where
  /-- An event for the client, past the gate. -/
  | reply (event : Event)
  /-- An event for the client through the gate. -/
  | emit (event : Event)
  /-- A request is handed to its workers. -/
  | route (request : Request)
  /-- The gate is opened. -/
  | activate
  /-- The session comes to its end. -/
  | finish (ending : Ending)
  deriving DecidableEq, Repr

structure Broker where
  descriptor : Descriptor
  /-- How many requests are parked at most. -/
  maxParked : Nat
  exitAfterIndex : Bool
  connection : Connection
  /-- Requests that came before the handshake, oldest first. -/
  parked : List Request
  debouncer : Debouncer
  /-- The watchers registered so far. -/
  watchers : List Watcher
  deriving DecidableEq, Repr

namespace Broker

def ofConfig (c : Config) : Except ConfigFault Broker := do
  let debouncer ← Debouncer.ofConfig c.watcher
  return { descriptor := ⟨c.server.name, c.server.version⟩
           maxParked := c.session.maxPending.toNat
           exitAfterIndex := c.index.exitAfterIndex
           connection := .awaiting, parked := [], debouncer, watchers := [] }

def greeting (b : Broker) (id : String) : Event :=
  .response (.success id b.descriptor.encode)

/-- The reply to a request that could not be parked. -/
def turnedAway (id : String) : Event :=
  .response (.failure id ErrorCode.notInitialized "session not initialized: pending queue full")

/-- The reply to a request for the end of the session. -/
def farewell (id : String) (params : ShutdownParams) : Event :=
  .response (.success id (.obj [("reason", .str params.reason)]))

/-- Keeps a request for after the handshake, if there is room. -/
def park (b : Broker) (r : Request) : Broker × List Act :=
  if b.maxParked ≤ b.parked.length then (b, [.emit (turnedAway r.id)])
  else ({ b with parked := b.parked ++ [r] }, [])

def accept (b : Broker) (id : String) : Broker × List Act :=
  ({ b with connection := .active, parked := [] },
    .reply (b.greeting id) :: (b.parked.map .route ++ [.activate]))

def handleRequest (b : Broker) (r : Request) : Broker × List Act :=
  match b.connection, r.data with
  | .awaiting, .shutdown params => (b, [.finish (.exit (.requested params))])
  | .awaiting, .handshake _ => b.accept r.id
  | .awaiting, _ => b.park r
  | .active, .handshake _ => (b, [.emit (b.greeting r.id)])
  | .active, _ => (b, [.route r])

/-- What the outcome of the index refresh brings about. -/
def handleIndex (b : Broker) : IndexOutcome → List Act
  | .failed error => [.finish (.failure (.index error))]
  | .refreshed deleted inserted =>
    .emit (.indexReady deleted inserted)
      :: if b.exitAfterIndex then [.finish (.exit .indexComplete)] else []

def handle (b : Broker) (now : Duration) : BrokerMessage → Broker × List Act
  | .request r => b.handleRequest r
  | .reject response => (b, [.emit (.response response)])
  | .change _ => ({ b with debouncer := b.debouncer.notify now }, [])
  | .watcher w => ({ b with watchers := b.watchers ++ [w] }, [])
  | .indexed outcome => (b, b.handleIndex outcome)

end Broker

end SessionBroker
