import SessionBroker.Outbound.Relay

/-!
A relay, the gate and a client that keeps reading.

`settle` lets events flow until nothing moves: the relay first, then the gate, the client
reading whatever reaches it.
-/

namespace SessionBroker

/-- The way of events to the client. -/
structure Pipeline where
  /-- The relay, and whether anyone can still emit into it. -/
  relay : Option (Relay × Bool)
  gate : Gate Outgoing
  /-- Whether anyone but the relay can still send to the gate. -/
  gateInUse : Bool
  client : Mailbox Outgoing
  deriving DecidableEq, Repr

namespace Pipeline

def relayRunning (p : Pipeline) : Bool := p.relay.any fun r => r.1.running

def readClient (p : Pipeline) : Pipeline :=
  { p with client := (p.client.take p.client.waiting.length).2 }

/-- One move of the relay, if there is one. -/
def stepRelay (p : Pipeline) : Option Pipeline :=
  p.relay.bind fun (relay, emitters) =>
    (relay.step p.gate.inbox !emitters).map fun (relay, inbox) =>
      { p with relay := some (relay, emitters), gate := { p.gate with inbox } }

/-- One move of the gate, if there is one. -/
def stepGate (p : Pipeline) : Option Pipeline :=
  (p.gate.step p.client !(p.gateInUse || p.relayRunning)).map fun (gate, client) =>
    { p with gate, client }

/-- One move, after the client has read. -/
def step (p : Pipeline) : Option Pipeline :=
  let p := p.readClient
  p.stepRelay.or p.stepGate

/-- Moves until nothing is left to do, at most `fuel` times. -/
def run (p : Pipeline) : (fuel : Nat) → Pipeline
  | 0 => p.readClient
  | fuel + 1 => p.step.elim p.readClient fun p => p.run fuel

/-- Enough moves for everything that is on its way: each event is read and handed on by the
relay and by the gate, and each of them ends once. -/
def load (p : Pipeline) : Nat :=
  let inRelay := p.relay.elim 0 fun (r, _) => 4 * r.inbox.waiting.length + 3
  inRelay + 2 * (p.gate.inbox.waiting.length + p.gate.held.length + p.gate.leaving.length) + 3

def settle (p : Pipeline) : Pipeline := p.run p.load

end Pipeline

end SessionBroker
