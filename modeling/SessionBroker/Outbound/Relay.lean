import SessionBroker.Outbound.Gate
import SessionBroker.Outbound.Outgoing
import SessionBroker.Outbound.Readiness

/-!
The way of worker events to the gate.

A relay passes on what workers emit, in order. With a registry it merges the readiness of
the analysis workers into one event. Events wait in the relay's mailbox until it starts.
-/

namespace SessionBroker

structure Relay where
  inbox : Mailbox Outgoing
  registry : Option Readiness
  /-- An event on its way to the gate. -/
  leaving : Option Outgoing
  started : Bool
  running : Bool
  deriving DecidableEq, Repr

namespace Relay

def mailboxSize : Nat := 256

/-- A relay that only collects. -/
def new : Relay := ⟨.empty mailboxSize, none, none, false, true⟩

def start (r : Relay) (registry : Option Readiness) : Relay := { r with registry, started := true }

/-- The relay has ended: nobody reads its mailbox any more. -/
def stop (r : Relay) : Relay := { r with running := false, inbox := r.inbox.close }

/-- The relay after reading an event. A merged event comes from the worker whose signal
completed it. -/
def receive (r : Relay) (o : Outgoing) : Relay :=
  match r.registry with
  | none => { r with leaving := some o }
  | some registry =>
    let (merged, registry) := registry.merge o.event
    { r with leaving := merged.map fun event => { o with event }, registry := some registry }

/-- One move of the relay: an event leaves for the gate, or one is read, or the relay ends
because the gate is gone or, with `orphaned`, because no worker can emit any more. `none`
if it has to wait. -/
def step (r : Relay) (gate : Mailbox (GateMessage Outgoing)) (orphaned : Bool) :
    Option (Relay × Mailbox (GateMessage Outgoing)) :=
  if !(r.started && r.running) then none else
  match r.leaving with
  | some e =>
    match gate.offer (.event e) with
    | .ok gate => some ({ r with leaving := none }, gate)
    | .error .gone => some (r.stop, gate)
    | .error .full => none
  | none =>
    match r.inbox.next? with
    | some (e, inbox) => some ({ r with inbox }.receive e, gate)
    | none => if orphaned then some (r.stop, gate) else none

end Relay

end SessionBroker
