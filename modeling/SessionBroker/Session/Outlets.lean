import SessionBroker.Outbound.Gate
import SessionBroker.Routing.Topology
import SessionBroker.Session.Broker

/-!
What the broker acts on.

`perform` carries acts out in order until one of them has to wait for room in a mailbox.
Handing a request to its workers never waits.
-/

namespace SessionBroker

structure Outlets where
  topology : Topology
  gate : Mailbox (GateMessage Outgoing)
  client : Mailbox Outgoing
  deriving DecidableEq, Repr

namespace Outlets

/-- Puts a message into a mailbox unless its reader is gone. -/
def tell {α : Type} (m : Mailbox α) (a : α) : Mailbox α :=
  match m.offer a with
  | .ok m => m
  | .error _ => m

/-- Whether an act can be carried out without waiting. -/
def canPerform (p : Outlets) : Act → Bool
  | .reply _ => p.client.isReady
  | .emit _ | .activate => p.gate.isReady
  | .route _ | .finish _ => true

/-- What the broker does about the fate of a request. A request that was read from a document has
no paths but texts, so there always is a notification about its missing parts. -/
def followUp (id : String) : Except DispatchError Routed → List Act
  | .ok .forwarded => []
  | .ok (.partly parts) => (partialBatchNotification id parts).toOption.toList.map .emit
  | .ok (.shutdown params) =>
    [.emit (Broker.farewell id params), .finish (.exit (.requested params))]
  | .error e => [.emit (.response (e.response id))]

/-- Carries out an act that need not wait; gives the acts that take its place. -/
def performOne (p : Outlets) : Act → List Act × Outlets
  | .reply e => ([], { p with client := tell p.client (.ofBroker e) })
  | .emit e => ([], { p with gate := tell p.gate (.event (.ofBroker e)) })
  | .activate => ([], { p with gate := tell p.gate .activate })
  | .route r =>
    let (topology, fate) := p.topology.dispatch r
    (followUp r.id fate, { p with topology })
  | .finish _ => ([], p)

/-- Carries out acts that make no others, until one has to wait or finishes the session;
gives those that are left. -/
def performPlain (p : Outlets) : List Act → List Act × Outlets
  | [] => ([], p)
  | .finish ending :: rest => (.finish ending :: rest, p)
  | a :: rest =>
    if p.canPerform a then (p.performOne a).2.performPlain rest else (a :: rest, p)

/-- Carries out acts until one has to wait or finishes the session; gives those that are
left. -/
def perform (p : Outlets) : List Act → List Act × Outlets
  | [] => ([], p)
  | .finish ending :: rest => (.finish ending :: rest, p)
  | a :: rest =>
    if p.canPerform a then
      let (more, p) := p.performOne a
      match p.performPlain more with
      | ([], p) => p.perform rest
      | (left, p) => (left ++ rest, p)
    else (a :: rest, p)

end Outlets

end SessionBroker
