import SessionBroker.Mailbox

/-!
The gate in front of the client.

Until it is activated the gate holds events back, at most `capacity` of them; further ones
are dropped. Activation lets the held events go, in order, and every later event passes.
The gate reads one mailbox, so the order of events in it is the order for the client.
-/

namespace SessionBroker

inductive GateMessage (α : Type) where
  | event (event : α)
  | activate
  deriving DecidableEq, Repr

structure Gate (α : Type) where
  capacity : Nat
  inbox : Mailbox (GateMessage α)
  active : Bool
  /-- Events held back until activation, oldest first. -/
  held : List α
  /-- Events on their way to the client, oldest first. -/
  leaving : List α
  running : Bool
  deriving DecidableEq, Repr

namespace Gate

variable {α : Type}

def mailboxSize : Nat := 1024

/-- A gate that has not been activated. -/
def new (capacity : Nat) : Gate α := ⟨capacity, .empty mailboxSize, false, [], [], true⟩

/-- The gate has ended: nobody reads its mailbox any more. -/
def stop (g : Gate α) : Gate α := { g with running := false, inbox := g.inbox.close }

def receive (g : Gate α) : GateMessage α → Gate α
  | .event e =>
    if g.active then { g with leaving := [e] }
    else if g.capacity ≤ g.held.length then g
    else { g with held := g.held ++ [e] }
  | .activate =>
    if g.active then g else { g with active := true, leaving := g.held, held := [] }

/-- One move of the gate: an event leaves for the client, or a message is read, or the gate
ends because the client is gone or, with `orphaned`, because nothing more can come. `none`
if it has to wait. -/
def step (g : Gate α) (client : Mailbox α) (orphaned : Bool) : Option (Gate α × Mailbox α) :=
  if !g.running then none else
  match g.leaving with
  | e :: rest =>
    match client.offer e with
    | .ok client => some ({ g with leaving := rest }, client)
    | .error .gone => some (g.stop, client)
    | .error .full => none
  | [] =>
    match g.inbox.next? with
    | some (m, inbox) => some ({ g with inbox }.receive m, client)
    | none => if orphaned then some (g.stop, client) else none

end Gate

end SessionBroker
