import SessionBroker.Wire.Event
import SessionBroker.Wire.Worker

/-!
Events on their way to the client.
-/

namespace SessionBroker

inductive Origin where
  | broker
  | worker (worker : Worker)
  deriving DecidableEq, Repr

structure Outgoing where
  origin : Origin
  event : Event
  deriving DecidableEq, Repr

def Outgoing.ofBroker (event : Event) : Outgoing := ⟨.broker, event⟩

end SessionBroker
