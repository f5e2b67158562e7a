import SessionBroker.Config.Basic
import SessionBroker.Teardown
import SessionBroker.Watch.Change
import SessionBroker.Wire.Request
import SessionBroker.Wire.Response

/-!
What the broker is told, and how a session ends.
-/

namespace SessionBroker

/-- The outcome of the refresh of the search index at start-up. -/
inductive IndexOutcome where
  | refreshed (deleted inserted : UInt64)
  | failed (error : ServiceError)
  deriving DecidableEq, Repr

/-- What the broker finds in its mailbox. -/
inductive BrokerMessage where
  /-- A request of the client. -/
  | request (request : Request)
  /-- The reply to something that is not a request. -/
  | reject (response : Response)
  /-- The sources have changed. -/
  | change (change : Change)
  /-- A watcher that is to be stopped at the end of the session. -/
  | watcher (watcher : Watcher)
  | indexed (outcome : IndexOutcome)
  deriving DecidableEq, Repr

inductive ExitReason where
  /-- The client asked for it. -/
  | requested (params : ShutdownParams)
  /-- The index is complete, and nothing more was wanted. -/
  | indexComplete
  /-- The session was cancelled. -/
  | cancelled
  /-- Nobody can send a request any more. -/
  | disconnected
  deriving DecidableEq, Repr

inductive SessionError where
  /-- The configuration is not usable. -/
  | config (fault : ConfigFault)
  /-- The search index could not be refreshed. -/
  | index (error : ServiceError)
  /-- The client does not take what is written for it. -/
  | output
  deriving DecidableEq, Repr

def SessionError.message : SessionError → String
  | .config fault => "Invalid configuration: " ++ fault.message
  | .index error => "Startup failed: Index refresh failed: " ++ error.message
  | .output => "Codec error: broken pipe"

inductive Ending where
  | exit (reason : ExitReason)
  | failure (error : SessionError)
  deriving DecidableEq, Repr

end SessionBroker
