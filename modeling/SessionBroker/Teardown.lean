import SessionBroker.Duration

/-!
The orderly end of a session.

Every watcher is stopped, in the order of registration; then the search engine is shut
down, for which there is a time limit; then the file system is closed. Each step runs
whatever became of the steps before it, and failures are collected in order.
-/

namespace SessionBroker

inductive ServiceError where
  | failed (text : String)
  | io (text : String)
  deriving DecidableEq, Repr

def ServiceError.message : ServiceError → String
  | .failed text => text
  | .io text => "I/O error: " ++ text

inductive Behaviour where
  /-- It answers after some time, with an error or without. -/
  | finishes (after : Duration) (error : Option ServiceError)
  /-- It never answers. -/
  | hangs
  deriving DecidableEq, Repr

inductive WatcherStop where
  | behaves (behaviour : Behaviour)
  /-- It ends together with a background task of the session. -/
  | awaits (task : Nat)
  deriving DecidableEq, Repr

structure Watcher where
  name : String
  stop : WatcherStop
  deriving DecidableEq, Repr

inductive TeardownError where
  | watcher (name : String) (error : ServiceError)
  | search (error : ServiceError)
  | timeout (grace : Duration)
  | files (error : ServiceError)
  deriving DecidableEq, Repr

def TeardownError.message : TeardownError → String
  | watcher name error => "Failed to stop watcher " ++ name ++ ": " ++ error.message
  | search error => "Search engine shutdown failed: " ++ error.message
  | timeout grace => "Search engine did not close within " ++ grace.describe
  | files error => "Failed to close virtual file system: " ++ error.message

inductive TeardownCall where
  | stopWatcher (watcher : Watcher)
  | shutdownSearch
  | closeFiles
  deriving DecidableEq, Repr

/-- What a teardown has to deal with besides the watchers. -/
structure Collaborators where
  search : Behaviour
  files : Behaviour
  grace : Duration
  deriving DecidableEq, Repr

/-- The step a teardown is in; `since` is when the call was made. -/
inductive TeardownStage where
  /-- The next call is still to be made. -/
  | ready
  | stopping (watcher : Watcher) (since : Duration)
  | searching (since : Duration)
  | closing (since : Duration)
  | done
  deriving DecidableEq, Repr

structure Teardown where
  /-- The watchers still to be stopped. -/
  watchers : List Watcher
  stage : TeardownStage
  calls : List TeardownCall
  failures : List TeardownError
  deriving DecidableEq, Repr

namespace Teardown

def new (watchers : List Watcher) : Teardown := ⟨watchers, .ready, [], []⟩

def call (t : Teardown) (c : TeardownCall) (stage : TeardownStage) : Teardown :=
  { t with calls := t.calls ++ [c], stage }

/-- Stops the next watcher, or goes on to the search engine. -/
def next (t : Teardown) (now : Duration) : Teardown :=
  match t.watchers with
  | w :: rest => { t with watchers := rest }.call (.stopWatcher w) (.stopping w now)
  | [] => t.call .shutdownSearch (.searching now)

def note (t : Teardown) (failure : Option TeardownError) : Teardown :=
  { t with failures := t.failures ++ failure.toList }

/-- The answer to a call made at `since`, if it is there by `now`. -/
def answered? (b : Behaviour) (since now : Duration) : Option (Option ServiceError) :=
  match b with
  | .finishes after error => if since + after ≤ now then some error else none
  | .hangs => none

/-- When the time limit for a call made at `since` is over. Timers have the granularity of a
millisecond: a timer counts whole milliseconds from when it is set, so a limit that is none is
rounded up. A limit from a configuration is whole and is kept exactly, whatever the instant of
the call. -/
def expiry (grace since : Duration) : Duration := since + Duration.roundUp grace

/-- One move of the teardown at `now`, or `none` if it has to wait. `ended` tells which
background tasks are over. An answer that comes with the end of the time limit counts. -/
def step (c : Collaborators) (ended : Nat → Bool) (now : Duration) (t : Teardown) :
    Option Teardown :=
  match t.stage with
  | .ready => some (t.next now)
  | .stopping w since =>
    match w.stop with
    | .awaits task => if ended task then some (t.next now) else none
    | .behaves b =>
      (answered? b since now).map fun error =>
        (t.note (error.map (.watcher w.name))).next now
  | .searching since =>
    match answered? c.search since now with
    | some error => some ((t.note (error.map .search)).call .closeFiles (.closing now))
    | none =>
      if expiry c.grace since ≤ now then
        some ((t.note (some (.timeout c.grace))).call .closeFiles (.closing now))
      else none
  | .closing since =>
    (answered? c.files since now).map fun error =>
      { t.note (error.map .files) with stage := .done }
  | .done => none

def answerTime? (b : Behaviour) (since : Duration) : Option Duration :=
  match b with
  | .finishes after _ => some (since + after)
  | .hangs => none

def deadline? (c : Collaborators) (t : Teardown) : Option Duration :=
  match t.stage with
  | .stopping ⟨_, .behaves b⟩ since => answerTime? b since
  | .searching since =>
    let limit := expiry c.grace since
    some ((answerTime? c.search since).elim limit (min limit))
  | .closing since => answerTime? c.files since
  | _ => none

/-- The moves that a teardown of some watchers takes. -/
def moves (t : Teardown) : Nat := t.watchers.length + 4

/-- Runs a teardown to its end with a clock that jumps to the next deadline; gives the time
of the end, or `none` if a call is never answered. -/
def run (c : Collaborators) : (fuel : Nat) → Duration → Teardown → Option (Duration × Teardown)
  | 0, now, t => if t.stage = .done then some (now, t) else none
  | fuel + 1, now, t =>
    if t.stage = .done then some (now, t)
    else
      match t.step c (fun _ => true) now with
      | some t => run c fuel now t
      | none =>
        match t.deadline? c with
        | some later => (t.step c (fun _ => true) (max now later)).bind (run c fuel (max now later))
        | none => none

def isClean (t : Teardown) : Bool := t.failures.isEmpty

end Teardown

end SessionBroker
