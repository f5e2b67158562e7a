import SessionBroker.Session.Move

/-!
A fair order of moves.

Tasks take turns in a queue: the first one moves as long as it can, and tasks that can move
are put at the end. `settle` lets them run until nobody can move.
-/

namespace SessionBroker

/-- Lets tasks take turns, at most `fuel` moves and changes of turn. `ready` gives the tasks
that there are. -/
def takeTurns {σ τ : Type} [DecidableEq τ] (ready : σ → List τ) (step : σ → τ → Option σ) :
    (fuel : Nat) → (queue : List τ) → σ → σ
  | 0, _, s => s
  | fuel + 1, queue, s =>
    let waiting := (ready s).filter fun t => !queue.contains t && (step s t).isSome
    match queue ++ waiting with
    | [] => s
    | t :: rest =>
      match step s t with
      | some s => takeTurns ready step fuel (t :: rest) s
      | none => takeTurns ready step fuel rest s

namespace Session

/-- A bound for the moves that a session can make by itself. -/
def load (s : Session) : Nat :=
  let relays := s.support.inbox.waiting.length
    + s.analysis.elim 0 fun r => r.inbox.waiting.length
  let files := s.watches.foldl (fun n w =>
    n + w.delivering.length + w.events.foldl (fun n e => n + e.paths.length + 1) 0) 0
  let broker := s.inbox.waiting.length + s.broker.parked.length + s.broker.watchers.length
  let out := s.gate.inbox.waiting.length + s.gate.held.length + s.gate.leaving.length
    + s.client.waiting.length
  32 * (relays + files + broker + out + s.watches.length + 16)

/-- One move of a task, or of a client that keeps reading. -/
def stepOrRead (s : Session) : Option Task → Option Session
  | some task => s.step task
  | none =>
    match s.client.waiting.length with
    | 0 => none
    | n => some (s.readClient n)

/-- Lets the tasks run, and the client read, until nobody can move; those in the queue come
first. -/
def settleFrom (queue : List Task) (s : Session) : Session :=
  takeTurns (fun s => none :: s.tasks.map some) stepOrRead s.load (queue.map some) s

/-- Lets the tasks run, and the client read, until nobody can move. -/
def settle (s : Session) : Session := s.settleFrom []

/-- The first instant at which a task that waits for the clock can go on. -/
def deadline? (s : Session) : Option Duration :=
  match s.phase with
  | .serving [] => s.broker.debouncer.deadline?
  | .closing _ => s.teardown.deadline? s.collaborators
  | _ => none

/-- How often the clock may have to stop on its way. -/
def stops (s : Session) : Nat :=
  s.inbox.waiting.length + s.broker.watchers.length + s.teardown.watchers.length + 8

end Session

/-- Lets time pass until an instant, stopping at each deadline on the way. `goTo` lets the
tasks run at an instant. -/
def passUntil {σ : Type} (deadline? : σ → Option Duration) (goTo : Duration → σ → σ)
    (target : Duration) : (fuel : Nat) → σ → σ
  | 0, s => goTo target s
  | fuel + 1, s =>
    match (deadline? s).filter (· ≤ target) with
    | some deadline => passUntil deadline? goTo target fuel (goTo deadline s)
    | none => goTo target s

/-- Lets time pass as long as there is a deadline. -/
def passAll {σ : Type} (deadline? : σ → Option Duration) (goTo : Duration → σ → σ) :
    (fuel : Nat) → σ → σ
  | 0, s => s
  | fuel + 1, s =>
    match deadline? s with
    | some deadline => passAll deadline? goTo fuel (goTo deadline s)
    | none => s

/-- Lets the workers that are ready at once say so and everything come to rest. When the
files tell the layout, the indexer runs before it is known, and the relay of the analysis
workers has its turn before the other one. -/
def launchWith {σ : Type} (announce : List Worker → σ → σ) (settleFrom : List Task → σ → σ)
    (composition : Composition) (ready : List Worker) (s : σ) : σ :=
  match composition with
  | .auto =>
    let s := settleFrom [] (announce (ready.filter (· = .indexer)) s)
    settleFrom [.analysis, .support] (announce (ready.filter (· ≠ .indexer)) s)
  | _ => settleFrom [.support, .analysis] (announce ready s)

namespace Session

/-- The session when the clock shows an instant; it never goes back. -/
def setTime (s : Session) (now : Duration) : Session := s.apply (.advance (now - s.now))

def goTo (now : Duration) (s : Session) : Session := (s.setTime now).settle

def pass (s : Session) (time : Duration) : Session :=
  let s := s.settle
  passUntil deadline? goTo (s.now + time) s.stops s

/-- The client gives up its handle, and the session runs to its end. -/
def windUp (s : Session) : Session :=
  let s := (s.apply .dropHandle).settle
  passAll deadline? goTo s.stops s

def announce (ws : List Worker) (s : Session) : Session :=
  s.run (ws.map fun w => .emit w (.ready w))

/-- The session starts to run; some workers are ready at once. -/
def launch (s : Session) (composition : Composition) (ready : List Worker) : Session :=
  launchWith announce settleFrom composition ready s

end Session

end SessionBroker
