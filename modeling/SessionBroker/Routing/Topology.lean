import SessionBroker.Mailbox
import SessionBroker.Routing.Plan
import SessionBroker.Wire.Event

/-!
Delivery of requests to workers.

A topology holds the mailbox of every worker that was started. Dispatch puts each part of
a request into the mailbox of its worker and never waits: a request fails only when no part
was delivered, and otherwise tells which parts were not.
-/

namespace SessionBroker

structure PerWorker (α : Type) where
  primary : α
  java : α
  debugger : α
  indexer : α
  docs : α
  deriving DecidableEq, Repr

namespace PerWorker

variable {α β : Type}

def replicate (a : α) : PerWorker α := ⟨a, a, a, a, a⟩

def get (x : PerWorker α) : Worker → α
  | .primary => x.primary
  | .java => x.java
  | .debugger => x.debugger
  | .indexer => x.indexer
  | .docs => x.docs

def set (x : PerWorker α) (w : Worker) (a : α) : PerWorker α :=
  match w with
  | .primary => { x with primary := a }
  | .java => { x with java := a }
  | .debugger => { x with debugger := a }
  | .indexer => { x with indexer := a }
  | .docs => { x with docs := a }

def ofFn (f : Worker → α) : PerWorker α :=
  ⟨f .primary, f .java, f .debugger, f .indexer, f .docs⟩

@[simp] theorem get_set_self (x : PerWorker α) (w : Worker) (a : α) : (x.set w a).get w = a := by
  cases w <;> rfl

theorem get_set_of_ne (x : PerWorker α) {v w : Worker} (a : α) (h : v ≠ w) :
    (x.set w a).get v = x.get v := by
  cases v <;> cases w <;> first | rfl | exact absurd rfl h

@[simp] theorem get_ofFn (f : Worker → α) (w : Worker) : (ofFn f).get w = f w := by
  cases w <;> rfl

end PerWorker

inductive WorkerMessage where
  /-- A request, or the worker's part of one. -/
  | request (request : Request)
  /-- The sources have changed. -/
  | recompile
  deriving DecidableEq, Repr

/-- The workers of a session. A worker that was not started has no mailbox. -/
structure Topology where
  layout : Layout
  mailboxes : PerWorker (Option (Mailbox WorkerMessage))
  deriving DecidableEq, Repr

/-- A part of a batch that was not delivered. -/
structure Undelivered where
  worker : Worker
  error : DispatchError
  files : List SourceFile
  deriving DecidableEq, Repr

/-- What became of a request. -/
inductive Routed where
  | forwarded
  /-- The session ends. -/
  | shutdown (params : ShutdownParams)
  /-- Some parts were delivered, these were not. -/
  | partly (undelivered : List Undelivered)
  deriving DecidableEq, Repr

namespace Topology

def empty (layout : Layout) : Topology := ⟨layout, .replicate none⟩

def mailbox? (t : Topology) (w : Worker) : Option (Mailbox WorkerMessage) := t.mailboxes.get w

def setMailbox (t : Topology) (w : Worker) (m : Mailbox WorkerMessage) : Topology :=
  { t with mailboxes := t.mailboxes.set w (some m) }

def analysisWorkers (t : Topology) : List Worker :=
  [Worker.primary, .java].filter fun w => (t.mailbox? w).isSome

/-- Why a worker with a mailbox does not get a request. -/
def refusalError (w : Worker) : Refusal → DispatchError
  | .gone => .workerGone w
  | .full => .workerBusy w

/-- Puts a request into the mailbox of a worker. -/
def deliver (t : Topology) (d : Delivery) : Except DispatchError Topology :=
  match t.mailbox? d.worker with
  | none => .error (.workerUnavailable d.worker)
  | some m =>
    match m.offer (.request d.request) with
    | .ok m => .ok (t.setMailbox d.worker m)
    | .error refusal => .error (refusalError d.worker refusal)

def batchFiles (r : Request) : List SourceFile :=
  match r.data with
  | .analyzeBatch params => params.files
  | _ => []

/-- Attempts every delivery; gives those that failed. -/
def deliverAll (t : Topology) : List Delivery → Topology × List Undelivered
  | [] => (t, [])
  | d :: rest =>
    match t.deliver d with
    | .ok t => t.deliverAll rest
    | .error error =>
      let (t, undelivered) := t.deliverAll rest
      (t, ⟨d.worker, error, batchFiles d.request⟩ :: undelivered)

/-- Hands a request to its workers. It fails, with the error of the first worker, only when
no part of it was delivered. -/
def dispatch (t : Topology) (r : Request) : Topology × Except DispatchError Routed :=
  match plan t.layout r with
  | .error e => (t, .error e)
  | .ok (.shutdown params) => (t, .ok (.shutdown params))
  | .ok (.forward deliveries) =>
    match t.deliverAll deliveries with
    | (t, []) => (t, .ok .forwarded)
    | (t, first :: others) =>
      if (first :: others).length < deliveries.length then (t, .ok (.partly (first :: others)))
      else (t, .error first.error)

/-- Asks a worker to recompile; nothing if it was not started. -/
def recompile (t : Topology) (w : Worker) : Option (Except Refusal Topology) :=
  (t.mailbox? w).map fun m => (m.offer .recompile).map (t.setMailbox w)

/-- Asks a worker to recompile if its mailbox accepts that. -/
def tryRecompile (t : Topology) (w : Worker) : Topology :=
  match t.recompile w with
  | some (.ok t) => t
  | _ => t

/-- Asks every analysis worker to recompile. One with a full mailbox is passed over: it has
work to do already. -/
def recompileAll (t : Topology) : Topology := t.analysisWorkers.foldl tryRecompile t

def take (t : Topology) (w : Worker) (n : Nat) : List WorkerMessage × Topology :=
  match t.mailbox? w with
  | none => ([], t)
  | some m =>
    let (read, m) := m.take n
    (read, t.setMailbox w m)

/-- The worker has stopped reading. -/
def close (t : Topology) (w : Worker) : Topology :=
  match t.mailbox? w with
  | none => t
  | some m => t.setMailbox w m.close

end Topology

/-! ### Partly delivered batches -/

/-- The method of the notification about a partly delivered batch. -/
def partialBatchMethod : String := "analyze_batch/partial"

/-- An undelivered part as a value, members sorted by key. -/
def Undelivered.encode (u : Undelivered) : Except DataFault Json := do
  let files ← u.files.mapM SourceFile.encode
  return .obj [("code", .ofInt32 u.error.code), ("files", .arr files),
    ("message", .str u.error.message), ("worker", .str u.worker.name)]

/-- The notification about the parts of a batch that were not delivered. There is none if the path
of one of their files is not text. -/
def partialBatchNotification (id : String) (parts : List Undelivered) : Except DataFault Event := do
  let failed ← parts.mapM Undelivered.encode
  return .notification partialBatchMethod (.obj [("failed", .arr failed), ("id", .str id)])

end SessionBroker
