import SessionBroker.Session.Schedule
import SessionBroker.Transport.Line

/-!
A session behind a stream of bytes.

The server reads lines and tells the broker, and writes the events for the client. It reads
until the input ends or the broker is gone, and writes until no more events can come, so
that replies made during the teardown still arrive. Cancellation stops both at once.
-/

namespace SessionBroker

inductive ServerState where
  | serving
  /-- A message is on its way to the broker. -/
  | forwarding (message : BrokerMessage)
  /-- It has ended; `failed` tells that the client did not take what was written. -/
  | ended (failed : Bool)
  deriving DecidableEq, Repr

/-- A session behind a stream of bytes. -/
structure Transport where
  session : Session
  server : ServerState
  /-- Bytes of the client that have not been read. -/
  unread : List UInt8
  /-- Whether the client writes no more. -/
  inputEnded : Bool
  /-- Whether the client still reads. -/
  readerOpen : Bool
  /-- The events written for the client. -/
  written : List Event
  deriving Repr

namespace Transport

/-- How many events wait for the server at most. -/
def clientSize : Nat := 1024

def ofSession (s : Session) : Transport := ⟨s, .serving, [], false, true, []⟩

def serverEnded (t : Transport) : Bool :=
  match t.server with
  | .ended _ => true
  | _ => false

/-- The server ends: it lets go of the broker and of the events. A failure cancels the
session. -/
def endServer (t : Transport) (failed : Bool) : Transport :=
  { t with server := .ended failed
           session := { t.session with
             handleHeld := false, client := t.session.client.close
             cancelled := t.session.cancelled || failed } }

def stopReading (t : Transport) : Transport :=
  { t with server := .serving, session := { t.session with handleHeld := false } }

/-- The server writes an event, if the client still reads. -/
def write (t : Transport) (e : Event) : Transport :=
  if t.readerOpen then { t with written := t.written ++ [e] } else t.endServer true

def readInput (t : Transport) : Option Transport :=
  match readLine t.unread t.inputEnded with
  | .incomplete => none
  | .broken | .ended => some t.stopReading
  | .line text rest =>
    let t := { t with unread := rest }
    some ((messageOfLine? text).elim t fun m => { t with server := .forwarding m })

/-- One move of the server. Events come before lines, and while a message waits for room in
the broker's mailbox nothing else is done. -/
def stepServer (t : Transport) : Option Transport :=
  let s := t.session
  match t.server with
  | .ended _ => none
  | .forwarding m =>
    match s.inbox.offer m with
    | .ok inbox => some { t with server := .serving, session := { s with inbox } }
    | .error .gone => some t.stopReading
    | .error .full => none
  | .serving =>
    if s.cancelled then some (t.endServer false)
    else
      match s.client.next? with
      | some (o, client) => some ({ t with session := { s with client } }.write o.event)
      | none =>
        if !s.clientInUse then some (t.endServer false)
        else if s.handleHeld then t.readInput
        else none

/-- How the whole has ended: the server and the session. -/
def ending? (t : Transport) : Option Ending :=
  match t.server, t.session.ending? with
  | .ended _, some (.failure e) => some (.failure e)
  | .ended true, some _ => some (.failure .output)
  | .ended false, some ending => some ending
  | _, none => none
  | _, some _ => none

/-! ### What can happen -/

/-- Something that happens to a session behind a stream. -/
inductive Move where
  /-- The server takes its turn. -/
  | serve
  /-- Something happens to the session. -/
  | session (move : SessionBroker.Move)
  /-- The client writes bytes. -/
  | input (bytes : List UInt8)
  /-- The client writes no more. -/
  | endInput
  /-- The client reads no more. -/
  | closeReader
  deriving Repr

def apply (t : Transport) : Move → Transport
  | .serve => t.stepServer.getD t
  | .session move => { t with session := t.session.apply move }
  | .input bytes => if t.inputEnded then t else { t with unread := t.unread ++ bytes }
  | .endInput => { t with inputEnded := true }
  | .closeReader => { t with readerOpen := false }

def run (t : Transport) (moves : List Move) : Transport := moves.foldl apply t

/-! ### A fair order of moves -/

/-- One move of a task, or of the server. -/
def step (t : Transport) : Option Task → Option Transport
  | some task => (t.session.step task).map fun session => { t with session }
  | none => t.stepServer

/-- Lets everything run until nobody can move; the tasks in the queue come first. -/
def settleFrom (queue : List Task) (t : Transport) : Transport :=
  takeTurns (fun t => none :: t.session.tasks.map some) step
    (t.session.load + 32 * (t.unread.length + 1)) (queue.map some) t

/-- Lets everything run until nobody can move. -/
def settle (t : Transport) : Transport := t.settleFrom []

/-- When a task that waits for the clock can go on. -/
def deadline? (t : Transport) : Option Duration := t.session.deadline?

def goTo (now : Duration) (t : Transport) : Transport :=
  { t with session := t.session.setTime now }.settle

def pass (t : Transport) (time : Duration) : Transport :=
  let t := t.settle
  passUntil deadline? goTo (t.session.now + time) t.session.stops t

/-- The transport starts to run; some workers are ready at once. -/
def launch (t : Transport) (composition : Composition) (ready : List Worker) : Transport :=
  launchWith (fun ws t => { t with session := t.session.announce ws }) settleFrom
    composition ready t

/-- The input ends, and the session runs to its end; then the workers end too. -/
def windUp (t : Transport) : Transport :=
  let t := (t.apply .endInput).settle
  let t := passAll deadline? goTo t.session.stops t
  if t.session.workersCancelled then
    (t.run (Worker.all.map fun w => .session (.muteWorker w))).settle
  else t

end Transport

end SessionBroker
