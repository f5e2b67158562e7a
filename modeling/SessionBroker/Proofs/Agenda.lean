import SessionBroker.Proofs.Dispatch
import SessionBroker.Proofs.Transition

/-!
What the broker is busy with.

`Broker.Handles` lists what handling a message can bring about, `Agenda` the forms that the
acts still to be carried out can take, and `Session.Still` what a background transition
leaves as it is. Main statement: `Session.Orderly.kept`, every transition keeps the agenda
in one of its forms and parks only what can be handed to workers later.
-/

namespace SessionBroker

def BrokerMessage.request? : BrokerMessage → Option Request
  | .request r => some r
  | _ => none

def Request.isHandshake (r : Request) : Bool :=
  match r.data with
  | .handshake _ => true
  | _ => false

/-- The parameters of a request for the end of the session. -/
def Request.shutdown? (r : Request) : Option ShutdownParams :=
  match r.data with
  | .shutdown params => some params
  | _ => none

theorem Request.shutdown?_eq_some {r : Request} {params : ShutdownParams} :
    r.shutdown? = some params ↔ r.data = .shutdown params := by
  obtain ⟨id, data⟩ := r
  cases data <;> simp [Request.shutdown?]

/-- A request that is no handshake is routed or ends the session. -/
theorem Request.routable_or_shutdown {r : Request} (other : r.isHandshake = false) :
    r.Routable ∨ ∃ params, r.data = .shutdown params := by
  obtain ⟨id, data⟩ := r
  cases data with
  | handshake params => cases other
  | shutdown params => exact .inr ⟨params, rfl⟩
  | _ => exact .inl trivial

theorem Request.Routable.not_handshake {r : Request} (routable : r.Routable) :
    r.isHandshake = false := by
  obtain ⟨id, data⟩ := r
  cases data with
  | handshake params => exact routable.elim
  | _ => rfl

theorem Request.shutdown?_of_isHandshake {r : Request} (handshake : r.isHandshake = true) :
    r.shutdown? = none := by
  obtain ⟨id, data⟩ := r
  cases data with
  | shutdown params => cases handshake
  | _ => rfl

theorem Request.Routable.not_shutdown {r : Request} (routable : r.Routable) :
    r.shutdown? = none := by
  obtain ⟨id, data⟩ := r
  cases data with
  | shutdown params => exact routable.elim
  | _ => rfl

/-! ### Handling a message -/

namespace Broker

/-- What a message brings about: the broker after it, and the acts that follow. -/
inductive Handles (b : Broker) : BrokerMessage → Broker → List Act → Prop
  /-- The end of the session before the handshake. -/
  | leave {r : Request} {params : ShutdownParams} :
      b.connection = .awaiting → r.data = .shutdown params →
      Handles b (.request r) b [.finish (.exit (.requested params))]
  /-- The first handshake. -/
  | greet {r : Request} :
      b.connection = .awaiting → r.isHandshake = true →
      Handles b (.request r) { b with connection := .active, parked := [] }
        (.reply (b.greeting r.id) :: (b.parked.map .route ++ [.activate]))
  /-- A request for which there is no room. -/
  | turnAway {r : Request} :
      b.connection = .awaiting → r.Routable → b.maxParked ≤ b.parked.length →
      Handles b (.request r) b [.emit (turnedAway r.id)]
  /-- A request that is kept. -/
  | park {r : Request} :
      b.connection = .awaiting → r.Routable → b.parked.length < b.maxParked →
      Handles b (.request r) { b with parked := b.parked ++ [r] } []
  /-- A later handshake. -/
  | greetAgain {r : Request} :
      b.connection = .active → r.isHandshake = true →
      Handles b (.request r) b [.emit (b.greeting r.id)]
  /-- A request after the handshake. -/
  | route {r : Request} :
      b.connection = .active → r.isHandshake = false → Handles b (.request r) b [.route r]
  | reject {response : Response} :
      Handles b (.reject response) b [.emit (.response response)]
  | change {change : Change} {now : Duration} :
      Handles b (.change change) { b with debouncer := b.debouncer.notify now } []
  | watcher {w : Watcher} : Handles b (.watcher w) { b with watchers := b.watchers ++ [w] } []
  | indexFailed {error : ServiceError} :
      Handles b (.indexed (.failed error)) b [.finish (.failure (.index error))]
  | indexed {deleted inserted : UInt64} :
      b.exitAfterIndex = false →
      Handles b (.indexed (.refreshed deleted inserted)) b [.emit (.indexReady deleted inserted)]
  | indexComplete {deleted inserted : UInt64} :
      b.exitAfterIndex = true →
      Handles b (.indexed (.refreshed deleted inserted)) b
        [.emit (.indexReady deleted inserted), .finish (.exit .indexComplete)]

/-- Before the handshake a request for workers is parked or turned away. -/
theorem handles_parkable {b : Broker} {r : Request} (awaiting : b.connection = .awaiting)
    (routable : r.Routable) : Handles b (.request r) (b.park r).1 (b.park r).2 := by
  unfold park
  split
  · rename_i full
    exact .turnAway awaiting routable full
  · rename_i room
    exact .park awaiting routable (Nat.lt_of_not_le room)

/-- What `Handles` says is all that the broker can make of a message. -/
theorem handles_handle (b : Broker) (now : Duration) (m : BrokerMessage) :
    Handles b m (b.handle now m).1 (b.handle now m).2 := by
  cases m with
  | reject response => exact .reject
  | change change => exact .change
  | watcher w => exact .watcher
  | indexed outcome =>
      cases outcome with
      | failed error => exact .indexFailed
      | refreshed deleted inserted =>
          simp only [handle, handleIndex]
          split
          · rename_i exits
            exact .indexComplete exits
          · rename_i stays
            exact .indexed (by simpa using stays)
  | request r =>
      obtain ⟨id, data⟩ := r
      cases awaiting : b.connection with
      | awaiting =>
          cases data with
          | shutdown params =>
              simp only [handle, handleRequest, awaiting]
              exact .leave awaiting rfl
          | handshake params =>
              simp only [handle, handleRequest, awaiting]
              exact .greet awaiting rfl
          | _ =>
              simp only [handle, handleRequest, awaiting]
              exact handles_parkable awaiting trivial
      | active =>
          cases data with
          | handshake params =>
              simp only [handle, handleRequest, awaiting]
              exact .greetAgain awaiting rfl
          | _ =>
              simp only [handle, handleRequest, awaiting]
              exact .route awaiting rfl

end Broker

/-! ### Forms of the agenda -/

/-- The forms that the agenda takes before and after the handshake. -/
inductive Agenda : Connection → List Act → Prop
  | idle {c : Connection} : Agenda c []
  | emit {c : Connection} {e : Event} : Agenda c [.emit e]
  | finish {c : Connection} {ending : Ending} : Agenda c [.finish ending]
  | part {c : Connection} {e : Event} {ending : Ending} : Agenda c [.emit e, .finish ending]
  | route {r : Request} : r.isHandshake = false → Agenda .active [.route r]
  /-- The handshake is still to be answered. -/
  | greet {e : Event} {rs : List Request} : (∀ r ∈ rs, r.Routable) →
      Agenda .active (.reply e :: (rs.map .route ++ [.activate]))
  /-- Parked requests are still to be routed. -/
  | flush {rs : List Request} : (∀ r ∈ rs, r.Routable) →
      Agenda .active (rs.map .route ++ [.activate])
  /-- A parked request is still to be answered, others to be routed. -/
  | report {e : Event} {rs : List Request} : (∀ r ∈ rs, r.Routable) →
      Agenda .active (.emit e :: (rs.map .route ++ [.activate]))

namespace Agenda

variable {c : Connection} {rest : List Act}

/-- Behind the reply to the handshake there are the parked requests and the activation. -/
theorem of_reply {e : Event} (h : Agenda c (.reply e :: rest)) :
    c = .active ∧ ∃ rs : List Request, (∀ r ∈ rs, r.Routable) ∧
      rest = rs.map .route ++ [.activate] := by
  generalize eq : Act.reply e :: rest = acts at h
  cases h with
  | greet routable =>
      cases eq
      exact ⟨rfl, _, routable, rfl⟩
  | @flush rs routable => cases rs <;> simp at eq
  | _ => cases eq

/-- Behind an event there is nothing, the end of the session, or what is left of a flush. -/
theorem of_emit {e : Event} (h : Agenda c (.emit e :: rest)) :
    rest = [] ∨ (∃ ending, rest = [.finish ending]) ∨
      c = .active ∧ ∃ rs : List Request, (∀ r ∈ rs, r.Routable) ∧
        rest = rs.map .route ++ [.activate] := by
  generalize eq : Act.emit e :: rest = acts at h
  cases h with
  | emit =>
      cases eq
      exact .inl rfl
  | part =>
      cases eq
      exact .inr (.inl ⟨_, rfl⟩)
  | report routable =>
      cases eq
      exact .inr (.inr ⟨rfl, _, routable, rfl⟩)
  | @flush rs routable => cases rs <;> simp at eq
  | _ => cases eq

theorem of_activate (h : Agenda c (.activate :: rest)) : c = .active ∧ rest = [] := by
  generalize eq : Act.activate :: rest = acts at h
  cases h with
  | @flush rs routable =>
      cases rs with
      | nil =>
          cases eq
          exact ⟨rfl, rfl⟩
      | cons r rs => simp at eq
  | _ => cases eq

/-- A request is routed for itself or as a part of a flush. -/
theorem of_route {r : Request} (h : Agenda c (.route r :: rest)) :
    c = .active ∧ ((rest = [] ∧ r.isHandshake = false) ∨
      r.Routable ∧ ∃ rs : List Request, (∀ r ∈ rs, r.Routable) ∧
        rest = rs.map .route ++ [.activate]) := by
  generalize eq : Act.route r :: rest = acts at h
  cases h with
  | route other =>
      cases eq
      exact ⟨rfl, .inl ⟨rfl, other⟩⟩
  | @flush rs routable =>
      cases rs with
      | nil => simp at eq
      | cons q rs =>
          simp only [List.map_cons, List.cons_append, List.cons.injEq, Act.route.injEq] at eq
          obtain ⟨rfl, rfl⟩ := eq
          exact ⟨rfl, .inr ⟨routable r (.head _), rs, fun q mem => routable q (.tail _ mem), rfl⟩⟩
  | _ => cases eq

theorem of_finish {ending : Ending} (h : Agenda c (.finish ending :: rest)) : rest = [] := by
  generalize eq : Act.finish ending :: rest = acts at h
  cases h with
  | finish => cases eq; rfl
  | @flush rs routable => cases rs <;> simp at eq
  | _ => cases eq

end Agenda

/-! ### Relays -/

/-- Everything in a relay comes from a worker. -/
def Relay.Foreign (r : Relay) : Prop :=
  (∀ o ∈ r.inbox.accepted, o.origin ≠ .broker) ∧ ∀ o, r.leaving = some o → o.origin ≠ .broker

namespace Relay

variable {r r' : Relay}

theorem foreign_new (registry : Option Readiness) : (Relay.new.start registry).Foreign :=
  ⟨by simp [new, start, Mailbox.empty], by simp [new, start]⟩

/-- A worker emits into a relay. -/
theorem Foreign.offer (foreign : r.Foreign) {w : Worker} {e : Event} {inbox : Mailbox Outgoing}
    (offered : r.inbox.offer ⟨.worker w, e⟩ = .ok inbox) : Foreign { r with inbox } := by
  obtain ⟨-, -, rfl⟩ := Mailbox.offer_eq_ok.mp offered
  refine ⟨?_, foreign.2⟩
  intro o mem
  rcases List.mem_append.mp mem with old | new
  · exact foreign.1 o old
  · rw [List.mem_singleton.mp new]
    simp

/-- Merging readiness keeps the origin of an event. -/
theorem Foreign.receive (foreign : r.Foreign) {o : Outgoing} (worker : o.origin ≠ .broker) :
    (r.receive o).Foreign := by
  unfold Relay.receive
  split
  · exact ⟨foreign.1, fun p h => by cases h; exact worker⟩
  · refine ⟨foreign.1, ?_⟩
    intro p h
    obtain ⟨e, -, rfl⟩ := Option.map_eq_some_iff.mp h
    exact worker

/-- A step of a relay leaves it with events of workers only. -/
theorem Foreign.step (foreign : r.Foreign) {gate gate' : Mailbox (GateMessage Outgoing)}
    {orphaned : Bool} (stepped : r.step gate orphaned = some (r', gate')) : r'.Foreign := by
  unfold Relay.step at stepped
  split at stepped
  · cases stepped
  · split at stepped
    · split at stepped
      · cases stepped
        exact ⟨foreign.1, by simp⟩
      · cases stepped
        exact ⟨foreign.1, foreign.2⟩
      · cases stepped
    · split at stepped
      · rename_i o inbox taken
        cases stepped
        obtain ⟨-, at_, rfl⟩ := Mailbox.next?_eq_some taken
        have mem : o ∈ r.inbox.accepted := List.mem_of_getElem? at_
        have read : Foreign { r with inbox := { r.inbox with taken := r.inbox.taken + 1 } } :=
          foreign
        exact read.receive (foreign.1 o mem)
      · split at stepped
        · cases stepped
          exact ⟨foreign.1, foreign.2⟩
        · cases stepped

end Relay

/-! ### Background -/

/-- The ending that an act is certain to bring about. -/
def Act.ending? : Act → Option Ending
  | .finish ending => some ending
  | .route r => r.shutdown?.map fun params => .exit (.requested params)
  | _ => none

namespace Session

variable {allowed : Move → Prop} {s t : Session}

/-- The messages that the broker has handled, oldest first. -/
def handled (s : Session) : List BrokerMessage := s.inbox.read

/-- The requests of the client that the broker has handled, oldest first. -/
def handledRequests (s : Session) : List Request := s.handled.filterMap BrokerMessage.request?

theorem handledRequests_congr (handled : t.handled = s.handled) :
    t.handledRequests = s.handledRequests :=
  congrArg (List.filterMap BrokerMessage.request?) handled

/-- How the session ends, once that is certain. -/
def decided (s : Session) : Option Ending :=
  match s.phase with
  | .serving acts => acts.findSome? Act.ending?
  | .closing ending | .ended ending => some ending

/-- The relays carry only what workers have emitted. -/
def Foreign (s : Session) : Prop :=
  s.support.Foreign ∧ ∀ relay, s.analysis = some relay → relay.Foreign

/-- Between two sessions the broker has handled and done nothing; that the session comes to
its end is possible. -/
structure Still (s t : Session) : Prop where
  sound : s.inbox.Sound → t.inbox.Sound
  handled : t.handled = s.handled
  connection : t.broker.connection = s.broker.connection
  parked : t.broker.parked = s.broker.parked
  descriptor : t.broker.descriptor = s.broker.descriptor
  maxParked : t.broker.maxParked = s.broker.maxParked
  agenda : t.agenda = s.agenda
  decided : ∀ ending, s.decided = some ending → t.decided = some ending
  isOver : s.isOver = true → t.isOver = true
  layout : t.topology.layout = s.topology.layout
  requests : ∀ w, t.topology.requests w = s.topology.requests w
  foreign : s.Foreign → t.Foreign

theorem Still.refl (s : Session) : Still s s :=
  ⟨id, rfl, rfl, rfl, rfl, rfl, rfl, fun _ h => h, id, rfl, fun _ => rfl, id⟩

/-- The broker turns to the teardown when nothing is left to do. -/
theorem still_beginTeardown (phase : s.phase = .serving []) (ending : Ending) :
    Still s (s.beginTeardown ending) where
  sound := id
  handled := rfl
  connection := rfl
  parked := rfl
  descriptor := rfl
  maxParked := rfl
  agenda := by simp [agenda, phase, beginTeardown]
  decided := by simp [decided, phase]
  isOver := by simp [isOver, ending?, phase]
  layout := rfl
  requests _ := rfl
  foreign := id

/-- With a recompile the broker handles nothing and carries out no act. -/
theorem still_recompileIfDue (due : s.recompileIfDue = some t) : Still s t := by
  obtain ⟨debouncer, rfl⟩ := recompileIfDue_eq_some due
  exact ⟨id, rfl, rfl, rfl, rfl, rfl, rfl, fun _ h => h, id, Topology.layout_recompileAll _,
    Topology.requests_recompileAll _, id⟩

/-- With a step of the teardown the broker handles nothing and carries out no act. -/
theorem still_stepTeardown {ending : Ending} (phase : s.phase = .closing ending)
    (stepped : s.stepTeardown ending = some t) : Still s t := by
  obtain ⟨teardown, rfl | rfl⟩ := stepTeardown_eq_some stepped
  · exact ⟨id, rfl, rfl, rfl, rfl, rfl, rfl, fun _ h => h, id, rfl, fun _ => rfl, id⟩
  · exact ⟨Mailbox.Sound.close, rfl, rfl, rfl, rfl, rfl, by simp [agenda, phase, conclude],
      by simp [decided, phase, conclude], fun _ => rfl, rfl, fun _ => rfl,
      id⟩

/-- Someone sends a message to the broker. -/
theorem still_offer (sound : s.inbox.Sound) {m : BrokerMessage} {inbox : Mailbox BrokerMessage}
    (offered : s.inbox.offer m = .ok inbox) : Still s { s with inbox } := by
  obtain ⟨-, -, rfl⟩ := Mailbox.offer_eq_ok.mp offered
  exact { Still.refl s with sound := fun _ => sound.put, handled := sound.read_put }

theorem still_stepIndex (sound : s.inbox.Sound) (stepped : s.stepIndex = some t) : Still s t := by
  rcases stepIndex_eq_some stepped with ⟨index, rfl⟩ | ⟨outcome, inbox, index, offered, rfl⟩
  · exact { Still.refl s with }
  · exact { still_offer sound offered with }

theorem still_stepWatch {number : Nat} (sound : s.inbox.Sound)
    (stepped : s.stepWatch number = some t) : Still s t := by
  rcases stepWatch_eq_some stepped with ⟨watches, rfl⟩ | ⟨change, inbox, watches, offered, rfl⟩
  · exact { Still.refl s with }
  · exact { still_offer sound offered with }

theorem still_stepGate (stepped : s.stepGate = some t) : Still s t := by
  obtain ⟨g, -, rfl⟩ := Option.map_eq_some_iff.mp stepped
  exact { Still.refl s with }

theorem still_stepSupport (stepped : s.stepSupport = some t) : Still s t := by
  obtain ⟨r, relayed, rfl⟩ := Option.map_eq_some_iff.mp stepped
  exact { Still.refl s with foreign := fun foreign =>
    ⟨foreign.1.step relayed, foreign.2⟩ }

theorem still_stepAnalysis (stepped : s.stepAnalysis = some t) : Still s t := by
  obtain ⟨relay, found, stepped⟩ := Option.bind_eq_some_iff.mp stepped
  obtain ⟨r, relayed, rfl⟩ := Option.map_eq_some_iff.mp stepped
  refine { Still.refl s with foreign := fun foreign => ⟨foreign.1, fun relay' same => ?_⟩ }
  cases same
  exact (foreign.2 relay found).step relayed

/-- A worker emits into the relay on its way. -/
theorem emit_way {w : Worker} {e : Event} (emitted : s.emit w e = .ok t) :
    (s.usesAnalysisRelay w = true ∧ ∃ relay inbox, s.analysis = some relay ∧
      relay.inbox.offer ⟨.worker w, e⟩ = .ok inbox ∧
      t = { s with analysis := some { relay with inbox } }) ∨
    (s.usesAnalysisRelay w = false ∧ ∃ inbox, s.support.inbox.offer ⟨.worker w, e⟩ = .ok inbox ∧
      t = { s with support := { s.support with inbox } }) := by
  unfold emit at emitted
  split at emitted
  · cases emitted
  · split at emitted
    · rename_i relay found analyses
      cases offered : relay.inbox.offer ⟨.worker w, e⟩ with
      | error refusal => simp [offered, Except.map] at emitted
      | ok inbox =>
          simp only [offered, Except.map, Except.ok.injEq] at emitted
          exact .inl ⟨by simp [usesAnalysisRelay, found, analyses], relay, inbox, found, offered,
            emitted.symm⟩
    · rename_i other
      have way : s.usesAnalysisRelay w = false := by
        cases analyses : w.isAnalysis with
        | false => simp [usesAnalysisRelay, analyses]
        | true =>
            cases found : s.analysis with
            | none => simp [usesAnalysisRelay, found]
            | some relay => exact (other relay found analyses).elim
      cases offered : s.support.inbox.offer ⟨.worker w, e⟩ with
      | error refusal => simp [offered, Except.map] at emitted
      | ok inbox =>
          simp only [offered, Except.map, Except.ok.injEq] at emitted
          exact .inr ⟨way, inbox, rfl, emitted.symm⟩

/-- A worker emits into one of the relays. -/
theorem emit_eq_ok {w : Worker} {e : Event} (emitted : s.emit w e = .ok t) :
    (∃ relay inbox, s.analysis = some relay ∧ relay.inbox.offer ⟨.worker w, e⟩ = .ok inbox ∧
      t = { s with analysis := some { relay with inbox } }) ∨
    (∃ inbox, s.support.inbox.offer ⟨.worker w, e⟩ = .ok inbox ∧
      t = { s with support := { s.support with inbox } }) :=
  (emit_way emitted).imp And.right And.right

/-- A message is sent by putting it into the broker's mailbox. -/
theorem send_eq_ok {m : BrokerMessage} (sent : s.send m = .ok t) :
    ∃ inbox, s.inbox.offer m = .ok inbox ∧ t = { s with inbox } := by
  unfold send at sent
  split at sent
  · cases offered : s.inbox.offer m with
    | error refusal => simp [offered, Except.map] at sent
    | ok inbox =>
        simp only [offered, Except.map, Except.ok.injEq] at sent
        exact ⟨inbox, rfl, sent.symm⟩
  · cases sent

/-- No move from outside is an act of the broker. -/
theorem still_apply (sound : s.inbox.Sound) {m : Move} (outside : ∀ task, m ≠ .step task) :
    Still s (s.apply m) := by
  cases m with
  | step task => exact absurd rfl (outside task)
  | send m =>
      simp only [apply]
      cases sent : s.send m with
      | error refusal => exact Still.refl s
      | ok t =>
          obtain ⟨inbox, offered, rfl⟩ := send_eq_ok sent
          exact still_offer sound offered
  | emit w e =>
      simp only [apply]
      cases emitted : s.emit w e with
      | error refusal => exact Still.refl s
      | ok t =>
          rcases emit_eq_ok emitted with ⟨relay, inbox, found, offered, rfl⟩ | ⟨inbox, offered, rfl⟩
          · refine { Still.refl s with foreign := fun foreign =>
              ⟨foreign.1, fun relay' same => ?_⟩ }
            cases same
            exact (foreign.2 relay found).offer offered
          · exact { Still.refl s with foreign := fun foreign =>
              ⟨foreign.1.offer offered, foreign.2⟩ }
  | stopWorker w =>
      refine { Still.refl s with layout := Topology.layout_close _ _, requests := ?_ }
      intro v
      exact congrArg _ (Topology.log_close s.topology w v)
  | readWorker w count =>
      refine { Still.refl s with layout := Topology.layout_take _ _ _, requests := ?_ }
      intro v
      exact congrArg _ (Topology.log_take s.topology w v count)
  | finishIndex outcome =>
      simp only [apply, finishIndex]
      split
      · exact { Still.refl s with }
      · exact Still.refl s
  | _ => exact { Still.refl s with }

/-- While others move the broker handles nothing and carries out no act. -/
theorem Background.still (sound : s.inbox.Sound) (h : Background allowed s t) : Still s t := by
  cases h with
  | cancelled phase _ => exact still_beginTeardown phase _
  | recompile _ due => exact still_recompileIfDue due
  | disconnected phase => exact still_beginTeardown phase _
  | teardown phase stepped => exact still_stepTeardown phase stepped
  | gate stepped => exact still_stepGate stepped
  | support stepped => exact still_stepSupport stepped
  | analysis stepped => exact still_stepAnalysis stepped
  | index stepped => exact still_stepIndex sound stepped
  | watch stepped => exact still_stepWatch sound stepped
  | outside _ foreign => exact still_apply sound foreign

/-! ### Order -/

/-- The agenda is in one of its forms, and what is parked can be handed to workers. -/
structure Orderly (s : Session) : Prop where
  sound : s.inbox.Sound
  agenda : Agenda s.broker.connection s.agenda
  parked : ∀ r ∈ s.broker.parked, r.Routable
  active : s.broker.connection = .active → s.broker.parked = []

theorem agenda_of_phase {acts : List Act} (phase : s.phase = .serving acts) :
    s.agenda = acts := by
  rw [Session.agenda, phase]

theorem phase_of_agenda {a : Act} {rest : List Act} (agenda : s.agenda = a :: rest) :
    s.phase = .serving (a :: rest) := by
  unfold Session.agenda at agenda
  split at agenda
  · rename_i acts phase
    rw [phase, agenda]
  · cases agenda

/-- As long as the broker handles nothing its session stays in order. -/
theorem Still.orderly (still : Still s t) (orderly : s.Orderly) : t.Orderly where
  sound := still.sound orderly.sound
  agenda := by rw [still.connection, still.agenda]; exact orderly.agenda
  parked := by rw [still.parked]; exact orderly.parked
  active := by rw [still.connection, still.parked]; exact orderly.active

/-- In an orderly session the acts to be carried out are an agenda in order. -/
theorem Orderly.agenda_of_phase (orderly : s.Orderly) {acts : List Act}
    (phase : s.phase = .serving acts) : Agenda s.broker.connection acts := by
  have agenda := orderly.agenda
  rwa [Session.agenda_of_phase phase] at agenda

/-- What takes the place of a routed request leaves the agenda in order. -/
theorem agenda_followUp (t : Topology) {r : Request} {rest : List Act} {c : Connection}
    (agenda : Agenda c (.route r :: rest)) :
    Agenda c (Outlets.followUp r.id (t.dispatch r).2 ++ rest) := by
  obtain ⟨rfl, ⟨rfl, other⟩ | ⟨routable, rs, routables, rfl⟩⟩ := agenda.of_route
  · rcases Request.routable_or_shutdown other with routable | ⟨params, data⟩
    · obtain ⟨sent, out, served, followUp, -, -⟩ := t.dispatch_served routable
      rw [followUp]
      cases served with
      | whole | unwritten => exact .idle
      | _ => exact .emit
    · rw [t.dispatch_shutdown data]
      exact .part
  · obtain ⟨sent, out, served, followUp, -, -⟩ := t.dispatch_served routable
    rw [followUp]
    cases served with
    | whole | unwritten => exact .flush routables
    | _ => exact .report routables

/-- Handling a message gives an agenda in order. -/
theorem agenda_handles {b c : Broker} {m : BrokerMessage} {acts : List Act}
    (parked : ∀ r ∈ b.parked, r.Routable) (active : b.connection = .active → b.parked = [])
    (handles : b.Handles m c acts) :
    Agenda c.connection acts ∧ (∀ r ∈ c.parked, r.Routable) ∧
      (c.connection = .active → c.parked = []) := by
  cases handles with
  | leave => exact ⟨.finish, parked, active⟩
  | greet => exact ⟨.greet parked, by simp, fun _ => rfl⟩
  | turnAway => exact ⟨.emit, parked, active⟩
  | park awaiting routable =>
      refine ⟨.idle, ?_, fun h => by simp [awaiting] at h⟩
      intro r mem
      rcases List.mem_append.mp mem with before | new
      · exact parked r before
      · rw [List.mem_singleton.mp new]
        exact routable
  | greetAgain => exact ⟨.emit, parked, active⟩
  | route isActive other =>
      rw [isActive]
      exact ⟨.route other, parked, fun _ => active isActive⟩
  | reject => exact ⟨.emit, parked, active⟩
  | change => exact ⟨.idle, parked, active⟩
  | watcher => exact ⟨.idle, parked, active⟩
  | indexFailed => exact ⟨.finish, parked, active⟩
  | indexed => exact ⟨.emit, parked, active⟩
  | indexComplete => exact ⟨.part, parked, active⟩

/-- Every transition keeps the agenda in one of its forms. -/
theorem Orderly.kept {out : List Event} (orderly : s.Orderly)
    (h : Transition allowed s out t) : t.Orderly := by
  cases h with
  | reply phase =>
      obtain ⟨active, rs, routable, rfl⟩ := (orderly.agenda_of_phase phase).of_reply
      refine ⟨orderly.sound, ?_, orderly.parked, orderly.active⟩
      change Agenda s.broker.connection _
      rw [active]
      exact .flush routable
  | emit phase =>
      refine ⟨orderly.sound, ?_, orderly.parked, orderly.active⟩
      change Agenda s.broker.connection _
      rcases (orderly.agenda_of_phase phase).of_emit with rfl | ⟨ending, rfl⟩ |
        ⟨active, rs, routable, rfl⟩
      · exact .idle
      · exact .finish
      · rw [active]
        exact .flush routable
  | activate phase =>
      obtain ⟨-, rfl⟩ := (orderly.agenda_of_phase phase).of_activate
      exact ⟨orderly.sound, .idle, orderly.parked, orderly.active⟩
  | route phase =>
      exact ⟨orderly.sound, agenda_followUp _ (orderly.agenda_of_phase phase), orderly.parked,
        orderly.active⟩
  | finish => exact ⟨orderly.sound, .idle, orderly.parked, orderly.active⟩
  | receive _ _ _ taken =>
      obtain ⟨agenda, parked, active⟩ :=
        agenda_handles orderly.parked orderly.active (s.broker.handles_handle s.now _)
      exact ⟨Mailbox.sound_next taken, agenda, parked, active⟩
  | background background => exact (background.still orderly.sound).orderly orderly

end Session

end SessionBroker
