import SessionBroker.Proofs.Channels

/-!
The reply to the first handshake comes before everything else.

The broker writes the reply straight to the client, while all other events go through the
gate. The two are tied together by `Session.Stage`: as long as the reply is not written the
gate has not been sent an activation, and until it reads one it lets nothing through. Main
statement: `handshake_reply_first`.
-/

namespace SessionBroker

/-- What a session says about itself: the configured name and version of the server, and every
method that it knows as a capability. -/
def Config.description (c : Config) : Json :=
  .obj [
    ("capabilities", .arr [.str "handshake", .str "shutdown", .str "compiler_restart",
      .str "analyze", .str "analyze_batch", .str "debug", .str "search", .str "docs"]),
    ("server_name", .str c.server.name),
    ("server_version", .str c.server.version)]

/-- The reply to a handshake under a configuration: its identifier, the description as the result,
and no error. -/
def Config.greeting (c : Config) (id : String) : Event :=
  .response { id, result := some c.description, error := none }

/-- A broker with the descriptor of a configuration greets as the configuration says. -/
theorem Broker.greeting_eq {b : Broker} {c : Config}
    (descriptor : b.descriptor = ⟨c.server.name, c.server.version⟩) (id : String) :
    b.greeting id = c.greeting id := by
  rw [Broker.greeting, descriptor]
  rfl

def firstHandshake? (rs : List Request) : Option Request := rs.find? (·.isHandshake)

theorem firstHandshake?_append_of_some {rs more : List Request} {r : Request}
    (h : firstHandshake? rs = some r) : firstHandshake? (rs ++ more) = some r := by
  simp only [firstHandshake?] at h ⊢
  rw [List.find?_append, h, Option.some_or]

theorem firstHandshake?_append_of_none {rs more : List Request} (h : firstHandshake? rs = none) :
    firstHandshake? (rs ++ more) = firstHandshake? more := by
  simp only [firstHandshake?] at h ⊢
  rw [List.find?_append, h, Option.none_or]

namespace Session

variable {allowed : Move → Prop} {c : Config} {s t : Session}

/-! ### The start -/

/-- A session that has just been started; its workers can be any. -/
structure Fresh (c : Config) (s : Session) : Prop where
  handleHeld : s.handleHeld = true
  inbox : s.inbox = .empty inboxSize
  phase : s.phase = .serving []
  connection : s.broker.connection = .awaiting
  parked : s.broker.parked = []
  descriptor : s.broker.descriptor = ⟨c.server.name, c.server.version⟩
  maxParked : s.broker.maxParked = c.session.maxPending.toNat
  window : s.broker.debouncer.window = .idle
  gate : s.gate = .new c.session.maxBufferedEvents.toNat
  client : ∃ size, s.client = .empty size
  support : s.support = Relay.new.start none
  analysis : ∀ relay, s.analysis = some relay → ∃ registry, relay = Relay.new.start registry
  index : s.index = .refreshing
  watches : s.watches = []
  cancelled : s.cancelled = false

theorem debouncer_window {w : WatcherConfig} {d : Debouncer} (made : Debouncer.ofConfig w = .ok d) :
    d.window = .idle := by
  unfold Debouncer.ofConfig Debouncer.new? at made
  split at made
  · cases made
    rfl
  · cases made

theorem ofConfig_eq_ok {b : Broker} (made : Broker.ofConfig c = .ok b) :
    b.connection = .awaiting ∧ b.parked = [] ∧
      b.descriptor = ⟨c.server.name, c.server.version⟩ ∧
      b.maxParked = c.session.maxPending.toNat ∧ b.debouncer.window = .idle := by
  unfold Broker.ofConfig at made
  cases debounced : Debouncer.ofConfig c.watcher with
  | error fault =>
      rw [debounced] at made
      cases made
  | ok debouncer =>
      rw [debounced] at made
      cases made
      exact ⟨rfl, rfl, rfl, rfl, debouncer_window debounced⟩

/-- The session that a start gives, whose broker is the one that the configuration asks for. -/
theorem exists_of_start {f : Staffing} {search files : Behaviour} {size : Nat}
    (started : start c f search files size = .ok s) :
    ∃ broker, Broker.ofConfig c = .ok broker ∧ s = {
      collaborators := ⟨search, files, c.shutdown.searchGrace⟩
      now := 0, cancelled := false, handleHeld := true
      inbox := .empty inboxSize, broker
      phase := .serving [], teardown := .new [], released := false
      topology := f.topology, emitters := .ofFn f.isStarted
      support := Relay.new.start none, analysis := f.analysisRelay
      gate := .new c.session.maxBufferedEvents.toNat
      client := .empty size, index := .refreshing, watches := [] } := by
  unfold start at started
  cases valid : c.validate with
  | error fault =>
      rw [valid] at started
      cases started
  | ok _ =>
      rw [valid] at started
      cases made : Broker.ofConfig c with
      | error fault =>
          rw [made] at started
          cases started
      | ok broker =>
          rw [made] at started
          cases started
          exact ⟨broker, rfl, rfl⟩

theorem start_eq_ok {f : Staffing} {search files : Behaviour} {size : Nat}
    (started : start c f search files size = .ok s) :
    s.Fresh c ∧ s.topology = f.topology ∧ s.client = .empty size := by
  obtain ⟨broker, made, rfl⟩ := exists_of_start started
  obtain ⟨connection, parked, descriptor, maxParked, window⟩ := ofConfig_eq_ok made
  refine ⟨⟨rfl, rfl, rfl, connection, parked, descriptor, maxParked, window, rfl,
    ⟨size, rfl⟩, rfl, ?_, rfl, rfl, rfl⟩, rfl, rfl⟩
  intro relay found
  simp only [Staffing.analysisRelay] at found
  split at found
  · cases found
  · cases found
    exact ⟨_, rfl⟩

/-- The session that a start gives. -/
theorem start_of_isSome {f : Staffing} {search files : Behaviour} {size : Nat}
    (starts : (start c f search files size).toOption.isSome = true) :
    start c f search files size = .ok ((start c f search files size).toOption.get starts) := by
  revert starts
  cases start c f search files size with
  | error fault => exact fun starts => absurd starts Bool.false_ne_true
  | ok s => exact fun _ => rfl

theorem fresh_start {f : Staffing} {search files : Behaviour} {size : Nat}
    (started : start c f search files size = .ok s) : s.Fresh c :=
  (start_eq_ok started).1

/-- The workers of a fresh session do not matter. -/
theorem Fresh.withTopology (fresh : s.Fresh c) (topology : Topology) :
    Fresh c { s with topology } :=
  { fresh with }

theorem Fresh.agenda (fresh : s.Fresh c) : s.agenda = [] := by
  simp [Session.agenda, fresh.phase]

theorem Fresh.handled (fresh : s.Fresh c) : s.handled = [] := by
  simp [Session.handled, fresh.inbox, Mailbox.read, Mailbox.empty]

theorem Fresh.handledRequests (fresh : s.Fresh c) : s.handledRequests = [] := by
  simp [Session.handledRequests, fresh.handled]

theorem Fresh.orderly (fresh : s.Fresh c) : s.Orderly where
  sound := by rw [fresh.inbox]; exact Nat.le_refl 0
  agenda := by rw [fresh.agenda]; exact .idle
  parked := by simp [fresh.parked]
  active := fun _ => fresh.parked

/-- Whatever a fresh session comes to is in order. -/
theorem Fresh.orderly_of_reaches (fresh : s.Fresh c) {out : List Event}
    (h : Reaches allowed s out t) : t.Orderly :=
  h.invariant fresh.orderly Orderly.kept

/-! ### Before and after the reply -/

/-- Nothing has been written to the client, and nothing is going to be before the broker
answers the handshake. -/
structure Silent (s : Session) : Prop where
  client : s.client.accepted = []
  gate : Gate.opened s.gate.inbox.accepted = false

/-- The client has got the reply to the handshake, or it reads no more and has got nothing. -/
def Answered (c : Config) (r : Request) (s : Session) : Prop :=
  s.client.accepted.head? = some (.ofBroker (c.greeting r.id)) ∨
    (s.client.isOpen = false ∧ s.client.accepted = [])

inductive Stage (c : Config) (s : Session) : Prop
  | awaiting : s.broker.connection = .awaiting → firstHandshake? s.handledRequests = none →
      s.Silent → Stage c s
  /-- The handshake has been handled, but the reply waits for room. -/
  | answering {r : Request} {rest : List Act} :
      firstHandshake? s.handledRequests = some r →
      s.agenda = .reply (c.greeting r.id) :: rest → s.Silent → Stage c s
  | answered {r : Request} : s.broker.connection = .active →
      firstHandshake? s.handledRequests = some r → (∀ e, Act.reply e ∉ s.agenda) →
      s.Answered c r → Stage c s

/-- What has been written to the client, and what that says about the gate. -/
structure Told (c : Config) (s : Session) : Prop where
  descriptor : s.broker.descriptor = ⟨c.server.name, c.server.version⟩
  maxParked : s.broker.maxParked = c.session.maxPending.toNat
  capacity : s.gate.capacity = c.session.maxBufferedEvents.toNat
  /-- All but the first event for the client have been let through by the gate. -/
  flow : s.gate.Flow (s.client.accepted.drop 1)
  stage : Stage c s

/-- Nobody has been told anything in a fresh session. -/
theorem Fresh.told (fresh : s.Fresh c) : s.Told c := by
  obtain ⟨size, client⟩ := fresh.client
  refine ⟨fresh.descriptor, fresh.maxParked, by rw [fresh.gate]; rfl, ?_,
    .awaiting fresh.connection ?_ ⟨?_, ?_⟩⟩
  · rw [fresh.gate, client]
    exact Gate.flow_new _
  · rw [fresh.handledRequests]
    rfl
  · rw [client]
    rfl
  · rw [fresh.gate]
    rfl

/-! ### Background transitions -/

/-- What the gate hands to a client that has got nothing yet: nothing. -/
theorem Told.nothing_first (told : s.Told c) {h : Gate Outgoing} {client : Mailbox Outgoing}
    {orphaned : Bool} (empty : s.client.accepted = [])
    (stepped : s.gate.step s.client orphaned = some (h, client)) :
    h.Flow [] ∧ client.accepted = [] := by
  obtain ⟨new, flow, accepted, refused⟩ := told.flow.step stepped
  obtain ⟨-, log, -⟩ := Gate.step_frame stepped
  rw [empty] at flow accepted
  have silent_new (silent : s.Silent) : new = [] := by
    have unread : Gate.opened h.inbox.read = false :=
      Gate.opened_of_prefix (Mailbox.read_prefix _) (by rw [log]; exact silent.gate)
    exact (flow.passed_of_closed unread).1
  have none_ : new = [] := by
    cases told.stage with
    | awaiting _ _ silent => exact silent_new silent
    | answering _ _ silent => exact silent_new silent
    | answered _ _ _ answered =>
        rcases answered with got | ⟨closed, -⟩
        · simp [empty] at got
        · exact refused closed
  subst none_
  exact ⟨flow, accepted⟩

/-- A move of others keeps gate and client in step. -/
theorem Carried.flow (told : s.Told c) (carried : Carried s t) :
    t.gate.Flow (t.client.accepted.drop 1) := by
  cases carried with
  | gate stepped =>
      cases empty : s.client.accepted with
      | nil =>
          obtain ⟨flow, accepted⟩ := told.nothing_first empty stepped
          simpa [accepted] using flow
      | cons first others =>
          obtain ⟨new, flow, accepted, -⟩ := told.flow.step stepped
          simpa [accepted, empty] using flow
  | relay _ offered gate client =>
      rw [gate, client]
      exact told.flow.offer offered
  | none gate accepted =>
      rw [gate, accepted]
      exact told.flow

/-- A move of others does not break the silence before the handshake. -/
theorem Carried.silent (told : s.Told c) (carried : Carried s t) (silent : s.Silent) :
    t.Silent := by
  cases carried with
  | gate stepped =>
      obtain ⟨-, accepted⟩ := told.nothing_first silent.client stepped
      obtain ⟨-, log, -⟩ := Gate.step_frame stepped
      exact ⟨accepted, by rw [log]; exact silent.gate⟩
  | relay _ offered gate client =>
      obtain ⟨-, -, rfl⟩ := Mailbox.offer_eq_ok.mp offered
      refine ⟨by rw [client]; exact silent.client, ?_⟩
      rw [gate, Mailbox.put_accepted, Gate.opened_append, silent.gate]
      rfl
  | none gate accepted =>
      exact ⟨by rw [accepted]; exact silent.client, by rw [gate]; exact silent.gate⟩

/-- A client that was answered stays so when others move. -/
theorem Carried.answered (told : s.Told c) (carried : Carried s t) {r : Request}
    (answered : Answered c r s) : Answered c r t := by
  rcases answered with got | ⟨closed, empty⟩
  · left
    cases carried with
    | gate stepped =>
        obtain ⟨new, -, accepted, -⟩ := told.flow.step stepped
        rw [accepted, List.head?_append, got, Option.some_or]
    | relay _ _ _ client => rw [client]; exact got
    | none _ accepted => rw [accepted]; exact got
  · right
    cases carried with
    | gate stepped =>
        obtain ⟨-, accepted⟩ := told.nothing_first empty stepped
        obtain ⟨-, -, same⟩ := Gate.step_frame stepped
        exact ⟨same.trans closed, accepted⟩
    | relay _ _ _ client => rw [client]; exact ⟨closed, empty⟩
    | none _ accepted _ closes =>
        refine ⟨?_, by rw [accepted]; exact empty⟩
        cases stillOpen : t.client.isOpen with
        | false => rfl
        | true => rw [closes stillOpen] at closed; cases closed

theorem Carried.capacity (carried : Carried s t) : t.gate.capacity = s.gate.capacity := by
  cases carried with
  | gate stepped => exact (Gate.step_frame stepped).1
  | relay _ _ gate => rw [gate]
  | none gate => rw [gate]

theorem Still.handledRequests (still : Still s t) : t.handledRequests = s.handledRequests :=
  handledRequests_congr still.handled

/-- Moves of others keep what was told in step with what was handled. -/
theorem Told.background (told : s.Told c) (still : Still s t) (carried : Carried s t) :
    t.Told c where
  descriptor := still.descriptor.trans told.descriptor
  maxParked := still.maxParked.trans told.maxParked
  capacity := carried.capacity.trans told.capacity
  flow := carried.flow told
  stage := by
    cases told.stage with
    | awaiting connection first silent =>
        exact .awaiting (still.connection.trans connection)
          (by rw [still.handledRequests]; exact first) (carried.silent told silent)
    | answering first agenda silent =>
        exact .answering (by rw [still.handledRequests]; exact first)
          (by rw [still.agenda]; exact agenda) (carried.silent told silent)
    | answered connection first noReply answered =>
        exact .answered (still.connection.trans connection)
          (by rw [still.handledRequests]; exact first) (by rw [still.agenda]; exact noReply)
          (carried.answered told answered)

/-! ### Acts of the broker -/

/-- Taking a message adds its request to those handled. -/
theorem handledRequests_receive {m : BrokerMessage} {inbox : Mailbox BrokerMessage}
    (taken : s.inbox.next? = some (m, inbox)) (broker : Broker) (acts : List Act) :
    ({ s with inbox, broker }.withAgenda acts).handledRequests =
      s.handledRequests ++ m.request?.toList := by
  change inbox.read.filterMap BrokerMessage.request? = _
  rw [Mailbox.read_next taken, List.filterMap_append]
  cases m with
  | request r => rfl
  | _ => rfl

/-- The broker greets as the configuration says. -/
theorem Told.greeting (told : s.Told c) (id : String) : s.broker.greeting id = c.greeting id :=
  Broker.greeting_eq told.descriptor id

/-- A broker whose agenda does not start with a reply has either not been greeted or has
answered. -/
theorem Told.stage_of_no_reply (told : s.Told c) (noReply : ∀ e rest, s.agenda ≠ .reply e :: rest) :
    (s.broker.connection = .awaiting ∧ firstHandshake? s.handledRequests = none ∧ s.Silent) ∨
    ∃ r, s.broker.connection = .active ∧ firstHandshake? s.handledRequests = some r ∧
      (∀ e, Act.reply e ∉ s.agenda) ∧ s.Answered c r := by
  cases told.stage with
  | awaiting connection first silent => exact .inl ⟨connection, first, silent⟩
  | answering _ agenda => exact absurd agenda (noReply _ _)
  | answered connection first none_ answered => exact .inr ⟨_, connection, first, none_, answered⟩

/-- While the broker waits for a handshake, none was handled. -/
theorem Told.none_of_awaiting (told : s.Told c)
    (noReply : ∀ e rest, s.agenda ≠ .reply e :: rest)
    (awaiting : s.broker.connection = .awaiting) : firstHandshake? s.handledRequests = none := by
  rcases told.stage_of_no_reply noReply with ⟨-, none_, -⟩ | ⟨r, active, -⟩
  · exact none_
  · rw [active] at awaiting
    cases awaiting

/-- Once it is active a first handshake was handled and answered. -/
theorem Told.first_of_active (told : s.Told c) (noReply : ∀ e rest, s.agenda ≠ .reply e :: rest)
    (active : s.broker.connection = .active) :
    ∃ r, firstHandshake? s.handledRequests = some r ∧ s.Answered c r := by
  rcases told.stage_of_no_reply noReply with ⟨awaiting, -⟩ | ⟨r, -, first, -, answered⟩
  · rw [active] at awaiting
    cases awaiting
  · exact ⟨r, first, answered⟩

/-- It is active as soon as a handshake was handled. -/
theorem Told.active_of_first (told : s.Told c) (noReply : ∀ e rest, s.agenda ≠ .reply e :: rest)
    {r : Request} (first : firstHandshake? s.handledRequests = some r) :
    s.broker.connection = .active := by
  rcases told.stage_of_no_reply noReply with ⟨-, none_, -⟩ | ⟨q, active, -⟩
  · rw [none_] at first
    cases first
  · exact active

/-- The first event of a client that reads is the reply. -/
theorem Answered.reply_first {r : Request} (answered : s.Answered c r)
    (there : s.client.isOpen = true) :
    ∃ others, s.client.accepted = .ofBroker (c.greeting r.id) :: others := by
  rcases answered with got | ⟨gone, -⟩
  · exact List.head?_eq_some_iff.mp got
  · rw [there] at gone
    cases gone

/-- The reply to the handshake is written. -/
theorem Told.reply (told : s.Told c) (orderly : s.Orderly) {e : Event} {rest : List Act}
    (phase : s.phase = .serving (.reply e :: rest)) (ready : s.client.isReady = true) :
    ({ s with client := Outlets.tell s.client (.ofBroker e) }.withAgenda rest).Told c := by
  have agenda := agenda_of_phase phase
  obtain ⟨active, rs, -, rfl⟩ := (orderly.agenda_of_phase phase).of_reply
  cases told.stage with
  | awaiting connection => rw [active] at connection; cases connection
  | answered _ _ noReply => exact absurd (agenda ▸ .head _) (noReply e)
  | @answering r _ first greets silent =>
      rw [agenda, List.cons.injEq, Act.reply.injEq] at greets
      obtain ⟨rfl, -⟩ := greets
      have noReply : ∀ e, Act.reply e ∉ rs.map Act.route ++ [.activate] := by simp
      have flow := told.flow
      rcases Outlets.tell_cases (a := .ofBroker (c.greeting r.id)) ready with
        ⟨isOpen, told_⟩ | ⟨closed, told_⟩
      · refine ⟨told.descriptor, told.maxParked, told.capacity, ?_,
          .answered active first noReply (.inl ?_)⟩
        · change s.gate.Flow ((Outlets.tell s.client (.ofBroker (c.greeting r.id))).accepted.drop 1)
          rw [told_, Mailbox.put_accepted, silent.client]
          simpa [silent.client] using flow
        · change (Outlets.tell s.client (.ofBroker (c.greeting r.id))).accepted.head? = _
          rw [told_, Mailbox.put_accepted, silent.client]
          rfl
      · refine ⟨told.descriptor, told.maxParked, told.capacity, ?_,
          .answered active first noReply (.inr ?_)⟩
        · change s.gate.Flow ((Outlets.tell s.client (.ofBroker (c.greeting r.id))).accepted.drop 1)
          rw [told_]
          exact flow
        · change (Outlets.tell s.client (.ofBroker (c.greeting r.id))).isOpen = false ∧
            (Outlets.tell s.client (.ofBroker (c.greeting r.id))).accepted = []
          rw [told_]
          exact ⟨closed, silent.client⟩

/-- The broker tells the gate something; an activation only after the handshake. -/
theorem Told.tell (told : s.Told c) {m : GateMessage Outgoing} {a : Act} {rest : List Act}
    (agenda : s.agenda = a :: rest) (noReply : ∀ e, a ≠ .reply e)
    (ready : s.gate.inbox.isReady = true)
    (after_ : Gate.opened [m] = false ∨ s.broker.connection = .active) :
    ({ s with gate := { s.gate with inbox := Outlets.tell s.gate.inbox m } }.withAgenda rest).Told
      c := by
  have flow : Gate.Flow { s.gate with inbox := Outlets.tell s.gate.inbox m }
      (s.client.accepted.drop 1) := by
    rcases Outlets.tell_cases (a := m) ready with ⟨isOpen, told_⟩ | ⟨-, told_⟩
    · rw [told_]
      have room : s.gate.inbox.isFull = false := by simpa [Mailbox.isReady, isOpen] using ready
      exact told.flow.offer (Mailbox.offer_eq_ok.mpr ⟨isOpen, room, rfl⟩)
    · rw [told_]
      exact told.flow
  refine ⟨told.descriptor, told.maxParked, told.capacity, flow, ?_⟩
  rcases told.stage_of_no_reply fun e others h => noReply e (by rw [agenda] at h; cases h; rfl) with
    ⟨awaiting, first, silent⟩ | ⟨r, active, first, none_, answered⟩
  · have closed : Gate.opened [m] = false := by
      rcases after_ with closed | active
      · exact closed
      · rw [active] at awaiting; cases awaiting
    refine .awaiting awaiting first ⟨silent.client, ?_⟩
    change Gate.opened (Outlets.tell s.gate.inbox m).accepted = false
    rcases Outlets.tell_cases (a := m) ready with ⟨-, told_⟩ | ⟨-, told_⟩
    · rw [told_, Mailbox.put_accepted, Gate.opened_append, silent.gate, closed]
      rfl
    · rw [told_]
      exact silent.gate
  · exact .answered active first (fun e mem => none_ e (by rw [agenda]; exact .tail _ mem)) answered

/-- The agenda changes, the mailboxes of gate and client do not. -/
theorem Told.withAgenda (told : s.Told c) (acts : List Act) (topology : Topology)
    (noReply : ∀ e rest, s.agenda ≠ .reply e :: rest)
    (same : (∀ e, Act.reply e ∉ s.agenda) → ∀ e, Act.reply e ∉ acts) :
    ({ s with topology }.withAgenda acts).Told c := by
  refine ⟨told.descriptor, told.maxParked, told.capacity, told.flow, ?_⟩
  rcases told.stage_of_no_reply noReply with
    ⟨awaiting, first, silent⟩ | ⟨r, active, first, none_, answered⟩
  · exact .awaiting awaiting first ⟨silent.client, silent.gate⟩
  · exact .answered active first (same none_) answered

/-- The broker handles a message. -/
theorem Told.receive (told : s.Told c) (idle : s.agenda = []) {m : BrokerMessage}
    {inbox : Mailbox BrokerMessage} (taken : s.inbox.next? = some (m, inbox)) :
    ({ s with inbox, broker := (s.broker.handle s.now m).1 }.withAgenda
      (s.broker.handle s.now m).2).Told c := by
  have handled := handledRequests_receive taken (s.broker.handle s.now m).1
    (s.broker.handle s.now m).2
  have handles := s.broker.handles_handle s.now m
  generalize (s.broker.handle s.now m).1 = broker at handled handles ⊢
  generalize (s.broker.handle s.now m).2 = acts at handled handles ⊢
  have descriptor : broker.descriptor = s.broker.descriptor := by cases handles <;> rfl
  have maxParked : broker.maxParked = s.broker.maxParked := by cases handles <;> rfl
  refine ⟨descriptor.trans told.descriptor, maxParked.trans told.maxParked, told.capacity,
    told.flow, ?_⟩
  rcases told.stage_of_no_reply (by simp [idle]) with
    ⟨awaiting, first, silent⟩ | ⟨r, active, first, -, answered⟩
  · -- Without a handshake in the message the broker goes on waiting.
    have wait (connection : broker.connection = .awaiting)
        (other : ∀ r, m.request? = some r → r.isHandshake = false) :
        Stage c ({ s with inbox, broker }.withAgenda acts) := by
      refine .awaiting connection ?_ ⟨silent.client, silent.gate⟩
      rw [handled, firstHandshake?_append_of_none first]
      cases request : m.request? with
      | none => rfl
      | some r => simp [firstHandshake?, other r request]
    cases handles with
    | @greet r _ handshake =>
        rw [told.greeting] at handled ⊢
        refine .answering (r := r) ?_ rfl ⟨silent.client, silent.gate⟩
        · rw [handled, firstHandshake?_append_of_none first]
          simpa [firstHandshake?, BrokerMessage.request?] using handshake
    | leave _ data =>
        refine wait awaiting ?_
        intro r h
        cases h
        simp [Request.isHandshake, data]
    | turnAway _ routable =>
        refine wait awaiting ?_
        intro r h
        cases h
        exact routable.not_handshake
    | park _ routable =>
        refine wait awaiting ?_
        intro r h
        cases h
        exact routable.not_handshake
    | greetAgain active => rw [active] at awaiting; cases awaiting
    | route active => rw [active] at awaiting; cases awaiting
    | _ => exact wait awaiting (by simp [BrokerMessage.request?])
  · have kept : firstHandshake? ({ s with inbox, broker }.withAgenda acts).handledRequests =
        some r := by
      rw [handled]
      exact firstHandshake?_append_of_some first
    have connection : broker.connection = .active := by
      cases handles with
      | greet => rfl
      | _ => exact active
    refine .answered connection kept ?_ answered
    intro e mem
    change Act.reply e ∈ acts at mem
    cases handles with
    | greet awaiting => rw [active] at awaiting; cases awaiting
    | _ => simp at mem

/-- Every transition keeps the order of what the client is told. -/
theorem Told.kept {out : List Event} (told : s.Told c) (orderly : s.Orderly)
    (h : Transition allowed s out t) : t.Told c := by
  cases h with
  | reply phase ready => exact told.reply orderly phase ready
  | emit phase ready =>
      exact told.tell (agenda_of_phase phase) (by simp) ready (.inl rfl)
  | activate phase ready =>
      exact told.tell (agenda_of_phase phase) (by simp) ready
        (.inr (orderly.agenda_of_phase phase).of_activate.1)
  | @route r rest phase =>
      have agenda := agenda_of_phase phase
      refine told.withAgenda _ _ (by simp [agenda]) ?_
      intro none_ e mem
      rcases List.mem_append.mp mem with new | old
      · rcases Outlets.followUp_cases new with ⟨_, same⟩ | ⟨_, same⟩ <;> cases same
      · exact none_ e (by rw [agenda]; exact .tail _ old)
  | @finish ending rest phase =>
      have agenda := agenda_of_phase phase
      have ended := told.withAgenda [] s.topology (by simp [agenda])
        fun _ e => List.not_mem_nil
      exact ⟨ended.descriptor, ended.maxParked, ended.capacity, ended.flow, by
        cases ended.stage with
        | awaiting connection first silent =>
            exact .awaiting connection first ⟨silent.client, silent.gate⟩
        | answering _ agenda => cases agenda
        | answered connection first none_ answered =>
            exact .answered connection first none_ answered⟩
  | receive phase _ _ taken => exact told.receive (agenda_of_phase phase) taken
  | background background =>
      exact told.background (background.still orderly.sound) background.carried

/-- What was told is in step with what was handled in all that a fresh session comes to. -/
theorem Fresh.told_of_reaches (fresh : s.Fresh c) {out : List Event}
    (h : Reaches allowed s out t) : t.Told c :=
  h.invariant_of fresh.orderly_of_reaches fresh.told fun orderly _ told => told.kept orderly

end Session

/-! ### Main statement -/

open Session in
/-- **The reply to the first handshake is the first event for the client.** After every run
the client has got nothing, or first of all the broker's success response to the first
handshake that it handled, with that identifier and the descriptor. -/
theorem handshake_reply_first {c : Config} {f : Staffing} {search files : Behaviour} {size : Nat}
    {s : Session} (started : start c f search files size = .ok s) (moves : List Move) :
    (s.run moves).client.accepted = [] ∨
      ∃ r rest, firstHandshake? (s.run moves).handledRequests = some r ∧
        (s.run moves).client.accepted = .ofBroker (c.greeting r.id) :: rest := by
  obtain ⟨out, reached⟩ := reaches_run (fun _ => True) s moves fun _ _ _ => trivial
  have told := (fresh_start started).told_of_reaches reached
  cases told.stage with
  | awaiting _ _ silent => exact .inl silent.client
  | answering _ _ silent => exact .inl silent.client
  | @answered r _ first _ answered =>
      rcases answered with got | ⟨-, empty⟩
      · obtain ⟨rest, accepted⟩ := List.head?_eq_some_iff.mp got
        exact .inr ⟨r, rest, first, accepted⟩
      · exact .inl empty

open Session in
/-- A search and the readiness of a worker come before the handshake, the reply does not wait
for them. -/
theorem handshake_reply_first_of_search :
    ∃ s t, start .default ⟨.mixed, .replicate (some 1)⟩ .hangs .hangs 4 = .ok s ∧
      s.run [.send (.request ⟨"1", .search ⟨"x", none⟩⟩), .step .broker,
        .emit .docs (.ready .docs), .step .support, .step .support, .step .gate,
        .send (.request ⟨"2", .handshake ⟨none, none, none⟩⟩), .step .broker,
        .step .gate, .step .gate] = t ∧
      t.client.accepted =
        [.ofBroker (Config.default.greeting "2"), ⟨.worker .docs, .ready .docs⟩] ∧
      (t.client.accepted = [] ∨
        ∃ r rest, firstHandshake? t.handledRequests = some r ∧
          t.client.accepted = .ofBroker (Config.default.greeting r.id) :: rest) := by
  refine ⟨_, _, start_of_isSome (by decide +kernel), rfl, by decide +kernel, ?_⟩
  exact handshake_reply_first (start_of_isSome (by decide +kernel)) _

end SessionBroker
