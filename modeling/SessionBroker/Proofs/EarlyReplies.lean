import SessionBroker.Proofs.Accounts
import SessionBroker.Proofs.Drain

/-!
What comes of the errors that answer requests before the handshake.

Such an error goes through the gate, which holds back only so many events until it is
activated and drops the others. `Session.Settled` says that the broker's events among those
that came to the gate before its activation are the answers to everything that came before
the handshake. Main statement: `early_errors_received`, the client receives the first of
them, as many as the gate can hold, and so all of them if there are not more.
-/

namespace SessionBroker

namespace Session

variable {allowed : Move → Prop} {c : Config} {s t u : Session} {out : List Event}
  {accounts : List Account} {early : List BrokerMessage} {r : Request}

/-- Everything before the handshake has been dealt with: each request was turned away,
delivered or refused, and the answers are among the events that the gate got before its
activation. -/
structure Settled (c : Config) (s : Session) (early : List BrokerMessage)
    (accounts : List Account) : Prop where
  first : ∀ r, .request r ∈ early → r.isHandshake = false
  requests : accounts.map (·.request) = early.filterMap BrokerMessage.request?
  fates : ∀ a ∈ accounts,
    a.Meets c s .turnedAway ∨ a.Meets c s .delivered ∨ a.Meets c s .refused
  held : ((Gate.before s.gate.inbox.accepted).filterMap Outgoing.ofBroker?).Perm
    (accounts.flatMap (·.produced) ++ early.flatMap BrokerMessage.aside)

/-- A request that was handled before the handshake and does not wait has been dealt with. -/
theorem settled_fate {a : Account} {f : Fate} (meets : a.Meets c s f)
    (other : a.request.isHandshake = false) (undecided : s.decided = none)
    (closed : a.isOpen = false) :
    a.Meets c s .turnedAway ∨ a.Meets c s .delivered ∨ a.Meets c s .refused := by
  cases meets with
  | greeted handshake =>
      rw [handshake] at other
      cases other
  | ended _ ending =>
      rw [undecided] at ending
      cases ending
  | parked routable => simp [Account.isOpen, routable.not_shutdown] at closed
  | turnedAway routable => exact .inl (.turnedAway routable)
  | delivered routable some_ served => exact .inr (.inl (.delivered routable some_ served))
  | refused routable => exact .inr (.inr (.refused routable))

/-- What the client has got when the gate is about to be activated: the reply. -/
theorem Told.written_of_activating (told : s.Told c) (phase : s.phase = .serving [.activate])
    (orderly : s.Orderly) (there : s.client.isOpen = true) :
    ∃ r, firstHandshake? s.handledRequests = some r ∧
      s.written = c.greeting r.id :: brokerEvents s.gate.inbox.accepted := by
  have agenda := agenda_of_phase phase
  have active := (orderly.agenda_of_phase phase).of_activate.1
  obtain ⟨r, first, answered⟩ := told.first_of_active (by simp [agenda]) active
  obtain ⟨others, accepted⟩ := answered.reply_first there
  refine ⟨r, first, ?_⟩
  rw [Session.written, accepted]
  rfl

/-- When the gate is about to be activated, everything before the handshake has been dealt
with. -/
theorem Fresh.settled_of_activating (fresh : s.Fresh c) (h : Reaches allowed s out t)
    (phase : t.phase = .serving [.activate]) (there : t.client.isOpen = true)
    (closed : Gate.opened t.gate.inbox.accepted = false) :
    ∃ early accounts r, t.handled = early ++ [.request r] ∧
      firstHandshake? t.handledRequests = some r ∧ Settled c t early accounts := by
  have orderly := fresh.orderly_of_reaches h
  have told := fresh.told_of_reaches h
  have agenda := agenda_of_phase phase
  have undecided : t.decided = none := by simp [Session.decided, phase, Act.ending?]
  obtain ⟨early, r, handled, handshake, none_⟩ :=
    fresh.flushing_of_reaches h (agenda ▸ .head _)
  obtain ⟨accounts, books⟩ := fresh.books_of_reaches h
  obtain ⟨-, -, lost, written, kept⟩ := fresh.output_of_reaches h
  obtain rfl := kept there
  obtain ⟨first, greeted, reply⟩ := told.written_of_activating phase orderly there
  -- The last account is that of the handshake.
  have requests := books.requests
  have split : t.handledRequests = early.filterMap BrokerMessage.request? ++ [r] := by
    rw [Session.handledRequests, handled, List.filterMap_append]
    rfl
  have same : first = r := by
    rw [split, firstHandshake?_append_of_none none_] at greeted
    simpa [firstHandshake?, handshake] using greeted.symm
  subst same
  rw [split] at requests
  obtain ⟨before, last, rfl, early_, lastRequest⟩ := List.map_eq_append_iff.mp requests
  obtain ⟨a, rfl, rfl⟩ := List.map_eq_singleton_iff.mp lastRequest
  have answer : a.produced = [c.greeting a.request.id] := by
    obtain ⟨fate, meets⟩ := books.meets a (by simp)
    exact meets.produced_of_handshake handshake
  have others : ∀ q ∈ early.filterMap BrokerMessage.request?, q.isHandshake = false := by
    intro q mem
    simpa using List.find?_eq_none.mp none_ q mem
  refine ⟨early, before, a.request, handled, greeted, ?_, early_, ?_, ?_⟩
  · intro q mem
    exact others q (List.mem_filterMap.mpr ⟨_, mem, rfl⟩)
  · intro b mem
    obtain ⟨fate, meets⟩ := books.meets b (List.mem_append_left _ mem)
    refine settled_fate meets ?_ undecided ?_
    · exact others b.request (early_ ▸ List.mem_map_of_mem mem)
    · have active := (orderly.agenda_of_phase phase).of_activate.1
      refine books.closed ?_ (List.mem_append_left _ mem)
      simp [Session.waiting, orderly.active active, agenda, Act.request?]
  · have produced := books.produced
    rw [Gate.before_of_closed closed]
    have wrote : t.underway = [] := by simp [Session.underway, agenda, Act.event?]
    rw [wrote, List.append_nil, handled] at produced
    rw [List.append_nil, reply] at written
    simp only [List.flatMap_append, List.flatMap_cons, answer, List.flatMap_nil,
      BrokerMessage.aside, List.append_nil, List.append_assoc, List.singleton_append] at produced
    exact (written.symm.trans (produced.trans List.perm_middle)).cons_inv

/-- What has been dealt with remains so, and nothing comes to the gate before its activation
any more. -/
theorem Settled.grown (settled : Settled c s early accounts) (grown : Grown s t)
    (undecided : s.decided = none) (closed : Gate.opened s.gate.inbox.accepted = false)
    {rest : List (GateMessage Outgoing)}
    (log : t.gate.inbox.accepted = s.gate.inbox.accepted ++ .activate :: rest) :
    Settled c t early accounts where
  first := settled.first
  requests := settled.requests
  fates := fun a mem => by
    have kept {f : Fate} (meets : a.Meets c s f) : a.Meets c t f :=
      meets.kept grown.layout (by simp [undecided])
    rcases settled.fates a mem with meets | meets | meets
    · exact .inl (kept meets)
    · exact .inr (.inl (kept meets))
    · exact .inr (.inr (kept meets))
  held := by
    have same : Gate.before t.gate.inbox.accepted = Gate.before s.gate.inbox.accepted := by
      rw [log, Gate.before_append_of_closed closed]
      exact List.append_nil _
    rw [same]
    exact settled.held

/-- The error that answers a request of which nothing was delivered is on its way. -/
theorem Settled.error_mem (settled : Settled c s early accounts) {a : Account}
    (mem : a ∈ accounts) (undelivered : a.delivered = []) :
    ∃ code message, (code = ErrorCode.notInitialized ∨ code = a.request.refusalCode) ∧
      .ofBroker (.response (.failure a.request.id code message)) ∈
        Gate.before s.gate.inbox.accepted := by
  have held {e : Event} (produced : e ∈ a.produced) :
      .ofBroker e ∈ Gate.before s.gate.inbox.accepted := by
    have answer : e ∈ accounts.flatMap (·.produced) := List.mem_flatMap.mpr ⟨a, mem, produced⟩
    obtain ⟨o, before, same⟩ := List.mem_filterMap.mp
      (settled.held.mem_iff.mpr (List.mem_append_left _ answer))
    rwa [← Outgoing.ofBroker?_eq_some.mp same]
  rcases settled.fates a mem with meets | meets | meets
  · cases meets
    exact ⟨_, _, .inl rfl, held (.head _)⟩
  · cases meets with
    | delivered _ some_ => exact absurd undelivered some_
  · cases meets
    exact ⟨_, _, .inr rfl, held (.head _)⟩

/-- The answer to something that is not a request is on its way. -/
theorem Settled.reject_mem (settled : Settled c s early accounts) {response : Response}
    (mem : .reject response ∈ early) :
    .ofBroker (.response response) ∈ Gate.before s.gate.inbox.accepted := by
  have answer : .response response ∈ early.flatMap BrokerMessage.aside :=
    List.mem_flatMap.mpr ⟨_, mem, .head _⟩
  obtain ⟨o, before, same⟩ := List.mem_filterMap.mp
    (settled.held.mem_iff.mpr (List.mem_append_right _ answer))
  rwa [← Outgoing.ofBroker?_eq_some.mp same]

/-! ### At rest -/

/-- A client that reads has got, after the reply, all that the gate lets through. -/
theorem Fresh.received_of_reaches (fresh : s.Fresh c) (h : Reaches allowed s out t)
    (rest : t.AtRest) (there : t.client.isOpen = true)
    (greeted : firstHandshake? t.handledRequests = some r) :
    Gate.opened t.gate.inbox.accepted = true ∧ t.client.accepted = .ofBroker (c.greeting r.id) ::
      ((Gate.before t.gate.inbox.accepted).take c.session.maxBufferedEvents.toNat ++
        Gate.after t.gate.inbox.accepted) := by
  have told := fresh.told_of_reaches h
  have drained : t.gate.inbox.Drained := by
    rcases (fresh.output_of_reaches h).attended there with isOpen | ⟨-, -, drained⟩
    · exact told.flow.sound.drained_of_waiting isOpen rest.gate
    · exact drained
  have noReply : ∀ e acts, t.agenda ≠ .reply e :: acts := by simp [rest.agenda]
  have active := told.active_of_first noReply greeted
  have opened := fresh.activated_of_reaches h active (by simp [rest.agenda]) there
  obtain ⟨q, first, answered⟩ := told.first_of_active noReply active
  rw [first, Option.some.injEq] at greeted
  subst greeted
  obtain ⟨others, accepted⟩ := answered.reply_first there
  have passed := told.flow.passed_eq rest.leaving drained
  rw [Gate.stream, opened, if_pos rfl, told.capacity, accepted, List.drop_one,
    List.tail_cons] at passed
  exact ⟨opened, by rw [accepted, passed]⟩

end Session

/-! ### Main statement -/

/-- What the client has got of everything that was handled before the handshake `r`. -/
structure EarlyReceived (c : Config) (r : Request) (s : Session) (early : List BrokerMessage)
    (accounts : List Account) : Prop where
  handled : early ++ [.request r] <+: s.handled
  settled : s.Settled c early accounts
  /-- First the reply, then the first events that came to the gate before its activation, as
  many as it can hold, then all later ones. -/
  accepted : s.client.accepted = .ofBroker (c.greeting r.id) ::
    ((Gate.before s.gate.inbox.accepted).take c.session.maxBufferedEvents.toNat ++
      Gate.after s.gate.inbox.accepted)
  /-- If the gate could hold all of them, the error of every request of which no worker got a
  part is there. -/
  errors : (Gate.before s.gate.inbox.accepted).length ≤ c.session.maxBufferedEvents.toNat →
    ∀ a ∈ accounts, a.delivered = [] → ∃ code message,
      (code = ErrorCode.notInitialized ∨ code = a.request.refusalCode) ∧
      .ofBroker (.response (.failure a.request.id code message)) ∈ s.client.accepted.tail
  /-- And so is every answer to something that is not a request. -/
  rejects : (Gate.before s.gate.inbox.accepted).length ≤ c.session.maxBufferedEvents.toNat →
    ∀ response, .reject response ∈ early →
      .ofBroker (.response response) ∈ s.client.accepted.tail

open Session in
/-- **Early errors reach the client as far as the gate can hold them.** Once a handshake has
been handled, the session can come to rest while the client reads; and whenever it is at
rest, the client has got everything of `EarlyReceived`. -/
theorem early_errors_received {c : Config} {f : Staffing} {search files : Behaviour} {size : Nat}
    {s : Session} (started : start c f search files size = .ok s) (room : 0 < size)
    (moves : List Move) (there : (s.run moves).client.isOpen = true) {r : Request}
    (greeted : firstHandshake? (s.run moves).handledRequests = some r) :
    (∃ more, (∀ m ∈ more, m.isWork = true) ∧ ((s.run moves).run more).AtRest ∧
      ((s.run moves).run more).client.isOpen = true) ∧
    ∀ more, ((s.run moves).run more).AtRest → ((s.run moves).run more).client.isOpen = true →
      ∃ early accounts, EarlyReceived c r ((s.run moves).run more) early accounts := by
  obtain ⟨fresh, -, client⟩ := start_eq_ok started
  obtain ⟨out, reached⟩ := reaches_run (fun _ => True) s moves fun _ _ _ => trivial
  constructor
  · have room : 0 < s.client.capacity := by
      rw [client]
      exact room
    obtain ⟨more, work, rest, -, open_⟩ := fresh.drain room (fun _ => trivial) reached there
    exact ⟨more, work, rest, open_⟩
  · intro more rest there
    obtain ⟨new, onward⟩ := reaches_run (fun _ => True) (s.run moves) more fun _ _ _ => trivial
    have whole := reached.trans onward
    have greeted := ((fresh.orderly_of_reaches reached).grown onward).first greeted
    obtain ⟨opened, received⟩ := fresh.received_of_reaches whole rest there greeted
    -- The session was once just about to activate the gate.
    obtain ⟨out, u, log, earlier, phase, grown, closed, split⟩ :=
      fresh.activation_of_reaches whole opened
    obtain ⟨early, accounts, q, handled, first, settled⟩ :=
      fresh.settled_of_activating earlier phase (grown.there there) closed
    obtain rfl : q = r := Option.some.inj ((grown.first first).symm.trans greeted)
    have undecided : u.decided = none := by simp [Session.decided, phase, Act.ending?]
    have settled := settled.grown grown undecided closed split
    refine ⟨early, accounts, handled ▸ grown.handled, settled, received,
      ?_, ?_⟩
    · intro fits a mem undelivered
      obtain ⟨code, message, which, held⟩ := settled.error_mem mem undelivered
      rw [received, List.tail_cons, List.take_of_length_le fits]
      exact ⟨code, message, which, List.mem_append_left _ held⟩
    · intro fits response mem
      rw [received, List.tail_cons, List.take_of_length_le fits]
      exact List.mem_append_left _ (settled.reject_mem mem)

open Session in
/-- Two of three searches are turned away, and the gate can hold both errors. -/
theorem early_errors_received_of_searches :
    ∃ s t, start { Config.default with session := ⟨1, 2⟩ } ⟨.mixed, .replicate (some 1)⟩
        .hangs .hangs 4 = .ok s ∧
      s.run [.send (.request ⟨"1", .search ⟨"x", none⟩⟩), .step .broker,
        .send (.request ⟨"2", .search ⟨"y", none⟩⟩), .step .broker,
        .send (.request ⟨"3", .search ⟨"z", none⟩⟩), .step .broker,
        .send (.request ⟨"4", .handshake ⟨none, none, none⟩⟩), .step .broker] = t ∧
      0 < 4 ∧ t.client.isOpen = true ∧
      firstHandshake? t.handledRequests = some ⟨"4", .handshake ⟨none, none, none⟩⟩ ∧
      (∃ more, (∀ m ∈ more, m.isWork = true) ∧ (t.run more).AtRest ∧
        (t.run more).client.isOpen = true) ∧
      ∀ more, (t.run more).AtRest → (t.run more).client.isOpen = true →
        ∃ early accounts, EarlyReceived { Config.default with session := ⟨1, 2⟩ }
          ⟨"4", .handshake ⟨none, none, none⟩⟩ (t.run more) early accounts := by
  refine ⟨_, _, start_of_isSome (by decide +kernel), rfl, by decide, by decide +kernel,
    by decide +kernel, ?_⟩
  exact early_errors_received (start_of_isSome (by decide +kernel)) (by decide) _
    (by decide +kernel) (by decide +kernel)

open Session in
/-- Not every early error reaches the client: with room for one event in the gate, the error of
the second request that is turned away is dropped, and when everything is at rest the client
has got nothing for it. -/
theorem early_error_dropped :
    ∃ s t, start { Config.default with session := ⟨1, 1⟩ } ⟨.mixed, .replicate (some 1)⟩
        .hangs .hangs 4 = .ok s ∧
      s.run [.send (.request ⟨"1", .search ⟨"x", none⟩⟩), .step .broker,
        .send (.request ⟨"2", .search ⟨"y", none⟩⟩), .step .broker, .step .gate,
        .send (.request ⟨"3", .search ⟨"z", none⟩⟩), .step .broker, .step .gate,
        .send (.request ⟨"4", .handshake ⟨none, none, none⟩⟩), .step .broker, .step .gate,
        .step .gate, .readClient 2] = t ∧
      t.AtRest ∧ t.client.isOpen = true ∧
      t.handledRequests = [⟨"1", .search ⟨"x", none⟩⟩, ⟨"2", .search ⟨"y", none⟩⟩,
        ⟨"3", .search ⟨"z", none⟩⟩, ⟨"4", .handshake ⟨none, none, none⟩⟩] ∧
      (∀ w, ⟨"3", .search ⟨"z", none⟩⟩ ∉ t.topology.requests w) ∧
      t.client.accepted = [.ofBroker (Config.default.greeting "4"),
        .ofBroker (Broker.turnedAway "2")] ∧
      ∀ o ∈ t.client.accepted, o.event.responseId? ≠ some "3" := by
  refine ⟨_, _, start_of_isSome (by decide +kernel), rfl, ?_⟩
  exact ⟨⟨by decide +kernel, by decide +kernel, by decide +kernel, by decide +kernel⟩,
    by decide +kernel, by decide +kernel, fun w => by cases w <;> decide +kernel,
    by decide +kernel, by decide +kernel⟩

end SessionBroker
