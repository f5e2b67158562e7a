import SessionBroker.Proofs.Handshake

/-!
Sessions in which nothing happens but requests.

`Session.Calm` describes a session that gets requests only: no message of another kind is in
its mailbox, no watch runs, the index is not ready and nobody has cancelled it. Main
statement: `Calm.background`, in such a session the workers get nothing behind the broker's
back, relays stay empty as long as no worker emits, and the broker serves as long as the
client keeps its handle.
-/

namespace SessionBroker

/-- Whether a move leaves alone what the broker does with requests. Workers can emit, but
neither read nor stop. -/
def Move.isCalm : Move → Bool
  | .step _ | .send (.request _) | .dropHandle | .emit _ _ | .muteWorker _ | .advance _
  | .readClient _ => true
  | _ => false

/-- Whether a move is an event of a worker. -/
def Move.isEmit : Move → Bool
  | .emit _ _ => true
  | _ => false

/-! ### Relays -/

def Relay.Vacant (r : Relay) : Prop := r.inbox.accepted = [] ∧ r.leaving = none

/-- An empty relay has no step that would fill it. -/
theorem Relay.Vacant.step {r r' : Relay} {gate gate' : Mailbox (GateMessage Outgoing)}
    {orphaned : Bool} (vacant : r.Vacant) (stepped : r.step gate orphaned = some (r', gate')) :
    r'.Vacant ∧ gate' = gate := by
  obtain ⟨empty, leaving⟩ := vacant
  have nothing : r.inbox.next? = none := by simp [Mailbox.next?, Mailbox.waiting, empty]
  simp only [Relay.step, leaving, nothing] at stepped
  split at stepped
  · cases stepped
  · split at stepped
    · cases stepped
      exact ⟨⟨empty, leaving⟩, rfl⟩
    · cases stepped

namespace Session

variable {allowed : Move → Prop} {c : Config} {s t : Session} {out : List Event}

/-- Only the broker has talked to the gate, and nobody else is going to. -/
structure Hushed (s : Session) : Prop where
  support : s.support.Vacant
  analysis : ∀ relay, s.analysis = some relay → relay.Vacant
  log : ∀ o ∈ Gate.events s.gate.inbox.accepted, o.origin = .broker

/-- Nothing but requests has come to the broker, and the client reads. -/
structure Calm (s : Session) : Prop where
  cancelled : s.cancelled = false
  window : s.broker.debouncer.window = .idle
  index : s.index = .refreshing
  watches : s.watches = []
  requests : ∀ m ∈ s.inbox.accepted, ∃ r, m = .request r
  client : s.client.isOpen = true

/-- The broker serves a client that keeps its handle. -/
structure Serving (s : Session) : Prop where
  handleHeld : s.handleHeld = true
  phase : ∃ acts, s.phase = .serving acts
  isOpen : s.inbox.isOpen = true
  capacity : s.inbox.capacity = inboxSize

theorem Fresh.calm (fresh : s.Fresh c) : s.Calm where
  cancelled := fresh.cancelled
  window := fresh.window
  index := fresh.index
  watches := fresh.watches
  requests := by simp [fresh.inbox, Mailbox.empty]
  client := by
    obtain ⟨size, client⟩ := fresh.client
    rw [client]
    rfl

theorem Fresh.hushed (fresh : s.Fresh c) : s.Hushed := by
  refine ⟨?_, ?_, ?_⟩
  · rw [fresh.support]
    exact ⟨rfl, rfl⟩
  · intro relay found
    obtain ⟨registry, rfl⟩ := fresh.analysis relay found
    exact ⟨rfl, rfl⟩
  · rw [fresh.gate]
    exact fun o mem => (List.not_mem_nil mem).elim

/-- The broker of a fresh session serves a client with a handle. -/
theorem Fresh.serving (fresh : s.Fresh c) : s.Serving where
  handleHeld := fresh.handleHeld
  phase := ⟨[], fresh.phase⟩
  isOpen := by rw [fresh.inbox]; rfl
  capacity := by rw [fresh.inbox]; rfl

/-! ### Background transitions -/

theorem Calm.recompileIfDue (calm : s.Calm) : s.recompileIfDue = none := by
  simp [Session.recompileIfDue, Debouncer.poll, calm.window]

theorem Calm.stepIndex (calm : s.Calm) : s.stepIndex = none := by
  simp [Session.stepIndex, calm.index]

theorem Calm.stepWatch (calm : s.Calm) (number : Nat) : s.stepWatch number = none := by
  simp [Session.stepWatch, calm.watches]

/-- What a background transition can do to a calm session. -/
structure Untroubled (allowed : Move → Prop) (s t : Session) : Prop where
  calm : t.Calm
  topology : t.topology = s.topology
  hushed : (∀ w e, ¬ allowed (.emit w e)) → s.Hushed → t.Hushed
  serving : ¬ allowed .dropHandle → s.Serving → t.Serving

/-- A calm session is not troubled by staying as it is. -/
theorem Calm.untroubled (calm : s.Calm) : Untroubled allowed s s :=
  ⟨calm, rfl, fun _ => id, fun _ => id⟩

/-- A move from outside that belongs to a calm session. -/
theorem Calm.apply (calm : s.Calm) {m : Move} (ok : allowed m) (isCalm : m.isCalm = true)
    (outside : ∀ task, m ≠ .step task) : Untroubled allowed s (s.apply m) := by
  cases m with
  | step task => exact absurd rfl (outside task)
  | send m =>
      simp only [Session.apply]
      cases sent : s.send m with
      | error refusal => exact calm.untroubled
      | ok t =>
          obtain ⟨inbox, offered, rfl⟩ := send_eq_ok sent
          obtain ⟨-, -, rfl⟩ := Mailbox.offer_eq_ok.mp offered
          cases m with
          | request r =>
              refine ⟨{ calm with requests := ?_ }, rfl,
                fun _ hushed => { hushed with }, fun _ serving => { serving with }⟩
              intro m mem
              rcases List.mem_append.mp mem with old | new
              · exact calm.requests m old
              · exact ⟨r, List.mem_singleton.mp new⟩
          | _ => cases isCalm
  | dropHandle =>
      exact ⟨{ calm with }, rfl, fun _ hushed => { hushed with }, fun kept => absurd ok kept⟩
  | emit w e =>
      simp only [Session.apply]
      cases emitted : s.emit w e with
      | error refusal => exact calm.untroubled
      | ok t =>
          rcases emit_eq_ok emitted with ⟨relay, inbox, -, -, rfl⟩ | ⟨inbox, -, rfl⟩
          · exact ⟨{ calm with }, rfl, fun silent => absurd ok (silent w e),
              fun _ serving => { serving with }⟩
          · exact ⟨{ calm with }, rfl, fun silent => absurd ok (silent w e),
              fun _ serving => { serving with }⟩
  | muteWorker w =>
      exact ⟨{ calm with }, rfl, fun _ hushed => { hushed with }, fun _ serving => { serving with }⟩
  | advance by_ =>
      exact ⟨{ calm with }, rfl, fun _ hushed => { hushed with }, fun _ serving => { serving with }⟩
  | readClient count =>
      exact ⟨{ calm with }, rfl, fun _ hushed => { hushed with }, fun _ serving => { serving with }⟩
  | _ => cases isCalm

/-- A move of others does not trouble a calm session. -/
theorem Calm.background (calm : s.Calm) (only : ∀ m, allowed m → m.isCalm = true)
    (h : Background allowed s t) : Untroubled allowed s t := by
  cases h with
  | cancelled _ cancelled =>
      rw [calm.cancelled] at cancelled
      cases cancelled
  | recompile _ due =>
      rw [calm.recompileIfDue] at due
      cases due
  | disconnected _ _ _ _ alone =>
      refine ⟨{ calm with }, rfl, fun _ hushed => { hushed with }, ?_⟩
      intro _ serving
      simp [hasSender, serving.handleHeld] at alone
  | teardown phase stepped =>
      have notServing : ¬ s.Serving := fun serving => by
        obtain ⟨acts, other⟩ := serving.phase
        rw [phase] at other
        cases other
      obtain ⟨teardown, rfl | rfl⟩ := stepTeardown_eq_some stepped <;>
        exact ⟨{ calm with }, rfl, fun _ hushed => { hushed with },
          fun _ serving => absurd serving notServing⟩
  | gate stepped =>
      obtain ⟨⟨g, client⟩, gated, rfl⟩ := Option.map_eq_some_iff.mp stepped
      obtain ⟨-, log, there⟩ := Gate.step_frame gated
      exact ⟨{ calm with client := there.trans calm.client }, rfl,
        fun _ hushed => { hushed with log := by rw [log]; exact hushed.log },
        fun _ serving => { serving with }⟩
  | support stepped =>
      obtain ⟨⟨r, inbox⟩, relayed, rfl⟩ := Option.map_eq_some_iff.mp stepped
      refine ⟨{ calm with }, rfl, ?_, fun _ serving => { serving with }⟩
      intro _ hushed
      obtain ⟨vacant, rfl⟩ := hushed.support.step relayed
      exact { hushed with support := vacant }
  | analysis stepped =>
      obtain ⟨relay, found, stepped⟩ := Option.bind_eq_some_iff.mp stepped
      obtain ⟨⟨r, inbox⟩, relayed, rfl⟩ := Option.map_eq_some_iff.mp stepped
      refine ⟨{ calm with }, rfl, ?_, fun _ serving => { serving with }⟩
      intro _ hushed
      obtain ⟨vacant, rfl⟩ := (hushed.analysis relay found).step relayed
      exact { hushed with analysis := fun relay' same => by cases same; exact vacant }
  | index stepped =>
      rw [calm.stepIndex] at stepped
      cases stepped
  | watch stepped =>
      rw [calm.stepWatch] at stepped
      cases stepped
  | outside ok foreign => exact calm.apply ok (only _ ok) foreign

/-! ### All transitions -/

/-- The next message is a request. -/
theorem Calm.next (calm : s.Calm) {m : BrokerMessage} {inbox : Mailbox BrokerMessage}
    (taken : s.inbox.next? = some (m, inbox)) : ∃ r, m = .request r := by
  obtain ⟨-, at_, -⟩ := Mailbox.next?_eq_some taken
  exact calm.requests m (List.mem_of_getElem? at_)

/-- Handling a request does not start a burst of changes. -/
theorem debouncer_handle_request (b : Broker) (now : Duration) (r : Request) :
    (b.handle now (.request r)).1.debouncer = b.debouncer := by
  have handles := b.handles_handle now (.request r)
  generalize (b.handle now (.request r)).1 = broker at handles
  generalize (b.handle now (.request r)).2 = acts at handles
  cases handles <;> rfl

theorem Calm.kept (calm : s.Calm) (only : ∀ m, allowed m → m.isCalm = true)
    (h : Transition allowed s out t) : t.Calm := by
  cases h with
  | @reply e =>
      exact { calm with client := (Outlets.tell_frame s.client (.ofBroker e)).2.trans calm.client }
  | receive _ _ _ taken =>
      obtain ⟨r, rfl⟩ := calm.next taken
      refine { calm with window := ?_, requests := ?_ }
      · change (s.broker.handle s.now (.request r)).1.debouncer.window = .idle
        rw [debouncer_handle_request]
        exact calm.window
      · intro m mem
        exact calm.requests m (Mailbox.accepted_next taken ▸ mem)
  | background background => exact (calm.background only background).calm
  | _ => exact { calm with }

/-- What the broker sends to the gate is its own. -/
theorem Hushed.tell (hushed : s.Hushed) {m : GateMessage Outgoing} {acts : List Act}
    (ready : s.gate.inbox.isReady = true)
    (own : ∀ o ∈ Gate.events [m], o.origin = .broker) :
    ({ s with gate := { s.gate with
        inbox := Outlets.tell s.gate.inbox m } }.withAgenda acts).Hushed := by
  refine { hushed with log := ?_ }
  intro o mem
  change o ∈ Gate.events (Outlets.tell s.gate.inbox m).accepted at mem
  rcases Outlets.tell_cases (a := m) ready with ⟨-, told⟩ | ⟨-, told⟩ <;> rw [told] at mem
  · rw [Mailbox.put_accepted, Gate.events_append] at mem
    rcases List.mem_append.mp mem with old | new
    · exact hushed.log o old
    · exact own o new
  · exact hushed.log o mem

/-- As long as no worker emits, nothing but the broker's events is on its way. -/
theorem Hushed.kept (hushed : s.Hushed) (calm : s.Calm)
    (only : ∀ m, allowed m → m.isCalm = true) (silent : ∀ w e, ¬ allowed (.emit w e))
    (h : Transition allowed s out t) : t.Hushed := by
  cases h with
  | emit _ ready =>
      exact hushed.tell ready fun o mem => by rw [List.mem_singleton.mp mem]; rfl
  | activate _ ready => exact hushed.tell ready fun o mem => (List.not_mem_nil mem).elim
  | background background => exact (calm.background only background).hushed silent hushed
  | _ => exact { hushed with }

theorem Fresh.calm_of_reaches (fresh : s.Fresh c) (only : ∀ m, allowed m → m.isCalm = true)
    (h : Reaches allowed s out t) : t.Calm :=
  h.invariant fresh.calm fun calm => calm.kept only

theorem Fresh.hushed_of_reaches (fresh : s.Fresh c) (only : ∀ m, allowed m → m.isCalm = true)
    (silent : ∀ w e, ¬ allowed (.emit w e)) (h : Reaches allowed s out t) : t.Hushed :=
  h.invariant_of (fresh.calm_of_reaches only) fresh.hushed fun calm _ hushed =>
    hushed.kept calm only silent

end Session

end SessionBroker
