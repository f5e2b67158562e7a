import SessionBroker.Proofs.Handshake

/-!
Where the events that the broker writes go.

The broker writes to the client once and otherwise to the gate; relays bring the gate events
of workers only. Main statement: `Fresh.output_of_reaches`, the broker's events in the two
mailboxes are those that it wrote, and none is missing while the client reads.
-/

namespace SessionBroker

/-- The event, if it is one of the broker itself. -/
def Outgoing.ofBroker? (o : Outgoing) : Option Event :=
  match o.origin with
  | .broker => some o.event
  | .worker _ => none

/-- An event of a worker is none of the broker's. -/
theorem Outgoing.ofBroker?_eq_none {o : Outgoing} (worker : o.origin ≠ .broker) :
    o.ofBroker? = none := by
  obtain ⟨origin, e⟩ := o
  cases origin with
  | broker => exact absurd rfl worker
  | worker w => rfl

theorem Outgoing.ofBroker?_eq_some {o : Outgoing} {e : Event} :
    o.ofBroker? = some e ↔ o = .ofBroker e := by
  obtain ⟨origin, event⟩ := o
  cases origin <;> simp [Outgoing.ofBroker?, Outgoing.ofBroker]

/-- The events of the broker among some messages to the gate. -/
def brokerEvents (log : List (GateMessage Outgoing)) : List Event :=
  (Gate.events log).filterMap Outgoing.ofBroker?

theorem brokerEvents_append (log more : List (GateMessage Outgoing)) :
    brokerEvents (log ++ more) = brokerEvents log ++ brokerEvents more := by
  rw [brokerEvents, Gate.events_append, List.filterMap_append]
  rfl

namespace Session

variable {allowed : Move → Prop} {c : Config} {s t : Session} {out more : List Event}

/-- The events of the broker in the mailboxes of client and gate. The first event for the
client is its own, the others have come through the gate. -/
def written (s : Session) : List Event :=
  (s.client.accepted.take 1).map (·.event) ++ brokerEvents s.gate.inbox.accepted

/-- A client that reads is served by the gate until the session is over. -/
def Attended (s : Session) : Prop :=
  s.client.isOpen = true → s.gate.inbox.isOpen = true ∨
    (s.isOver = true ∧ s.gate.leaving = [] ∧ s.gate.inbox.Drained)

/-- What the broker has written is in the mailboxes, apart from events that nobody was there
to take. -/
structure Output (s : Session) (out : List Event) : Prop where
  foreign : s.Foreign
  attended : s.Attended
  written : ∃ lost, out.Perm (s.written ++ lost) ∧ (s.client.isOpen = true → lost = [])

theorem Fresh.output (fresh : s.Fresh c) : s.Output [] := by
  obtain ⟨size, client⟩ := fresh.client
  refine ⟨⟨?_, fun relay found => ?_⟩, fun _ => .inl ?_, [], ?_, fun _ => rfl⟩
  · rw [fresh.support]
    exact Relay.foreign_new none
  · obtain ⟨registry, rfl⟩ := fresh.analysis relay found
    exact Relay.foreign_new registry
  · rw [fresh.gate]
    rfl
  · rw [Session.written, client, fresh.gate]
    exact .nil

theorem not_over_of_phase {acts : List Act} (phase : s.phase = .serving acts) :
    s.isOver = false := by
  simp [isOver, ending?, phase]

/-- While the broker serves, the gate of a client that reads is open. -/
theorem Attended.isOpen (attended : s.Attended) {acts : List Act}
    (phase : s.phase = .serving acts) (there : s.client.isOpen = true) :
    s.gate.inbox.isOpen = true := by
  rcases attended there with isOpen | ⟨isOver, -⟩
  · exact isOpen
  · rw [not_over_of_phase phase] at isOver
    cases isOver

/-! ### Background transitions -/

/-- While others move, the gate of a client that reads stays with it. -/
theorem Carried.attended (told : s.Told c) (attended : s.Attended)
    (ends : s.isOver = true → t.isOver = true) (carried : Carried s t) : t.Attended := by
  intro there
  cases carried with
  | gate stepped =>
      obtain ⟨-, -, client⟩ := Gate.step_frame stepped
      have isOpen : s.gate.inbox.isOpen = true := by
        rw [← told.flow.running]
        exact Gate.running_of_step stepped
      rcases Gate.step_stays told.flow.sound isOpen (client ▸ there) stepped with
        isOpen | ⟨orphaned, idle, drained⟩
      · exact .inl isOpen
      · refine .inr ⟨ends ?_, idle, drained⟩
        cases isOver : s.isOver with
        | true => rfl
        | false => simp [gateInUse, isOver] at orphaned
  | relay _ offered gate client =>
      obtain ⟨isOpen, -, rfl⟩ := Mailbox.offer_eq_ok.mp offered
      rw [gate]
      exact .inl isOpen
  | none gate _ _ opens =>
      rw [gate]
      rcases attended (opens there) with isOpen | ⟨isOver, rest⟩
      · exact .inl isOpen
      · exact .inr ⟨ends isOver, rest⟩

/-- A relay adds no event of the broker to what the gate is sent. -/
theorem brokerEvents_of_carried (foreign : s.Foreign) (carried : Carried s t) :
    brokerEvents t.gate.inbox.accepted = brokerEvents s.gate.inbox.accepted := by
  cases carried with
  | gate stepped => rw [(Gate.step_frame stepped).2.1]
  | @relay o inbox relays offered gate client =>
      obtain ⟨-, -, rfl⟩ := Mailbox.offer_eq_ok.mp offered
      have worker : o.origin ≠ .broker := by
        rcases relays with leaving | ⟨relay, found, leaving⟩
        · exact foreign.1.2 o leaving
        · exact (foreign.2 relay found).2 o leaving
      rw [gate, Mailbox.put_accepted, brokerEvents_append]
      simp [brokerEvents, Gate.events, GateMessage.event?, Outgoing.ofBroker?_eq_none worker]
  | none gate => rw [gate]

/-- Neither the gate nor a relay adds an event of the broker. -/
theorem Carried.written (told : s.Told c) (foreign : s.Foreign) (carried : Carried s t) :
    t.written = s.written := by
  have first : t.client.accepted.take 1 = s.client.accepted.take 1 := by
    cases carried with
    | gate stepped =>
        cases empty : s.client.accepted with
        | nil =>
            obtain ⟨-, accepted⟩ := told.nothing_first empty stepped
            rw [accepted]
        | cons first others =>
            obtain ⟨new, -, accepted, -⟩ := told.flow.step stepped
            rw [accepted, empty]
            rfl
    | relay _ _ _ client => rw [client]
    | none _ accepted => rw [accepted]
  rw [Session.written, first, brokerEvents_of_carried foreign carried, Session.written]

/-- A client that is there was there before others moved. -/
theorem Carried.isOpen (carried : Carried s t) (there : t.client.isOpen = true) :
    s.client.isOpen = true := by
  cases carried with
  | gate stepped => exact (Gate.step_frame stepped).2.2 ▸ there
  | relay _ _ _ client => exact client ▸ there
  | none _ _ _ opens => exact opens there

/-- Moves of others lose nothing that the broker has written. -/
theorem Output.background (output : s.Output out) (told : s.Told c) (still : Still s t)
    (carried : Carried s t) : t.Output out where
  foreign := still.foreign output.foreign
  attended := carried.attended told output.attended still.isOver
  written := by
    obtain ⟨lost, written, none_⟩ := output.written
    rw [← carried.written told output.foreign] at written
    exact ⟨lost, written, fun there => none_ (carried.isOpen there)⟩

/-! ### Acts of the broker -/

/-- The broker writes events into a mailbox, or nobody is there to take them. -/
theorem Output.write (output : s.Output out) {es : List Event} (foreign : t.Foreign)
    (attended : t.Attended) (client : t.client.isOpen = s.client.isOpen)
    (written : t.written.Perm (es ++ s.written) ∨
      t.written = s.written ∧ s.client.isOpen = false) : t.Output (out ++ es) := by
  refine ⟨foreign, attended, ?_⟩
  obtain ⟨lost, before, none_⟩ := output.written
  have wrote : (out ++ es).Perm (es ++ (s.written ++ lost)) :=
    List.perm_append_comm.trans (before.append_left es)
  rcases written with more | ⟨same, gone⟩
  · refine ⟨lost, wrote.trans ?_, client ▸ none_⟩
    rw [← List.append_assoc]
    exact more.symm.append_right lost
  · refine ⟨es ++ lost, ?_, fun there => by rw [client, gone] at there; cases there⟩
    rw [same]
    exact wrote.trans (List.perm_append_comm_assoc ..)

/-- The reply to the handshake goes to a client that has got nothing before. -/
theorem Output.reply (output : s.Output out) (told : s.Told c) {e : Event}
    {rest : List Act} (phase : s.phase = .serving (.reply e :: rest))
    (ready : s.client.isReady = true) :
    ({ s with client := Outlets.tell s.client (.ofBroker e) }.withAgenda rest).Output
      (out ++ [e]) := by
  have silent : s.Silent := by
    have agenda := agenda_of_phase phase
    cases told.stage with
    | awaiting _ _ silent => exact silent
    | answering _ _ silent => exact silent
    | answered _ _ noReply => exact absurd (agenda ▸ .head _) (noReply e)
  have isOpen := fun there => output.attended.isOpen phase there
  rcases Outlets.tell_cases (a := .ofBroker e) ready with ⟨-, told_⟩ | ⟨gone, told_⟩ <;>
    rw [told_]
  · refine output.write output.foreign (fun there => .inl (isOpen there)) rfl (.inl ?_)
    change (((s.client.put (.ofBroker e)).accepted.take 1).map (·.event) ++ _).Perm _
    rw [Mailbox.put_accepted, Session.written, silent.client]
    exact .refl _
  · exact output.write output.foreign (fun there => .inl (isOpen there)) rfl (.inr ⟨rfl, gone⟩)

/-- The broker tells the gate something. -/
theorem Output.tell (output : s.Output out) {rest acts : List Act} {m : GateMessage Outgoing}
    (phase : s.phase = .serving acts) (ready : s.gate.inbox.isReady = true) :
    ({ s with gate := { s.gate with
        inbox := Outlets.tell s.gate.inbox m } }.withAgenda rest).Output
      (out ++ brokerEvents [m]) := by
  have isOpen := fun there => output.attended.isOpen phase there
  rcases Outlets.tell_cases (a := m) ready with ⟨-, told⟩ | ⟨gone, told⟩ <;> rw [told]
  · refine output.write output.foreign (fun there => .inl (isOpen there)) rfl (.inl ?_)
    change (_ ++ brokerEvents (s.gate.inbox.put m).accepted).Perm _
    rw [Mailbox.put_accepted, brokerEvents_append, ← List.append_assoc]
    exact List.perm_append_comm
  · refine output.write output.foreign (fun there => .inl (isOpen there)) rfl (.inr ⟨rfl, ?_⟩)
    cases there : s.client.isOpen with
    | false => rfl
    | true => rw [isOpen there] at gone; cases gone

/-- Every transition keeps track of what the broker writes. -/
theorem Output.kept (output : s.Output out) (orderly : s.Orderly) (told : s.Told c)
    (h : Transition allowed s more t) : t.Output (out ++ more) := by
  have unchanged {acts : List Act} (phase : s.phase = .serving acts) (foreign : t.Foreign)
      (client : t.client = s.client) (gate : t.gate = s.gate) : t.Output (out ++ []) := by
    refine output.write foreign (fun there => .inl ?_) (by rw [client]) (.inl ?_)
    · rw [gate]
      exact output.attended.isOpen phase (client ▸ there)
    · rw [Session.written, client, gate]
      exact .refl _
  cases h with
  | reply phase ready => exact output.reply told phase ready
  | emit phase ready => exact output.tell phase ready
  | activate phase ready => exact output.tell phase ready
  | route phase => exact unchanged phase output.foreign rfl rfl
  | finish phase => exact unchanged phase output.foreign rfl rfl
  | receive phase => exact unchanged phase output.foreign rfl rfl
  | background background =>
      rw [List.append_nil]
      exact output.background told (background.still orderly.sound) background.carried

/-- Whatever a fresh session comes to, what the broker has written is accounted for. -/
theorem Fresh.output_of_reaches (fresh : s.Fresh c) (h : Reaches allowed s out t) :
    t.Output out := by
  induction h with
  | refl => exact fresh.output
  | tail first last ih =>
      exact ih.kept (fresh.orderly_of_reaches first) (fresh.told_of_reaches first) last

end Session

end SessionBroker
