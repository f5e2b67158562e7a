import SessionBroker.Proofs.Output

/-!
What a session never takes back.

`Session.Grown` lists what only grows. Main statement: `Fresh.activation_of_reaches`, a
session whose gate has been sent an activation was once just about to send it, with all
parked requests routed and nothing handled since the handshake.
-/

namespace SessionBroker

namespace Session

variable {allowed : Move → Prop} {c : Config} {s t u : Session} {out more : List Event}

/-- What has been handled, delivered and sent stays so. -/
structure Grown (s t : Session) : Prop where
  handled : s.handled <+: t.handled
  requests : ∀ w, s.topology.requests w <+: t.topology.requests w
  layout : t.topology.layout = s.topology.layout
  gate : s.gate.inbox.accepted <+: t.gate.inbox.accepted
  gateSize : t.gate.inbox.capacity = s.gate.inbox.capacity
  clientSize : t.client.capacity = s.client.capacity
  /-- A client that has gone does not come back. -/
  there : t.client.isOpen = true → s.client.isOpen = true

theorem Grown.refl (s : Session) : Grown s s :=
  ⟨List.prefix_refl _, fun _ => List.prefix_refl _, rfl, List.prefix_refl _, rfl, rfl, id⟩

theorem Grown.trans (first : Grown s t) (second : Grown t u) : Grown s u where
  handled := first.handled.trans second.handled
  requests := fun w => (first.requests w).trans (second.requests w)
  layout := second.layout.trans first.layout
  gate := first.gate.trans second.gate
  gateSize := second.gateSize.trans first.gateSize
  clientSize := second.clientSize.trans first.clientSize
  there := fun isOpen => first.there (second.there isOpen)

/-- While others move, what was handled, delivered and sent stays so. -/
theorem grown_background (still : Still s t) (carried : Carried s t) : Grown s t := by
  have handled : s.handled <+: t.handled := still.handled ▸ List.prefix_refl _
  have requests : ∀ w, s.topology.requests w <+: t.topology.requests w :=
    fun w => still.requests w ▸ List.prefix_refl _
  cases carried with
  | gate stepped =>
      obtain ⟨-, log, there⟩ := Gate.step_frame stepped
      obtain ⟨gateSize, clientSize⟩ := Gate.step_sizes stepped
      exact ⟨handled, requests, still.layout, log ▸ List.prefix_refl _, gateSize, clientSize,
        fun isOpen => there ▸ isOpen⟩
  | relay _ offered gate client =>
      obtain ⟨-, -, rfl⟩ := Mailbox.offer_eq_ok.mp offered
      exact ⟨handled, requests, still.layout, by rw [gate]; exact List.prefix_append _ _,
        by rw [gate]; rfl, by rw [client], by rw [client]; exact id⟩
  | none gate _ clientSize there =>
      exact ⟨handled, requests, still.layout, gate ▸ List.prefix_refl _, by rw [gate], clientSize,
        there⟩

/-- In every transition what was handled, delivered and sent stays so. -/
theorem Transition.grown (orderly : s.Orderly) (h : Transition allowed s out t) : Grown s t := by
  cases h with
  | @reply e _ _ _ =>
      obtain ⟨capacity, there⟩ := Outlets.tell_frame s.client (.ofBroker e)
      exact { Grown.refl s with clientSize := capacity, there := fun isOpen => there ▸ isOpen }
  | @emit e _ _ _ =>
      exact { Grown.refl s with
        gate := Outlets.prefix_tell s.gate.inbox (.event (.ofBroker e))
        gateSize := (Outlets.tell_frame s.gate.inbox (.event (.ofBroker e))).1 }
  | activate =>
      exact { Grown.refl s with
        gate := Outlets.prefix_tell s.gate.inbox .activate
        gateSize := (Outlets.tell_frame s.gate.inbox (.activate : GateMessage Outgoing)).1 }
  | @route r =>
      exact { Grown.refl s with
        requests := fun w => (s.topology.requests_dispatch r w).1
        layout := (s.topology.requests_dispatch r .docs).2 }
  | finish => exact { Grown.refl s with }
  | @receive m inbox _ _ _ taken =>
      exact { Grown.refl s with handled := ⟨[m], (Mailbox.read_next taken).symm⟩ }
  | background background =>
      exact grown_background (background.still orderly.sound) background.carried

theorem Orderly.grown (orderly : s.Orderly) (h : Reaches allowed s out t) : Grown s t := by
  induction h with
  | refl => exact Grown.refl s
  | tail first last ih => exact ih.trans (last.grown (first.invariant orderly Orderly.kept))

theorem Grown.first (grown : Grown s t) {r : Request}
    (first : firstHandshake? s.handledRequests = some r) :
    firstHandshake? t.handledRequests = some r := by
  obtain ⟨later, handled⟩ := grown.handled
  have requests : t.handledRequests =
      s.handledRequests ++ later.filterMap BrokerMessage.request? := by
    rw [Session.handledRequests, ← handled, List.filterMap_append]
    rfl
  rw [requests]
  exact firstHandshake?_append_of_some first

/-! ### The activation of the gate -/

/-- Before the gate is activated nothing is handled after the handshake. -/
def Flushing (s : Session) : Prop :=
  .activate ∈ s.agenda → ∃ early r, s.handled = early ++ [.request r] ∧ r.isHandshake = true ∧
    firstHandshake? (early.filterMap BrokerMessage.request?) = none

/-- No transition handles anything between the handshake and the activation. -/
theorem Flushing.kept (flushing : s.Flushing) (orderly : s.Orderly) (told : s.Told c)
    (h : Transition allowed s out t) : t.Flushing := by
  intro mem
  cases h with
  | reply phase => exact flushing (agenda_of_phase phase ▸ .tail _ mem)
  | emit phase => exact flushing (agenda_of_phase phase ▸ .tail _ mem)
  | activate phase =>
      obtain ⟨-, rfl⟩ := (orderly.agenda_of_phase phase).of_activate
      cases mem
  | @route r rest phase =>
      rcases List.mem_append.mp mem with new | old
      · rcases Outlets.followUp_cases new with ⟨_, same⟩ | ⟨_, same⟩ <;> cases same
      · exact flushing (agenda_of_phase phase ▸ .tail _ old)
  | finish => cases mem
  | @receive m inbox phase _ _ taken =>
      have handled : inbox.read = s.handled ++ [m] := Mailbox.read_next taken
      have handles := s.broker.handles_handle s.now m
      change .activate ∈ (s.broker.handle s.now m).2 at mem
      generalize (s.broker.handle s.now m).1 = broker at handles
      generalize (s.broker.handle s.now m).2 = acts at handles mem
      cases handles with
      | @greet r awaiting handshake =>
          have none_ := told.none_of_awaiting (by simp [agenda_of_phase phase]) awaiting
          exact ⟨s.handled, r, handled, handshake, none_⟩
      | _ => simp at mem
  | background background =>
      have still := background.still orderly.sound
      rw [still.agenda] at mem
      rw [still.handled]
      exact flushing mem

/-- After the handshake the activation is still to come, or the gate of a client that reads
has got it. -/
def Activated (s : Session) : Prop :=
  s.broker.connection = .active → .activate ∉ s.agenda → s.client.isOpen = true →
    Gate.opened s.gate.inbox.accepted = true

theorem opened_of_grown (grown : Grown s t) (opened : Gate.opened s.gate.inbox.accepted = true) :
    Gate.opened t.gate.inbox.accepted = true := by
  obtain ⟨more, log⟩ := grown.gate
  rw [← log, Gate.opened_append, opened, Bool.true_or]

theorem Activated.kept (activated : s.Activated) (orderly : s.Orderly) (output : s.Output out)
    (h : Transition allowed s more t) : t.Activated := by
  intro active sent there
  have grown := h.grown orderly
  have before (connection : s.broker.connection = .active) (unsent : .activate ∉ s.agenda) :
      Gate.opened t.gate.inbox.accepted = true :=
    opened_of_grown grown (activated connection unsent (grown.there there))
  cases h with
  | reply phase =>
      refine before active ?_
      rw [agenda_of_phase phase]
      simpa using sent
  | emit phase =>
      refine before active ?_
      rw [agenda_of_phase phase]
      simpa using sent
  | activate phase ready =>
      have isOpen := output.attended.isOpen phase there
      change Gate.opened (Outlets.tell s.gate.inbox .activate).accepted = true
      rw [Outlets.tell_eq_put ready isOpen, Mailbox.put_accepted, Gate.opened_append]
      simp [Gate.opened]
  | @route r rest phase =>
      refine before active ?_
      rw [agenda_of_phase phase]
      simp only [agenda_withAgenda, List.mem_append, not_or] at sent
      simpa using sent.2
  | finish phase =>
      refine before active ?_
      obtain rfl := (orderly.agenda_of_phase phase).of_finish
      simp [agenda_of_phase phase]
  | @receive m inbox phase _ _ taken =>
      have handles := s.broker.handles_handle s.now m
      have idle := agenda_of_phase phase
      change (s.broker.handle s.now m).1.connection = .active at active
      change .activate ∉ (s.broker.handle s.now m).2 at sent
      generalize (s.broker.handle s.now m).1 = broker at handles active
      generalize (s.broker.handle s.now m).2 = acts at handles sent
      cases handles with
      | greet => simp at sent
      | _ => exact before active (by simp [idle])
  | background background =>
      have still := background.still orderly.sound
      exact before (still.connection ▸ active) (still.agenda ▸ sent)

theorem Fresh.flushing_of_reaches (fresh : s.Fresh c) (h : Reaches allowed s out t) :
    t.Flushing := by
  induction h with
  | refl => simp [Flushing, fresh.agenda]
  | tail first last ih =>
      exact ih.kept (fresh.orderly_of_reaches first) (fresh.told_of_reaches first) last

theorem Fresh.activated_of_reaches (fresh : s.Fresh c) (h : Reaches allowed s out t) :
    t.Activated := by
  induction h with
  | refl => simp [Activated, fresh.connection]
  | tail first last ih =>
      exact ih.kept (fresh.orderly_of_reaches first) (fresh.output_of_reaches first) last

/-- A gate that has got an activation got it from a broker that had nothing else to do. -/
theorem Fresh.activation_of_reaches (fresh : s.Fresh c) (h : Reaches allowed s out t)
    (opened : Gate.opened t.gate.inbox.accepted = true) :
    ∃ out u rest, Reaches allowed s out u ∧ u.phase = .serving [.activate] ∧ Grown u t ∧
      Gate.opened u.gate.inbox.accepted = false ∧
      t.gate.inbox.accepted = u.gate.inbox.accepted ++ .activate :: rest := by
  induction h with
  | refl =>
      rw [fresh.gate] at opened
      cases opened
  | @tail t v out more first last ih =>
      have orderly := fresh.orderly_of_reaches first
      have grown := last.grown orderly
      cases earlier : Gate.opened t.gate.inbox.accepted with
      | true =>
          obtain ⟨out, u, rest, reached, phase, before, closed, log⟩ := ih earlier
          obtain ⟨new, longer⟩ := grown.gate
          refine ⟨out, u, rest ++ new, reached, phase, before.trans grown, closed, ?_⟩
          rw [← longer, log, List.append_assoc]
          rfl
      | false =>
          -- Only the act of sending it can have changed that.
          have unsent (log : v.gate.inbox.accepted = t.gate.inbox.accepted) : False := by
            rw [log, earlier] at opened
            cases opened
          cases last with
          | reply => exact (unsent rfl).elim
          | route => exact (unsent rfl).elim
          | finish => exact (unsent rfl).elim
          | receive => exact (unsent rfl).elim
          | @emit e rest phase ready =>
              change Gate.opened (Outlets.tell t.gate.inbox _).accepted = true at opened
              rcases Outlets.tell_cases (a := .event (.ofBroker e)) ready with
                ⟨-, told⟩ | ⟨-, told⟩ <;> rw [told] at opened
              · rw [Mailbox.put_accepted, Gate.opened_append, earlier] at opened
                cases opened
              · rw [earlier] at opened
                cases opened
          | @activate rest phase ready =>
              obtain ⟨-, rfl⟩ := (orderly.agenda_of_phase phase).of_activate
              refine ⟨out, t, [], first, phase, grown, earlier, ?_⟩
              change (Outlets.tell t.gate.inbox _).accepted = _
              change Gate.opened (Outlets.tell t.gate.inbox _).accepted = true at opened
              rcases Outlets.tell_cases (a := .activate) ready with ⟨-, told⟩ | ⟨-, told⟩ <;>
                rw [told] at opened ⊢
              · rfl
              · rw [earlier] at opened
                cases opened
          | background background =>
              cases background.carried with
              | gate stepped => exact (unsent (Gate.step_frame stepped).2.1).elim
              | relay _ offered gate =>
                  obtain ⟨-, -, rfl⟩ := Mailbox.offer_eq_ok.mp offered
                  rw [gate, Mailbox.put_accepted, Gate.opened_append, earlier] at opened
                  cases opened
              | none gate => exact (unsent (by rw [gate])).elim

end Session

end SessionBroker
