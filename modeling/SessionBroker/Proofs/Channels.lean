import SessionBroker.Proofs.Agenda
import SessionBroker.Proofs.GateFlow

/-!
The way of events to the client.

Two writers share the client's mailbox: the broker, which answers the first handshake there,
and the gate. `Session.Carried` says what a background transition does to the gate and to
the client; with the acts of the broker that is all that ever happens to them.
-/

namespace SessionBroker

/-- A relay either hands its event to the gate or leaves the gate alone. -/
theorem Relay.step_cases {r r' : Relay} {gate gate' : Mailbox (GateMessage Outgoing)}
    {orphaned : Bool} (stepped : r.step gate orphaned = some (r', gate')) :
    (∃ o, r.leaving = some o ∧ gate.offer (.event o) = .ok gate') ∨ gate' = gate := by
  unfold Relay.step at stepped
  split at stepped
  · cases stepped
  · split at stepped
    · rename_i o leaving
      split at stepped
      · rename_i n offered
        cases stepped
        exact .inl ⟨o, leaving, offered⟩
      · cases stepped
        exact .inr rfl
      · cases stepped
    · split at stepped
      · cases stepped
        exact .inr rfl
      · split at stepped
        · cases stepped
          exact .inr rfl
        · cases stepped

namespace Session

variable {allowed : Move → Prop} {s t : Session}

/-- A relay is about to hand an event to the gate. -/
def Relays (s : Session) (o : Outgoing) : Prop :=
  s.support.leaving = some o ∨ ∃ relay, s.analysis = some relay ∧ relay.leaving = some o

/-- What a background transition does to the gate and the client. -/
inductive Carried (s t : Session) : Prop
  | gate : s.gate.step s.client (!s.gateInUse) = some (t.gate, t.client) → Carried s t
  | relay {o : Outgoing} {inbox : Mailbox (GateMessage Outgoing)} :
      s.Relays o → s.gate.inbox.offer (.event o) = .ok inbox →
      t.gate = { s.gate with inbox } → t.client = s.client → Carried s t
  | none : t.gate = s.gate → t.client.accepted = s.client.accepted →
      t.client.capacity = s.client.capacity →
      (t.client.isOpen = true → s.client.isOpen = true) → Carried s t

theorem Carried.same (gate : t.gate = s.gate) (client : t.client = s.client) : Carried s t :=
  .none gate (by rw [client]) (by rw [client]) (by rw [client]; exact id)

theorem carried_stepSupport (stepped : s.stepSupport = some t) : Carried s t := by
  obtain ⟨⟨relay, inbox⟩, relayed, rfl⟩ := Option.map_eq_some_iff.mp stepped
  rcases Relay.step_cases relayed with ⟨o, leaving, offered⟩ | rfl
  · exact .relay (.inl leaving) offered rfl rfl
  · exact .same rfl rfl

theorem carried_stepAnalysis (stepped : s.stepAnalysis = some t) : Carried s t := by
  obtain ⟨relay, found, stepped⟩ := Option.bind_eq_some_iff.mp stepped
  obtain ⟨⟨relay', inbox⟩, relayed, rfl⟩ := Option.map_eq_some_iff.mp stepped
  rcases Relay.step_cases relayed with ⟨o, leaving, offered⟩ | rfl
  · exact .relay (.inr ⟨relay, found, leaving⟩) offered rfl rfl
  · exact .same rfl rfl

/-- The client reads, or reads no more; no move from outside writes to it. -/
theorem carried_apply {m : Move} (outside : ∀ task, m ≠ .step task) : Carried s (s.apply m) := by
  cases m with
  | step task => exact absurd rfl (outside task)
  | send m =>
      simp only [apply]
      cases sent : s.send m with
      | error refusal => exact .same rfl rfl
      | ok t =>
          obtain ⟨inbox, -, rfl⟩ := send_eq_ok sent
          exact .same rfl rfl
  | emit w e =>
      simp only [apply]
      cases emitted : s.emit w e with
      | error refusal => exact .same rfl rfl
      | ok t =>
          rcases emit_eq_ok emitted with ⟨relay, inbox, -, -, rfl⟩ | ⟨inbox, -, rfl⟩
          · exact .same rfl rfl
          · exact .same rfl rfl
  | finishIndex outcome =>
      simp only [apply, finishIndex]
      split <;> exact .same rfl rfl
  | readClient count => exact .none rfl rfl rfl id
  | closeClient => exact .none rfl rfl rfl (by simp [apply, Mailbox.close])
  | _ => exact .same rfl rfl

/-- A move of others carries on what is on its way to the client, or leaves it alone. -/
theorem Background.carried (h : Background allowed s t) : Carried s t := by
  cases h with
  | cancelled => exact .same rfl rfl
  | recompile _ due =>
      obtain ⟨debouncer, rfl⟩ := recompileIfDue_eq_some due
      exact .same rfl rfl
  | disconnected => exact .same rfl rfl
  | teardown _ stepped =>
      obtain ⟨teardown, rfl | rfl⟩ := stepTeardown_eq_some stepped <;> exact .same rfl rfl
  | gate stepped =>
      obtain ⟨⟨g, client⟩, gated, rfl⟩ := Option.map_eq_some_iff.mp stepped
      exact .gate gated
  | support stepped => exact carried_stepSupport stepped
  | analysis stepped => exact carried_stepAnalysis stepped
  | index stepped =>
      rcases stepIndex_eq_some stepped with ⟨index, rfl⟩ | ⟨outcome, inbox, index, -, rfl⟩ <;>
        exact .same rfl rfl
  | watch stepped =>
      rcases stepWatch_eq_some stepped with ⟨watches, rfl⟩ | ⟨change, inbox, watches, -, rfl⟩ <;>
        exact .same rfl rfl
  | outside _ foreign => exact carried_apply foreign

end Session

end SessionBroker
