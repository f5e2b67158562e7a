import SessionBroker.Proofs.Intake
import SessionBroker.Proofs.Output

/-!
The way of events from the workers to the client.

An event of a worker passes two mailboxes, that of a relay and that of the gate.
`Session.Conveys` says what a background transition does on this way, whichever relay it is.
Main statements: `Fresh.flowing_of_reaches`, both relays have handed to the gate what they have
read, and `Fresh.attending_of_reaches`, nobody on the way leaves a client that reads as long as
there is anything to pass on.
-/

namespace SessionBroker

namespace Session

/-- The relay of the analysis workers, or the other one. -/
def relay? (s : Session) : (analysis : Bool) → Option Relay
  | true => s.analysis
  | false => some s.support

variable {allowed : Move → Prop} {c : Config} {s t : Session} {out : List Event}

theorem relayed_eq (s : Session) (way : Bool) :
    s.relayed way = (s.relay? way).elim [] (·.inbox.accepted) := by
  cases way <;> rfl

/-- Which way an event takes is told by its origin. -/
theorem takesWay_byOrigin (s : Session) (way : Bool) : Relay.ByOrigin (s.takesWay way) := by
  intro o p same
  simp only [takesWay, same]

/-- An event takes one way only. -/
theorem takesWay_of_ne {way other : Bool} (different : other ≠ way) {o : Outgoing}
    (takes : s.takesWay way o = true) : s.takesWay other o = false := by
  unfold takesWay at takes ⊢
  split at takes
  · cases takes
  · cases way <;> cases other <;> simp_all

/-- The events of the broker do not come through a relay. -/
theorem takesWay_broker (way : Bool) {o : Outgoing} (own : o.origin = .broker) :
    s.takesWay way o = false := by
  simp [takesWay, own]

/-- The own events of a worker take the way of the worker. -/
theorem takesWay_worker {way : Bool} {w : Worker} (uses : s.usesAnalysisRelay w = way)
    {o : Outgoing} (origin : o.origin = .worker w) : s.takesWay way o = true := by
  simp [takesWay, origin, uses]

/-! ### Background transitions -/

/-- What a background transition does to the way of events to the client. -/
inductive Conveys (s t : Session) : Prop
  | gate : s.gate.step s.client (!s.gateInUse) = some (t.gate, t.client) →
      t.relay? = s.relay? → Conveys s t
  | relay (way : Bool) {orphaned : Bool} {r r' : Relay}
      {inbox : Mailbox (GateMessage Outgoing)} :
      s.relay? way = some r → r.step s.gate.inbox orphaned = some (r', inbox) →
      t.relay? way = some r' → (∀ other, other ≠ way → t.relay? other = s.relay? other) →
      t.gate = { s.gate with inbox } → t.client = s.client → Conveys s t
  /-- A worker emits an event. -/
  | emit (way : Bool) {r : Relay} {o : Outgoing} {inbox : Mailbox Outgoing} :
      s.relay? way = some r → s.takesWay way o = true → r.inbox.offer o = .ok inbox →
      t.relay? way = some { r with inbox } →
      (∀ other, other ≠ way → t.relay? other = s.relay? other) →
      t.gate = s.gate → t.client = s.client → Conveys s t
  | none : t.relay? = s.relay? → t.gate = s.gate →
      (t.client.isOpen = true → s.client.isOpen = true) → Conveys s t

theorem relay?_congr (support : t.support = s.support) (analysis : t.analysis = s.analysis) :
    t.relay? = s.relay? := by
  funext way
  cases way
  · exact congrArg some support
  · exact analysis

/-- What leaves relays, gate and client alone conveys nothing. -/
theorem Conveys.same (support : t.support = s.support) (analysis : t.analysis = s.analysis)
    (gate : t.gate = s.gate) (client : t.client = s.client) : Conveys s t :=
  .none (relay?_congr support analysis) gate (client ▸ id)

/-- There is a second relay or there is none, all the time. -/
theorem Conveys.ways (conveys : Conveys s t) : t.analysis.isSome = s.analysis.isSome := by
  change (t.relay? true).isSome = (s.relay? true).isSome
  have others {way : Bool} {r r' : Relay} (found : s.relay? way = some r)
      (next : t.relay? way = some r')
      (others : ∀ other, other ≠ way → t.relay? other = s.relay? other) :
      (t.relay? true).isSome = (s.relay? true).isSome := by
    by_cases mine : true = way
    · rw [mine, found, next]
      rfl
    · rw [others true mine]
  cases conveys with
  | gate _ same => rw [same]
  | relay way found _ next same => exact others found next same
  | emit way found _ _ next same => exact others found next same
  | none same => rw [same]

theorem conveys_stepSupport (stepped : s.stepSupport = some t) : Conveys s t := by
  obtain ⟨⟨relay, inbox⟩, relayed, rfl⟩ := Option.map_eq_some_iff.mp stepped
  exact .relay false rfl relayed rfl
    (fun other different => by cases other <;> trivial) rfl rfl

theorem conveys_stepAnalysis (stepped : s.stepAnalysis = some t) : Conveys s t := by
  obtain ⟨relay, found, stepped⟩ := Option.bind_eq_some_iff.mp stepped
  obtain ⟨⟨relay', inbox⟩, relayed, rfl⟩ := Option.map_eq_some_iff.mp stepped
  exact .relay true found relayed rfl
    (fun other different => by cases other <;> trivial) rfl rfl

/-- An event that a worker emits gets into the mailbox of its relay. -/
theorem conveys_emit {w : Worker} {e : Event} (emitted : s.emit w e = .ok t) : Conveys s t := by
  rcases emit_way emitted with ⟨way, relay, inbox, found, offered, rfl⟩ |
    ⟨way, inbox, offered, rfl⟩
  · exact .emit true found (takesWay_worker way rfl) offered rfl
      (fun other different => by cases other <;> trivial) rfl rfl
  · exact .emit false rfl (takesWay_worker way rfl) offered rfl
      (fun other different => by cases other <;> trivial) rfl rfl

/-- A move from outside conveys at most one event that is emitted. -/
theorem conveys_apply {m : Move} (outside : ∀ task, m ≠ .step task) : Conveys s (s.apply m) := by
  cases m with
  | step task => exact absurd rfl (outside task)
  | send m =>
      simp only [apply]
      cases sent : s.send m with
      | error refusal => exact .same rfl rfl rfl rfl
      | ok t =>
          obtain ⟨inbox, -, rfl⟩ := send_eq_ok sent
          exact .same rfl rfl rfl rfl
  | emit w e =>
      simp only [apply]
      cases emitted : s.emit w e with
      | error refusal => exact .same rfl rfl rfl rfl
      | ok t => exact conveys_emit emitted
  | finishIndex outcome =>
      simp only [apply, finishIndex]
      split <;> exact .same rfl rfl rfl rfl
  | readClient count => exact .none rfl rfl id
  | closeClient => exact .none rfl rfl (by simp [apply, Mailbox.close])
  | _ => exact .same rfl rfl rfl rfl

/-- Whatever others do conveys events one step at most. -/
theorem Background.conveys (h : Background allowed s t) : Conveys s t := by
  cases h with
  | recompile _ due =>
      obtain ⟨debouncer, rfl⟩ := recompileIfDue_eq_some due
      exact .same rfl rfl rfl rfl
  | teardown _ stepped =>
      obtain ⟨teardown, rfl | rfl⟩ := stepTeardown_eq_some stepped <;> exact .same rfl rfl rfl rfl
  | gate stepped =>
      obtain ⟨⟨g, client⟩, gated, rfl⟩ := Option.map_eq_some_iff.mp stepped
      exact .gate gated rfl
  | support stepped => exact conveys_stepSupport stepped
  | analysis stepped => exact conveys_stepAnalysis stepped
  | index stepped =>
      rcases stepIndex_eq_some stepped with ⟨index, rfl⟩ | ⟨outcome, inbox, index, -, rfl⟩ <;>
        exact .same rfl rfl rfl rfl
  | watch stepped =>
      rcases stepWatch_eq_some stepped with ⟨watches, rfl⟩ | ⟨change, inbox, watches, -, rfl⟩ <;>
        exact .same rfl rfl rfl rfl
  | outside _ foreign => exact conveys_apply foreign
  | _ => exact .same rfl rfl rfl rfl

/-! ### The relays -/

/-- Every relay has passed on what it has read. `first` tells the registries that the relays
have had from the start. -/
def Flowing (first : Bool → Option Readiness) (s : Session) : Prop :=
  ∀ way r, s.relay? way = some r →
    r.Flow (s.takesWay way) (first way) s.gate.inbox.accepted

variable {first : Bool → Option Readiness}

/-- A relay that conveys an event has still passed on what it has read. -/
theorem Flowing.background (flowing : s.Flowing first) (conveys : Conveys s t) :
    t.Flowing first := by
  intro other q found
  rw [takesWay_congr conveys.ways]
  cases conveys with
  | gate stepped same =>
      rw [(Gate.step_frame stepped).2.1]
      exact flowing other q (same ▸ found)
  | @relay way orphaned r r' inbox old stepped next others gate client =>
      have flow := flowing way r old
      rw [gate]
      by_cases mine : other = way
      · subst mine
        rw [next, Option.some.injEq] at found
        subst found
        exact flow.step (s.takesWay_byOrigin other) stepped
      · obtain ⟨-, more, log, own⟩ := flow.step_log (s.takesWay_byOrigin way) stepped
        change q.Flow _ _ inbox.accepted
        rw [log]
        exact (flowing other q (others other mine ▸ found)).others fun o mem =>
          takesWay_of_ne mine (own o mem)
  | @emit way r o inbox old takes offered next others gate client =>
      rw [gate]
      by_cases mine : other = way
      · subst mine
        rw [next, Option.some.injEq] at found
        subst found
        exact (flowing other r old).offer takes offered
      · exact flowing other q (others other mine ▸ found)
  | none same gate =>
      rw [gate]
      exact flowing other q (same ▸ found)

/-- The broker tells the gate something. -/
theorem Flowing.tell (flowing : s.Flowing first) {m : GateMessage Outgoing} {rest : List Act}
    (ready : s.gate.inbox.isReady = true) (own : ∀ o ∈ Gate.events [m], o.origin = .broker) :
    ({ s with gate := { s.gate with
        inbox := Outlets.tell s.gate.inbox m } }.withAgenda rest).Flowing first := by
  intro way r found
  change r.Flow _ _ (Outlets.tell s.gate.inbox m).accepted
  rcases Outlets.tell_cases (a := m) ready with ⟨-, told⟩ | ⟨-, told⟩ <;> rw [told]
  · exact (flowing way r found).others fun o mem => takesWay_broker way (own o mem)
  · exact flowing way r found

/-- In every transition the relays pass on what they read. -/
theorem Flowing.kept (flowing : s.Flowing first) (h : Transition allowed s out t) :
    t.Flowing first := by
  cases h with
  | emit _ ready => exact flowing.tell ready fun o mem => by rw [List.mem_singleton.mp mem]; rfl
  | activate _ ready => exact flowing.tell ready fun o mem => (List.not_mem_nil mem).elim
  | background background => exact flowing.background background.conveys
  | _ => exact flowing

/-! ### Staying for the client -/

/-- As long as the client reads, the gate stays while anyone can send to it, and a relay stays
until it has passed on everything. -/
structure Attending (s : Session) : Prop where
  gate : s.client.isOpen = true → s.gate.inbox.isOpen = true ∨
    (s.isOver = true ∧ ∀ way r, s.relay? way = some r → r.running = false)
  relay : s.client.isOpen = true → ∀ way r, s.relay? way = some r →
    r.running = true ∨ (r.inbox.Drained ∧ r.leaving = none)

/-- Nobody can send to a gate out of use: the session is over, and no relay runs. -/
theorem not_running_of_gateInUse (unused : s.gateInUse = false) :
    s.isOver = true ∧ ∀ way r, s.relay? way = some r → r.running = false := by
  simp only [gateInUse, Bool.or_eq_false_iff, Bool.not_eq_false'] at unused
  obtain ⟨⟨isOver, support⟩, analysis⟩ := unused
  refine ⟨isOver, fun way r found => ?_⟩
  cases way with
  | false =>
      cases found
      exact support
  | true =>
      have found : s.analysis = some r := found
      simpa [found] using analysis

/-- While a relay runs, the gate of a client that reads is there. -/
theorem Attending.isOpen (attending : s.Attending) (there : s.client.isOpen = true) {way : Bool}
    {r : Relay} (found : s.relay? way = some r) (running : r.running = true) :
    s.gate.inbox.isOpen = true := by
  rcases attending.gate there with isOpen | ⟨-, ended⟩
  · exact isOpen
  · rw [ended way r found] at running
    cases running

/-- While the broker serves, the gate of a client that reads is there. -/
theorem Attending.isOpen_of_phase (attending : s.Attending) (there : s.client.isOpen = true)
    {acts : List Act} (phase : s.phase = .serving acts) : s.gate.inbox.isOpen = true := by
  rcases attending.gate there with isOpen | ⟨isOver, -⟩
  · exact isOpen
  · rw [not_over_of_phase phase] at isOver
    cases isOver

/-- A relay that ends has passed on everything, or the gate is gone. -/
theorem relay_stays {r r' : Relay} {gate gate' : Mailbox (GateMessage Outgoing)}
    {orphaned : Bool} (sound : r.inbox.Sound) (same : r.running = r.inbox.isOpen)
    (isOpen : gate.isOpen = true) (stepped : r.step gate orphaned = some (r', gate')) :
    r'.running = true ∨ (r'.inbox.Drained ∧ r'.leaving = none) := by
  obtain ⟨running, steps⟩ := Relay.steps_of_step stepped
  cases steps with
  | hand => exact .inl running
  | lose _ gone =>
      rw [gone] at isOpen
      cases isOpen
  | read =>
      rw [Relay.receive_eq]
      exact .inl running
  | leave idle empty =>
      have drained : r.inbox.Drained := Mailbox.next?_eq_none sound (same.symm.trans running) empty
      exact .inr ⟨drained, idle⟩

/-- Moves of others make neither gate nor relay leave a client that reads. -/
theorem Attending.background (attending : s.Attending) (told : s.Told c)
    (flowing : s.Flowing first) (conveys : Conveys s t) (ends : s.isOver = true → t.isOver = true) :
    t.Attending := by
  cases conveys with
  | gate stepped same =>
      obtain ⟨-, -, client⟩ := Gate.step_frame stepped
      have isOpen : s.gate.inbox.isOpen = true := by
        rw [← told.flow.running]
        exact Gate.running_of_step stepped
      refine ⟨fun there => ?_, fun there => ?_⟩
      · rcases Gate.step_stays told.flow.sound isOpen (client ▸ there) stepped with
          isOpen | ⟨orphaned, -⟩
        · exact .inl isOpen
        · obtain ⟨isOver, ended⟩ := not_running_of_gateInUse (by simpa using orphaned)
          exact .inr ⟨ends isOver, same ▸ ended⟩
      · rw [same]
        exact attending.relay (client ▸ there)
  | @relay way orphaned r r' inbox found stepped next others gate client =>
      have flow := flowing way r found
      obtain ⟨running, -⟩ := Relay.steps_of_step stepped
      obtain ⟨opens, -⟩ := flow.step_log (s.takesWay_byOrigin way) stepped
      refine ⟨fun there => ?_, fun there other q old => ?_⟩ <;> rw [client] at there <;>
        have isOpen := attending.isOpen there found running
      · rw [gate]
        exact .inl (opens.trans isOpen)
      · by_cases mine : other = way
        · subst mine
          rw [next, Option.some.injEq] at old
          subst old
          exact relay_stays flow.sound flow.running isOpen stepped
        · exact attending.relay there other q (others other mine ▸ old)
  | @emit way r o inbox found takes offered next others gate client =>
      have flow := flowing way r found
      have running : r.running = true := flow.running.trans (Mailbox.offer_eq_ok.mp offered).1
      refine ⟨fun there => ?_, fun there other q old => ?_⟩ <;> rw [client] at there
      · rw [gate]
        exact .inl (attending.isOpen there found running)
      · by_cases mine : other = way
        · subst mine
          rw [next, Option.some.injEq] at old
          subst old
          exact .inl running
        · exact attending.relay there other q (others other mine ▸ old)
  | none same gate opens =>
      refine ⟨fun there => ?_, fun there => ?_⟩
      · rw [same, gate]
        exact (attending.gate (opens there)).imp_right fun ended => ⟨ends ended.1, ended.2⟩
      · rw [same]
        exact attending.relay (opens there)

/-- An act of the broker leaves everyone on the way where they are. -/
theorem Attending.act (attending : s.Attending) {acts : List Act}
    (phase : s.phase = .serving acts) (relays : t.relay? = s.relay?)
    (gate : t.gate.inbox.isOpen = s.gate.inbox.isOpen)
    (client : t.client.isOpen = s.client.isOpen) : t.Attending := by
  refine ⟨fun there => .inl ?_, fun there => ?_⟩ <;> rw [client] at there
  · exact gate.trans (attending.isOpen_of_phase there phase)
  · rw [relays]
    exact attending.relay there

theorem Attending.kept (attending : s.Attending) (orderly : s.Orderly) (told : s.Told c)
    (flowing : s.Flowing first) (h : Transition allowed s out t) : t.Attending := by
  cases h with
  | reply phase => exact attending.act phase rfl rfl (Outlets.tell_frame _ _).2
  | emit phase => exact attending.act phase rfl (Outlets.tell_frame _ _).2 rfl
  | activate phase => exact attending.act phase rfl (Outlets.tell_frame _ _).2 rfl
  | route phase => exact attending.act phase rfl rfl rfl
  | finish phase => exact attending.act phase rfl rfl rfl
  | receive phase => exact attending.act phase rfl rfl rfl
  | background background =>
      exact attending.background told flowing background.conveys
        (background.still orderly.sound).isOver

/-! ### The start -/

def readiness? (s : Session) (way : Bool) : Option Readiness := (s.relay? way).bind (·.registry)

theorem Fresh.relay?_eq (fresh : s.Fresh c) {way : Bool} {r : Relay}
    (found : s.relay? way = some r) : r = Relay.new.start (s.readiness? way) := by
  cases way with
  | false =>
      cases found
      rw [readiness?, relay?, fresh.support]
      rfl
  | true =>
      obtain ⟨registry, rfl⟩ := fresh.analysis r found
      rw [readiness?, found]
      rfl

theorem Fresh.flowing (fresh : s.Fresh c) : s.Flowing s.readiness? := by
  intro way r found
  rw [fresh.relay?_eq found, fresh.gate]
  exact Relay.flow_new _ _

theorem Fresh.attending (fresh : s.Fresh c) : s.Attending := by
  refine ⟨fun _ => .inl ?_, fun _ way r found => .inl ?_⟩
  · rw [fresh.gate]
    rfl
  · rw [fresh.relay?_eq found]
    rfl

theorem Fresh.flowing_of_reaches (fresh : s.Fresh c) (h : Reaches allowed s out t) :
    t.Flowing s.readiness? :=
  h.invariant fresh.flowing Flowing.kept

theorem Fresh.attending_of_reaches (fresh : s.Fresh c) (h : Reaches allowed s out t) :
    t.Attending := by
  induction h with
  | refl => exact fresh.attending
  | tail reached last ih =>
      exact ih.kept (fresh.orderly_of_reaches reached) (fresh.told_of_reaches reached)
        (fresh.flowing_of_reaches reached) last

end Session

end SessionBroker
