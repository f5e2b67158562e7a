import SessionBroker.Proofs.GateStream
import SessionBroker.Proofs.Merging

/-!
What a gate gets from a relay.

Workers emit into a relay, the relay is started at some time, it moves, and so do the gate behind
it and the client. Every occurrence keeps the relay at a stage of its way (`Feeding.occur`), and
when events stop to flow an active relay has handed everything on (`Feeding.settle`). Main
statement: `readiness_relayed`.
-/

namespace SessionBroker

namespace Pipeline

/-- A relay that has not been started, a gate of this capacity behind it, and a client with a
mailbox of this size. -/
def ofRelay (capacity size : Nat) : Pipeline :=
  { relay := some (.new, true), gate := .new capacity, gateInUse := true, client := .empty size }

/-- What can happen to a relay, the gate and the client. -/
inductive Occurrence where
  /-- An event is emitted, if there is room for it. -/
  | emit (o : Outgoing)
  /-- The relay is started, if it has not been. -/
  | start
  /-- The relay moves, if it can. -/
  | relay
  /-- The gate moves, if it can. -/
  | gate
  /-- The gate is sent an activation, if there is room for it. -/
  | activate
  /-- The client reads. -/
  | read (count : Nat)
  /-- The client reads no more. -/
  | closeClient
  /-- Nobody can emit any more. -/
  | dropEmitters
  /-- Nobody but the relay can send to the gate any more. -/
  | dropHandles
  deriving Repr

/-- The pipeline after an occurrence; the relay is started with a registry of this target, or
without one. -/
def occur (target : Option Nat) (p : Pipeline) : Occurrence → Pipeline
  | .emit o =>
    match p.relay with
    | some (r, true) =>
      match r.inbox.offer o with
      | .ok inbox => { p with relay := some ({ r with inbox }, true) }
      | .error _ => p
    | _ => p
  | .start =>
    match p.relay with
    | some (r, emitters) =>
      if r.started then p
      else { p with relay := some (r.start (target.map .new), emitters) }
    | none => p
  | .relay => p.stepRelay.getD p
  | .gate => p.stepGate.getD p
  | .activate =>
    match p.gateInUse, p.gate.inbox.offer .activate with
    | true, .ok inbox => { p with gate := { p.gate with inbox } }
    | _, _ => p
  | .read count => { p with client := (p.client.take count).2 }
  | .closeClient => { p with client := p.client.close }
  | .dropEmitters => { p with relay := p.relay.map fun (r, _) => (r, false) }
  | .dropHandles => { p with gateInUse := false }

def since (target : Option Nat) (p : Pipeline) (history : List Occurrence) : Pipeline :=
  history.foldl (occur target) p

/-- A pipeline after two histories is that after the first, and then after the second. -/
theorem since_append (target : Option Nat) (p : Pipeline) (history later : List Occurrence) :
    p.since target (history ++ later) = (p.since target history).since target later :=
  List.foldl_append

/-! ### What every occurrence keeps -/

/-- The relay `r` of a pipeline is at some stage. As long as the client is there the relay ends
only when nobody can emit and everything has been handed on, and the gate only after the relay. -/
structure Feeding (target : Option Nat) (size : Nat) (r : Relay) (emitters : Bool) (p : Pipeline) :
    Prop where
  relay : p.relay = some (r, emitters)
  stage : r.Stage target p.gate.inbox.accepted
  gate : p.gate.Flow p.client.accepted
  relaySize : r.inbox.capacity = Relay.mailboxSize
  gateSize : p.gate.inbox.capacity = Gate.mailboxSize
  clientSize : p.client.capacity = size
  stays : p.client.isOpen = true →
    r.running = true ∨ (emitters = false ∧ r.leaving = none ∧ r.inbox.Drained)
  attended : p.client.isOpen = true → p.gate.inbox.isOpen = true ∨ r.running = false

variable {target : Option Nat} {capacity size : Nat} {r : Relay} {emitters : Bool} {p q : Pipeline}

theorem feeding_ofRelay (target : Option Nat) (capacity size : Nat) :
    (ofRelay capacity size).Feeding target size .new true where
  relay := rfl
  stage := Relay.stage_new target
  gate := Gate.flow_new capacity
  relaySize := rfl
  gateSize := rfl
  clientSize := rfl
  stays _ := .inl rfl
  attended _ := .inl rfl

/-- What is left to do for the relay and the gate. -/
def effort (p : Pipeline) : Nat := (p.relay.elim 0 fun (r, _) => r.effort) + p.gate.effort

/-- A move of the relay. -/
theorem Feeding.stepRelay (feeding : p.Feeding target size r emitters)
    (stepped : p.stepRelay = some q) :
    ∃ r', q.Feeding target size r' emitters ∧ r'.started = r.started ∧
      r'.inbox.accepted = r.inbox.accepted ∧ q.client = p.client ∧ q.effort < p.effort := by
  obtain ⟨relay, stage, flow, relaySize, gateSize, clientSize, stays, attended⟩ := feeding
  simp only [Pipeline.stepRelay, relay, Option.bind_some, Option.map_eq_some_iff] at stepped
  obtain ⟨⟨r', inbox⟩, moved, rfl⟩ := stepped
  obtain ⟨sameStart, sameSize, sameRoom, sameOpen⟩ := Relay.step_frame moved
  obtain ⟨running, steps⟩ := Relay.steps_of_step moved
  have less := Relay.effort_step moved
  refine ⟨r', ⟨rfl, stage.step moved, ?_, sameSize.trans relaySize, sameRoom.trans gateSize,
    clientSize, fun there => ?_, fun there => ?_⟩, sameStart, Relay.accepted_step moved, rfl, ?_⟩
  · cases steps with
    | hand _ offered => exact flow.offer offered
    | _ => exact flow
  · have gateOpen := (attended there).resolve_right (by simp [running])
    cases steps with
    | hand => exact .inl running
    | read =>
        rw [Relay.receive_eq]
        exact .inl running
    | lose _ gone =>
        rw [gone] at gateOpen
        cases gateOpen
    | leave idle empty alone =>
        have isOpen : r.inbox.isOpen = true := stage.running ▸ running
        have drained : r.inbox.Drained := Mailbox.next?_eq_none stage.sound isOpen empty
        exact .inr ⟨by simpa using alone, idle, drained⟩
  · exact .inl (sameOpen.trans ((attended there).resolve_right (by simp [running])))
  · simp only [effort, relay, Option.elim_some, Gate.effort, Gate.burden]
    omega

/-- A move of the gate. -/
theorem Feeding.stepGate (feeding : p.Feeding target size r emitters)
    (stepped : p.stepGate = some q) :
    q.Feeding target size r emitters ∧ q.client.isOpen = p.client.isOpen ∧ q.effort < p.effort := by
  obtain ⟨relay, stage, flow, relaySize, gateSize, clientSize, stays, attended⟩ := feeding
  obtain ⟨⟨gate, client⟩, moved, rfl⟩ := Option.map_eq_some_iff.mp stepped
  obtain ⟨new, flow', given, -⟩ := flow.step moved
  obtain ⟨-, sameLog, sameOpen⟩ := Gate.step_frame moved
  obtain ⟨sameRoom, sameSize⟩ := Gate.step_sizes moved
  have less := Gate.effort_step moved
  refine ⟨⟨relay, ?_, ?_, relaySize, sameRoom.trans gateSize, sameSize.trans clientSize,
    fun there => stays (sameOpen ▸ there), fun there => ?_⟩, sameOpen, ?_⟩
  · rw [sameLog]
    exact stage
  · rw [given]
    exact flow'
  · have was : p.client.isOpen = true := sameOpen ▸ there
    have gateOpen : p.gate.inbox.isOpen = true := flow.running ▸ Gate.running_of_step moved
    refine (Gate.step_stays flow.sound gateOpen was moved).imp_right fun ended => ?_
    have orphaned : p.relayRunning = false := by
      have neither := (Bool.not_eq_true' _).mp ended.1
      exact (Bool.or_eq_false_iff.mp neither).2
    simpa [relayRunning, relay] using orphaned
  · simp only [effort]
    omega

theorem Feeding.read (feeding : p.Feeding target size r emitters) (count : Nat) :
    Feeding target size r emitters { p with client := (p.client.take count).2 } :=
  ⟨feeding.relay, feeding.stage, feeding.gate, feeding.relaySize, feeding.gateSize,
    feeding.clientSize, feeding.stays, feeding.attended⟩

/-- Whatever happens to a pipeline, its relay stays at some stage. -/
theorem Feeding.occur (feeding : p.Feeding target size r emitters) (e : Occurrence) :
    ∃ r' emitters', (p.occur target e).Feeding target size r' emitters' := by
  have ⟨relay, stage, flow, relaySize, gateSize, clientSize, stays, attended⟩ := feeding
  cases e with
  | emit o =>
      cases emitters with
      | false => exact ⟨r, false, by simpa [Pipeline.occur, relay] using feeding⟩
      | true =>
          cases offered : r.inbox.offer o with
          | error => exact ⟨r, true, by simpa [Pipeline.occur, relay, offered] using feeding⟩
          | ok inbox =>
              refine ⟨{ r with inbox }, true, ?_⟩
              simp only [Pipeline.occur, relay, offered]
              obtain ⟨-, -, same⟩ := Mailbox.offer_eq_ok.mp offered
              refine ⟨rfl, stage.offer offered, flow, by rw [same]; exact relaySize, gateSize,
                clientSize, fun there => ?_, attended⟩
              exact .inl ((stays there).resolve_right (by simp))
  | start =>
      cases started : r.started with
      | true => exact ⟨r, emitters, by simpa [Pipeline.occur, relay, started] using feeding⟩
      | false =>
          refine ⟨r.start (target.map .new), emitters, ?_⟩
          simp only [Pipeline.occur, relay, started, Bool.false_eq_true, if_false]
          have collects : r.Collects p.gate.inbox.accepted := by
            refine stage.resolve_right fun flow => ?_
            rw [flow.started] at started
            cases started
          exact ⟨rfl, .inr collects.start, flow, relaySize, gateSize, clientSize, stays, attended⟩
  | relay =>
      cases stepped : p.stepRelay with
      | none => exact ⟨r, emitters, by simpa [Pipeline.occur, stepped] using feeding⟩
      | some q =>
          obtain ⟨r', next, -⟩ := feeding.stepRelay stepped
          exact ⟨r', emitters, by simpa [Pipeline.occur, stepped] using next⟩
  | gate =>
      refine ⟨r, emitters, ?_⟩
      cases stepped : p.stepGate with
      | none => simpa [Pipeline.occur, stepped] using feeding
      | some q => simpa [Pipeline.occur, stepped] using (feeding.stepGate stepped).1
  | activate =>
      refine ⟨r, emitters, ?_⟩
      simp only [Pipeline.occur]
      split
      · rename_i inbox _ offered
        obtain ⟨-, -, same⟩ := Mailbox.offer_eq_ok.mp offered
        refine ⟨relay, ?_, flow.offer offered, relaySize, by rw [same]; exact gateSize, clientSize,
          stays, by rw [same]; exact attended⟩
        rw [same]
        exact stage.activate
      · exact feeding
  | read count => exact ⟨r, emitters, feeding.read count⟩
  | closeClient =>
      exact ⟨r, emitters, relay, stage, flow, relaySize, gateSize, clientSize, nofun, nofun⟩
  | dropEmitters =>
      refine ⟨r, false, by simp [Pipeline.occur, relay], stage, flow, relaySize, gateSize,
        clientSize, fun there => ?_, attended⟩
      exact (stays there).imp_right fun ended => ⟨rfl, ended.2⟩
  | dropHandles =>
      exact ⟨r, emitters, relay, stage, flow, relaySize, gateSize, clientSize, stays, attended⟩

theorem Feeding.since (feeding : p.Feeding target size r emitters) (history : List Occurrence) :
    ∃ r' emitters', (p.since target history).Feeding target size r' emitters' := by
  induction history generalizing p r emitters with
  | nil => exact ⟨r, emitters, feeding⟩
  | cons e history ih =>
      obtain ⟨r', emitters', next⟩ := feeding.occur e
      exact ih next

/-! ### At rest -/

/-- A pipeline rests when neither relay nor gate can move. -/
theorem step_eq_none :
    p.step = none ↔ p.readClient.stepRelay = none ∧ p.readClient.stepGate = none :=
  Option.or_eq_none_iff

/-- Running a pipeline that rests lets the client read, no more. -/
theorem run_of_rest (rests : p.step = none) (fuel : Nat) : p.run fuel = p.readClient := by
  cases fuel with
  | zero => rfl
  | succ fuel => rw [run, rests, Option.elim_none]

/-- A move while events flow emits nothing and starts nothing. -/
theorem Feeding.step (feeding : p.Feeding target size r emitters) (stepped : p.step = some q) :
    ∃ r', q.Feeding target size r' emitters ∧ r'.started = r.started ∧
      r'.inbox.accepted = r.inbox.accepted ∧ q.client.isOpen = p.client.isOpen ∧
      q.effort < p.effort := by
  have read : p.readClient.Feeding target size r emitters := feeding.read _
  -- The gate moves only if the relay cannot.
  rcases Option.or_eq_some_iff.mp stepped with relayed | ⟨-, gated⟩
  · obtain ⟨r', next, sameStart, sameLog, sameClient, less⟩ := read.stepRelay relayed
    exact ⟨r', next, sameStart, sameLog, by rw [sameClient]; rfl, less⟩
  · obtain ⟨next, sameClient, less⟩ := read.stepGate gated
    exact ⟨r, next, rfl, rfl, sameClient, less⟩

/-- Events stop to flow when neither the relay nor the gate can move and the client has read
everything. -/
theorem Feeding.run_rests (feeding : p.Feeding target size r emitters) {fuel : Nat}
    (enough : p.effort ≤ fuel) :
    ∃ r', (p.run fuel).Feeding target size r' emitters ∧ r'.started = r.started ∧
      r'.inbox.accepted = r.inbox.accepted ∧ (p.run fuel).client.isOpen = p.client.isOpen ∧
      (p.run fuel).stepRelay = none ∧ (p.run fuel).stepGate = none ∧
      (p.run fuel).client.waiting = [] := by
  induction fuel generalizing p r with
  | zero =>
      have rests : p.step = none := by
        by_contra moves
        obtain ⟨q, stepped⟩ := Option.ne_none_iff_exists'.mp moves
        obtain ⟨-, -, -, -, -, less⟩ := feeding.step stepped
        omega
      obtain ⟨noRelay, noGate⟩ := step_eq_none.mp rests
      exact ⟨r, feeding.read _, rfl, rfl, rfl, noRelay, noGate, p.client.waiting_take_all⟩
  | succ fuel ih =>
      cases stepped : p.step with
      | none =>
          obtain ⟨noRelay, noGate⟩ := step_eq_none.mp stepped
          rw [run_of_rest stepped]
          exact ⟨r, feeding.read _, rfl, rfl, rfl, noRelay, noGate, p.client.waiting_take_all⟩
      | some q =>
          obtain ⟨r', next, sameStart, sameLog, sameClient, less⟩ := feeding.step stepped
          obtain ⟨r'', last, sameStart', sameLog', sameClient', rests⟩ := ih next (by omega)
          rw [run, stepped, Option.elim_some]
          exact ⟨r'', last, sameStart'.trans sameStart, sameLog'.trans sameLog,
            sameClient'.trans sameClient, rests⟩

/-- The load of a pipeline is enough for what is left to do. -/
theorem Feeding.effort_le_load (feeding : p.Feeding target size r emitters) :
    p.effort ≤ p.load := by
  have one := Option.length_toList_le (o := r.leaving)
  simp only [effort, load, feeding.relay, Option.elim_some, Relay.effort, Gate.effort, Gate.burden]
  split <;> split <;> omega

/-- A relay that has been started and is at rest has handed everything on if the client is
there. -/
theorem Feeding.idle_of_rest (feeding : p.Feeding target size r emitters) (room : 0 < size)
    (started : r.started = true) (there : p.client.isOpen = true) (read : p.client.waiting = [])
    (noRelay : p.stepRelay = none) (noGate : p.stepGate = none) :
    r.leaving = none ∧ r.inbox.Drained := by
  rcases feeding.stays there with running | ⟨-, ended⟩
  -- A relay waits for an event or for room, and a gate at rest has read its mailbox.
  · have gateOpen := (feeding.attended there).resolve_right (by simp [running])
    have ready := isReady_of_read (feeding.clientSize ▸ room) read
    have gateRuns : p.gate.running = true := feeding.gate.running ▸ gateOpen
    obtain ⟨-, nothing, -⟩ :=
      Gate.idle_of_step (Option.map_eq_none_iff.mp noGate) gateRuns ready
    have gateRead : p.gate.inbox.waiting = [] := by simpa [Mailbox.next?] using nothing
    have gateReady : p.gate.inbox.isReady = true := by
      have free := Mailbox.isFull_of_waiting (by rw [feeding.gateSize]; decide) gateRead
      simp [Mailbox.isReady, free]
    simp only [Pipeline.stepRelay, feeding.relay, Option.bind_some, Option.map_eq_none_iff]
      at noRelay
    obtain ⟨idle, empty⟩ := Relay.idle_of_step noRelay started running gateReady
    have isOpen : r.inbox.isOpen = true := feeding.stage.running ▸ running
    exact ⟨idle, Mailbox.next?_eq_none feeding.stage.sound isOpen empty⟩
  · exact ended

/-- Letting events flow is a history of reads and moves. -/
theorem exists_since_run (target : Option Nat) (p : Pipeline) (fuel : Nat) :
    ∃ history, p.run fuel = p.since target history := by
  induction fuel generalizing p with
  | zero => exact ⟨[.read p.client.waiting.length], rfl⟩
  | succ fuel ih =>
      cases stepped : p.step with
      | none =>
          rw [run_of_rest stepped]
          exact ⟨[.read p.client.waiting.length], rfl⟩
      | some q =>
          obtain ⟨history, same⟩ := ih q
          rw [run, stepped, Option.elim_some, same]
          rcases Option.or_eq_some_iff.mp stepped with moved | ⟨-, moved⟩
          · refine ⟨.read p.client.waiting.length :: .relay :: history, ?_⟩
            change q.since target history = (p.readClient.stepRelay.getD _).since target history
            rw [moved, Option.getD_some]
          · refine ⟨.read p.client.waiting.length :: .gate :: history, ?_⟩
            change q.since target history = (p.readClient.stepGate.getD _).since target history
            rw [moved, Option.getD_some]

/-! ### Main statement -/

def emitted (p : Pipeline) : List Outgoing := p.relay.elim [] (·.1.inbox.accepted)

def told (p : Pipeline) : List Outgoing := Gate.events p.gate.inbox.accepted

/-- The relay has been started, and its events get to a client. -/
def isActive (p : Pipeline) : Bool := p.relay.any (·.1.started) && p.client.isOpen

def isFed (p : Pipeline) : Bool := p.relay.any (·.2)

theorem Feeding.emitted_eq (feeding : p.Feeding target size r emitters) :
    p.emitted = r.inbox.accepted := by
  rw [emitted, feeding.relay, Option.elim_some]

theorem Feeding.isActive_iff (feeding : p.Feeding target size r emitters) :
    p.isActive = true ↔ r.started = true ∧ p.client.isOpen = true := by
  simp [isActive, feeding.relay]

theorem Feeding.isFed_eq (feeding : p.Feeding target size r emitters) : p.isFed = emitters := by
  simp [isFed, feeding.relay]

/-- An active relay hands everything on. -/
theorem Feeding.settle (feeding : p.Feeding target size r emitters) (room : 0 < size)
    (active : p.isActive = true) :
    ∃ r', p.settle.Feeding target size r' emitters ∧ p.settle.isActive = true ∧
      p.settle.emitted = p.emitted ∧ r'.leaving = none ∧ r'.inbox.Drained := by
  obtain ⟨started, there⟩ := feeding.isActive_iff.mp active
  obtain ⟨r', last, sameStart, sameLog, sameClient, noRelay, noGate, read⟩ :=
    feeding.run_rests feeding.effort_le_load
  have started' := sameStart.trans started
  have there' := sameClient.trans there
  refine ⟨r', last, last.isActive_iff.mpr ⟨started', there'⟩, ?_,
    last.idle_of_rest room started' there' read noRelay noGate⟩
  exact last.emitted_eq.trans (sameLog.trans feeding.emitted_eq.symm)

/-- An active relay that has handed everything on takes an event. -/
theorem Feeding.emit (feeding : p.Feeding target size r true) (active : p.isActive = true)
    (drained : r.inbox.Drained) (o : Outgoing) :
    (p.occur target (.emit o)).emitted = p.emitted ++ [o] ∧
      (p.occur target (.emit o)).isActive = true ∧ (p.occur target (.emit o)).isFed = true := by
  obtain ⟨started, there⟩ := feeding.isActive_iff.mp active
  have running := (feeding.stays there).resolve_right (by simp)
  have isOpen : r.inbox.isOpen = true := feeding.stage.running ▸ running
  have waiting : r.inbox.waiting = [] := by
    rw [Mailbox.waiting, if_pos isOpen, drained, List.drop_length]
  have free := Mailbox.isFull_of_waiting (by rw [feeding.relaySize]; decide) waiting
  have offered : r.inbox.offer o = .ok (r.inbox.put o) :=
    Mailbox.offer_eq_ok.mpr ⟨isOpen, free, rfl⟩
  simp only [Pipeline.occur, feeding.relay, offered]
  refine ⟨?_, ?_, rfl⟩
  · rw [feeding.emitted_eq]
    rfl
  · simp [isActive, started, there]

/-- Any events can be emitted into an active relay, one after the other. -/
theorem Feeding.emits (feeding : p.Feeding target size r true) (room : 0 < size)
    (active : p.isActive = true) (more : List Outgoing) :
    ∃ history, (p.since target history).emitted = p.emitted ++ more := by
  induction more generalizing p r with
  | nil => exact ⟨[], (List.append_nil _).symm⟩
  | cons o more ih =>
      obtain ⟨flowing, settled⟩ := exists_since_run target p p.load
      obtain ⟨r', rested, active', same, -, drained⟩ := feeding.settle room active
      obtain ⟨one, active'', fed⟩ := rested.emit active' drained o
      obtain ⟨r'', emitters, next⟩ := rested.occur (.emit o)
      rw [next.isFed_eq] at fed
      subst fed
      obtain ⟨later, all⟩ := ih next active''
      refine ⟨flowing ++ .emit o :: later, ?_⟩
      calc (p.since target (flowing ++ .emit o :: later)).emitted
          = ((p.since target flowing).since target (.emit o :: later)).emitted := by
            rw [since_append]
        _ = ((p.settle.occur target (.emit o)).since target later).emitted := by
            rw [← settled]
            rfl
        _ = p.emitted ++ o :: more := by
            rw [all, one, same, List.append_assoc, List.singleton_append]

/-- What the events emitted into a relay say about the gate. -/
structure Relays (target : Option Nat) (p : Pipeline) : Prop where
  /-- The events say what is due to the gate. -/
  due : ∃! due, Relay.Relayed target p.emitted due
  /-- At any time the gate has been sent a beginning of that, -/
  ordered : ∀ due, Relay.Relayed target p.emitted due → p.told <+: due
  /-- and it gets all of that from an active relay. -/
  whole : p.isActive = true → ∀ due, Relay.Relayed target p.emitted due → p.settle.told = due
  /-- Any further events can be emitted into such a relay. -/
  fed : p.isActive = true → p.isFed = true →
    ∀ more, ∃ history, (p.since target history).emitted = p.emitted ++ more

/-- **A relay merges readiness as specified.** Whatever is emitted, before the start of a relay and
after it, and however relay, gate and client take turns: without a registry the gate gets the same
events. With one it gets them without the signals of analysis workers, and in the place of the
signal that meets the target the merged event with all workers that have signalled by then. A
registry answers any sequence of signals in the same way. -/
theorem readiness_relayed (target : Option Nat) (capacity : Nat) {size : Nat} (room : 0 < size)
    (history : List Occurrence) :
    ((ofRelay capacity size).since target history).Relays target ∧
      ∀ n ws, Readiness.Joins n ws := by
  refine ⟨?_, Readiness.joins⟩
  obtain ⟨r, emitters, feeding⟩ := (feeding_ofRelay target capacity size).since history
  generalize (ofRelay capacity size).since target history = p at feeding
  have relayed := Relay.relayed_passed target p.emitted
  constructor
  case due => exact ⟨_, relayed, fun other relayed' => relayed'.unique relayed⟩
  case ordered =>
    intro due relayed'
    rw [relayed'.unique relayed, feeding.emitted_eq]
    exact feeding.stage.events_prefix
  case whole =>
    intro active due relayed'
    obtain ⟨r', last, active', same, idle, drained⟩ := feeding.settle room active
    rw [relayed'.unique relayed, ← same, last.emitted_eq]
    exact last.stage.events_eq (last.isActive_iff.mp active').1 idle drained
  case fed =>
    intro active fed more
    rw [feeding.isFed_eq] at fed
    subst fed
    exact feeding.emits room active more

/-- One worker signals twice, once before the start; the other one's second signal is told to
nobody, and the readiness of a worker that analyses nothing stays where it was. -/
theorem readiness_relayed_of_repeated_signals :
    let java : Outgoing := ⟨.worker .java, .ready .java⟩
    let docs : Outgoing := ⟨.worker .docs, .ready .docs⟩
    let primary : Outgoing := ⟨.worker .primary, .ready .primary⟩
    let merged : Outgoing := ⟨.worker .primary, .analysisReady [.primary, .java]⟩
    let history : List Occurrence := [.emit java, .emit docs, .start, .relay, .relay, .emit java,
      .emit primary, .emit docs, .emit primary]
    let p := (ofRelay 1 1).since (some 2) history
    0 < 1 ∧ p.Relays (some 2) ∧ Readiness.Joins 0 [.docs, .docs] ∧
      p.settle.told = [docs, merged, docs] := by
  intro java docs primary merged history p
  obtain ⟨relays, joins⟩ := readiness_relayed (some 2) 1 (by decide : 0 < 1) history
  have early : ¬ Readiness.Complete 2 (Relay.signals [java, docs, java]) := by decide
  have met : Readiness.Complete 2 (Relay.signals ([java, docs, java] ++ [primary])) := by decide
  have emitted : p.emitted = [java, docs, java] ++ primary :: [docs, primary] := by
    decide +kernel
  have relayed : Relay.Relayed (some 2) p.emitted [docs, merged, docs] := by
    rw [emitted]
    exact .complete early met
  exact ⟨by decide, relays, joins 0 _, relays.whole (by decide +kernel) _ relayed⟩

end Pipeline

end SessionBroker
