import SessionBroker.Outbound.Pipeline
import SessionBroker.Proofs.GateFlow

/-!
What a client gets from a gate.

Messages are sent to a gate, the gate moves, its client reads, and at some time the client or
everyone who could send goes, in any order. What the gate was sent says what the client gets:
nothing without an activation, otherwise the first events ahead of it, as many as the gate can
hold, and then every event behind it. Main statement: `gate_streams`.
-/

namespace SessionBroker

/-- What a gate was sent, divided by the first activation. -/
def Gate.Sent {α : Type} (g : Gate α) (early : List α) (late : List (GateMessage α)) : Prop :=
  g.inbox.accepted = early.map .event ++ .activate :: late

/-- A gate that has ended takes no message. -/
def Gate.Ended {α : Type} (g : Gate α) : Prop :=
  g.running = false ∧ ∀ m, g.inbox.offer m = .error .gone

theorem Gate.Flow.ended {α : Type} {g : Gate α} {passed : List α} (flow : g.Flow passed)
    (stopped : g.running = false) : g.Ended :=
  ⟨stopped, fun _ => Mailbox.offer_eq_gone.mpr (flow.running ▸ stopped)⟩

/-- Of early events as many are let through as there is room for, of late ones all. -/
theorem Gate.stream_of_activation {α : Type} (capacity : Nat) (early : List α)
    (late : List (GateMessage α)) :
    stream capacity (early.map .event ++ .activate :: late) =
      early.take capacity ++ events late := by
  have closed : opened (early.map GateMessage.event) = false := by
    rw [← Bool.not_eq_true, opened_iff_mem]
    simp
  have held : before (early.map GateMessage.event) = early := by
    rw [before_of_closed closed, events_map]
  simp [stream, opened_append, closed, opened, before_append_of_closed closed,
    after_append_of_closed closed, held, before, after]

namespace Pipeline

/-- A gate of this capacity, and its client with a mailbox of this size. -/
def ofGate (capacity size : Nat) : Pipeline :=
  { relay := none, gate := .new capacity, gateInUse := true, client := .empty size }

/-- What can happen to a gate and its client. -/
inductive Move where
  /-- A message is sent, if there is room for it. -/
  | send (message : GateMessage Outgoing)
  /-- The gate moves, if it can. -/
  | pass
  /-- The client reads. -/
  | read (count : Nat)
  /-- The client reads no more. -/
  | closeClient
  /-- Nobody can send any more. -/
  | dropHandles
  deriving Repr

def apply (p : Pipeline) : Move → Pipeline
  | .send m =>
    match p.gateInUse, p.gate.inbox.offer m with
    | true, .ok inbox => { p with gate := { p.gate with inbox } }
    | _, _ => p
  | .pass => p.stepGate.getD p
  | .read count => { p with client := (p.client.take count).2 }
  | .closeClient => { p with client := p.client.close }
  | .dropHandles => { p with gateInUse := false }

def after (p : Pipeline) (moves : List Move) : Pipeline := moves.foldl apply p

variable {p q : Pipeline} {capacity size : Nat} {m : Move} {moves : List Move}

/-- Without a relay the gate moves alone. -/
theorem stepGate_of_alone (alone : p.relay = none) :
    p.stepGate = (p.gate.step p.client !p.gateInUse).map fun (gate, client) =>
      { p with gate, client } := by
  simp [stepGate, relayRunning, alone]

/-- A move is one of the gate, a message that is taken, or it changes nothing about the gate. -/
inductive Applies (p : Pipeline) : Move → Pipeline → Prop
  | send {message : GateMessage Outgoing} {inbox : Mailbox (GateMessage Outgoing)} :
      p.gate.inbox.offer message = .ok inbox →
      Applies p (.send message) { p with gate := { p.gate with inbox } }
  | pass {gate : Gate Outgoing} {client : Mailbox Outgoing} :
      p.gate.step p.client (!p.gateInUse) = some (gate, client) →
      Applies p .pass { p with gate, client }
  | read (count : Nat) : Applies p (.read count) { p with client := (p.client.take count).2 }
  | closeClient : Applies p .closeClient { p with client := p.client.close }
  | dropHandles : Applies p .dropHandles { p with gateInUse := false }
  | refused (message : GateMessage Outgoing) : Applies p (.send message) p
  | rests : p.gate.step p.client (!p.gateInUse) = none → Applies p .pass p

/-- Every move does one of four things to the gate and its client. -/
theorem applies_apply (alone : p.relay = none) (m : Move) : Applies p m (p.apply m) := by
  cases m with
  | send message =>
      unfold apply
      dsimp only
      split
      · rename_i offered
        exact .send offered
      · exact .refused message
  | pass =>
      cases stepped : p.gate.step p.client (!p.gateInUse) with
      | none =>
          have same : p.apply .pass = p := by
            simp [apply, stepGate_of_alone alone, stepped]
          rw [same]
          exact .rests stepped
      | some next =>
          obtain ⟨gate, client⟩ := next
          have moved : p.apply .pass = { p with gate, client } := by
            simp [apply, stepGate_of_alone alone, stepped]
          rw [moved]
          exact .pass stepped
  | read count => exact .read count
  | closeClient => exact .closeClient
  | dropHandles => exact .dropHandles

/-! ### What every move keeps -/

/-- What the client was given is what the gate has let through, and the gate leaves a client that
reads only when nobody can send any more and everything has been let through. -/
structure Streaming (capacity size : Nat) (p : Pipeline) : Prop where
  alone : p.relay = none
  capacity : p.gate.capacity = capacity
  size : p.client.capacity = size
  flow : p.gate.Flow p.client.accepted
  client : p.client.Sound
  attended : p.client.isOpen = true → p.gate.inbox.isOpen = true ∨
    (p.gateInUse = false ∧ p.gate.leaving = [] ∧ p.gate.inbox.Drained)

theorem streaming_ofGate (capacity size : Nat) : (ofGate capacity size).Streaming capacity size where
  alone := rfl
  capacity := rfl
  size := rfl
  flow := Gate.flow_new capacity
  client := Nat.le_refl 0
  attended _ := .inl rfl

/-- Every move keeps the client in step with the gate. -/
theorem Streaming.apply (streaming : p.Streaming capacity size) (m : Move) :
    (p.apply m).Streaming capacity size := by
  obtain ⟨alone, sameCapacity, sameSize, flow, sound, attended⟩ := streaming
  generalize next : p.apply m = q
  have applies := next ▸ applies_apply alone m
  cases applies with
  | send offered =>
      obtain ⟨isOpen, -, rfl⟩ := Mailbox.offer_eq_ok.mp offered
      exact ⟨alone, sameCapacity, sameSize, flow.offer offered, sound, fun _ => .inl isOpen⟩
  | @pass gate client stepped =>
      obtain ⟨new, flow', given, -⟩ := flow.step stepped
      obtain ⟨keptCapacity, -, keptOpen⟩ := Gate.step_frame stepped
      have keptSize := (Gate.step_sizes stepped).2
      have sound' : client.Sound := by
        rcases Gate.step_client stepped with ⟨e, offered⟩ | rfl
        · obtain ⟨-, -, rfl⟩ := Mailbox.offer_eq_ok.mp offered
          exact sound.put
        · exact sound
      have isOpen : p.gate.inbox.isOpen = true := by
        rw [← flow.running]
        exact Gate.running_of_step stepped
      refine ⟨alone, keptCapacity.trans sameCapacity, keptSize.trans sameSize, ?_, sound',
        fun there => ?_⟩
      · rw [given]
        exact flow'
      · rw [keptOpen] at there
        simpa using Gate.step_stays flow.sound isOpen there stepped
  | read count => exact ⟨alone, sameCapacity, sameSize, flow, sound.take count, attended⟩
  | closeClient => exact ⟨alone, sameCapacity, sameSize, flow, sound, fun there => nomatch there⟩
  | dropHandles =>
      exact ⟨alone, sameCapacity, sameSize, flow, sound,
        fun there => (attended there).imp_right fun ended => ⟨rfl, ended.2⟩⟩
  | refused | rests => exact ⟨alone, sameCapacity, sameSize, flow, sound, attended⟩

theorem Streaming.after (streaming : p.Streaming capacity size) (moves : List Move) :
    (p.after moves).Streaming capacity size := by
  induction moves generalizing p with
  | nil => exact streaming
  | cons m moves ih => exact ih (streaming.apply m)

/-! ### After the end -/

/-- A client that is gone is given nothing more. -/
theorem Streaming.client_apply (streaming : p.Streaming capacity size)
    (gone : p.client.isOpen = false) (m : Move) : (p.apply m).client = p.client := by
  generalize next : p.apply m = q
  have applies := next ▸ applies_apply streaming.alone m
  cases applies with
  | pass stepped =>
      rcases Gate.step_client stepped with ⟨e, offered⟩ | same
      · rw [(Mailbox.offer_eq_ok.mp offered).1] at gone
        cases gone
      · exact same
  | read count => exact Mailbox.take_of_closed gone count
  | closeClient =>
      rw [Mailbox.close, ← gone]
  | _ => rfl

/-- A client that has gone gets nothing any more. -/
theorem Streaming.client_after (streaming : p.Streaming capacity size)
    (gone : p.client.isOpen = false) (moves : List Move) : (p.after moves).client = p.client := by
  induction moves generalizing p with
  | nil => rfl
  | cons m moves ih =>
      have same := streaming.client_apply gone m
      exact (ih (streaming.apply m) (same ▸ gone)).trans same

/-- Nothing happens any more to a gate that has ended. -/
theorem Streaming.gate_apply (streaming : p.Streaming capacity size)
    (ended : p.gate.running = false) (m : Move) : (p.apply m).gate = p.gate := by
  generalize next : p.apply m = q
  have applies := next ▸ applies_apply streaming.alone m
  cases applies with
  | send offered =>
      have isOpen := (Mailbox.offer_eq_ok.mp offered).1
      rw [← streaming.flow.running, ended] at isOpen
      cases isOpen
  | pass stepped =>
      rw [Gate.running_of_step stepped] at ended
      cases ended
  | _ => rfl

/-- A gate that has ended stays as it is. -/
theorem Streaming.gate_after (streaming : p.Streaming capacity size)
    (ended : p.gate.running = false) (moves : List Move) : (p.after moves).gate = p.gate := by
  induction moves generalizing p with
  | nil => rfl
  | cons m moves ih =>
      have same := streaming.gate_apply ended m
      exact (ih (streaming.apply m) (same ▸ ended)).trans same

/-- A gate with an event for a client that is gone ends with its own next move. -/
theorem Streaming.ends_apply (streaming : p.Streaming capacity size)
    (gone : p.client.isOpen = false) (work : p.gate.leaving ≠ []) (m : Move) :
    (p.apply m).gate.running = false ∨ ((p.apply m).gate.leaving ≠ [] ∧ m ≠ .pass) := by
  generalize next : p.apply m = q
  have applies := next ▸ applies_apply streaming.alone m
  cases applies with
  | pass stepped =>
      left
      cases (Gate.moves_of_step stepped).2 with
      | deliver _ offered =>
          rw [(Mailbox.offer_eq_ok.mp offered).1] at gone
          cases gone
      | abandon _ _ => rfl
      | receive idle _ => exact absurd idle work
      | finish idle _ _ => exact absurd idle work
  | rests rests =>
      left
      cases running : p.gate.running with
      | false => rfl
      | true =>
          have ready : p.client.isReady = true := by simp [Mailbox.isReady, gone]
          exact absurd (Gate.idle_of_step rests running ready).1 work
  | _ => exact .inr ⟨work, by simp⟩

/-- A gate that has something for a client that has gone ends with its next move. -/
theorem Streaming.ends_after (streaming : p.Streaming capacity size)
    (gone : p.client.isOpen = false) (work : p.gate.leaving ≠ []) (mem : Move.pass ∈ moves) :
    (p.after moves).gate.running = false := by
  induction moves generalizing p with
  | nil => cases mem
  | cons m moves ih =>
      have next := streaming.apply m
      rcases streaming.ends_apply gone work m with ended | ⟨work, other⟩
      · exact (next.gate_after ended moves).symm ▸ ended
      · exact ih next (streaming.client_apply gone m ▸ gone) work
          ((List.mem_cons.mp mem).resolve_left other.symm)

/-! ### At rest -/

/-- The moves of the gate and of a client that reads. -/
def Move.isOwn : Move → Bool
  | .pass | .read _ => true
  | _ => false

/-- Such moves send nothing, and nobody goes. -/
theorem own_apply (alone : p.relay = none) (own : m.isOwn = true) :
    (p.apply m).gate.inbox.accepted = p.gate.inbox.accepted ∧
      (p.apply m).client.isOpen = p.client.isOpen := by
  generalize next : p.apply m = q
  have applies := next ▸ applies_apply alone m
  cases applies with
  | pass stepped => exact (Gate.step_frame stepped).2
  | read count => exact ⟨rfl, rfl⟩
  | rests => exact ⟨rfl, rfl⟩
  | _ => cases own

/-- The moves of gate and client by themselves send the gate nothing. -/
theorem Streaming.own_after (streaming : p.Streaming capacity size)
    (own : ∀ m ∈ moves, m.isOwn = true) :
    (p.after moves).gate.inbox.accepted = p.gate.inbox.accepted ∧
      (p.after moves).client.isOpen = p.client.isOpen := by
  induction moves generalizing p with
  | nil => exact ⟨rfl, rfl⟩
  | cons m moves ih =>
      obtain ⟨sent, there⟩ := own_apply streaming.alone (own m (.head _))
      obtain ⟨sent', there'⟩ := ih (streaming.apply m) fun b mem => own b (.tail _ mem)
      exact ⟨sent'.trans sent, there'.trans there⟩

/-- A gate that cannot move has let everything through, unless it has ended without its client. -/
theorem Streaming.passed_of_rest (streaming : p.Streaming capacity size)
    (rests : p.stepGate = none) (ready : p.client.isReady = true)
    (stays : p.gate.running = true ∨ p.client.isOpen = true) :
    p.client.accepted = Gate.stream capacity p.gate.inbox.accepted := by
  suffices drained : p.gate.leaving = [] ∧ p.gate.inbox.Drained by
    rw [← streaming.capacity]
    exact streaming.flow.passed_eq drained.1 drained.2
  cases running : p.gate.running with
  | true =>
      have isOpen : p.gate.inbox.isOpen = true := streaming.flow.running ▸ running
      rw [stepGate_of_alone streaming.alone, Option.map_eq_none_iff] at rests
      obtain ⟨idle, nothing, -⟩ := Gate.idle_of_step rests running ready
      exact ⟨idle, Mailbox.next?_eq_none streaming.flow.sound isOpen nothing⟩
  | false =>
      have there := stays.resolve_left (by simp [running])
      rcases streaming.attended there with isOpen | ⟨-, drained⟩
      · rw [← streaming.flow.running, running] at isOpen
        cases isOpen
      · exact drained

theorem isReady_of_read (room : 0 < p.client.capacity) (read : p.client.waiting = []) :
    p.client.isReady = true := by
  simp [Mailbox.isReady, Mailbox.isFull_of_waiting room read]

theorem run_succ (alone : p.relay = none) (fuel : Nat) :
    p.run (fuel + 1) = p.readClient.stepGate.elim p.readClient (·.run fuel) := by
  have only : p.step = p.readClient.stepGate := by
    simp [step, stepRelay, readClient, alone]
  rw [run, only]

/-- A step of the gate leaves it less to do. -/
theorem effort_stepGate (alone : p.relay = none) (stepped : p.stepGate = some q) :
    q.gate.effort < p.gate.effort := by
  rw [stepGate_of_alone alone] at stepped
  obtain ⟨⟨gate, client⟩, moved, rfl⟩ := Option.map_eq_some_iff.mp stepped
  exact Gate.effort_step moved

/-- Settling is a sequence of such moves, after which the gate cannot move and the client has
read everything. -/
theorem Streaming.run_rests (streaming : p.Streaming capacity size) {fuel : Nat}
    (enough : p.gate.effort ≤ fuel) :
    ∃ moves, (∀ m ∈ moves, m.isOwn = true) ∧ p.run fuel = p.after moves ∧
      (p.run fuel).stepGate = none ∧ (p.run fuel).client.waiting = [] := by
  induction fuel generalizing p with
  | zero =>
      refine ⟨[.read p.client.waiting.length], by simp [Move.isOwn], rfl, ?_,
        p.client.waiting_take_all⟩
      cases stepped : p.readClient.stepGate with
      | none => exact stepped
      | some q =>
          have less : q.gate.effort < p.gate.effort :=
            effort_stepGate (p := p.readClient) streaming.alone stepped
          omega
  | succ fuel ih =>
      have read := streaming.apply (.read p.client.waiting.length)
      rw [run_succ streaming.alone]
      cases stepped : p.readClient.stepGate with
      | none =>
          exact ⟨[.read p.client.waiting.length], by simp [Move.isOwn], rfl, stepped,
            p.client.waiting_take_all⟩
      | some q =>
          have less : q.gate.effort < p.gate.effort :=
            effort_stepGate (p := p.readClient) streaming.alone stepped
          have moved : p.readClient.apply .pass = q := by
            change p.readClient.stepGate.getD _ = q
            rw [stepped, Option.getD_some]
          have next : q.Streaming capacity size := moved ▸ read.apply .pass
          obtain ⟨moves, own, same, rests⟩ := ih next (by omega)
          refine ⟨.read p.client.waiting.length :: .pass :: moves, ?_, ?_, rests⟩
          · simpa [Move.isOwn] using own
          · exact same.trans (congrArg (·.after moves) moved.symm)

/-- What comes to rest does so by moves of gate and client alone. -/
theorem Streaming.settle_rests (streaming : p.Streaming capacity size) :
    ∃ moves, (∀ m ∈ moves, m.isOwn = true) ∧ p.settle = p.after moves ∧
      p.settle.stepGate = none ∧ p.settle.client.waiting = [] := by
  apply streaming.run_rests
  simp only [Gate.effort, Gate.burden, load, streaming.alone, Option.elim_none]
  split <;> omega

/-! ### Main statement -/

/-- What the messages that a gate was sent say about its client. -/
structure Streams (capacity : Nat) (p : Pipeline) : Prop where
  /-- As long as the gate has not read an activation the client has been given nothing. -/
  silent : .activate ∉ p.gate.inbox.read → p.client.accepted = []
  /-- At any time the client has been given a beginning of the events that the gate can hold from
  those ahead of the first activation and of all events behind it, in this order. -/
  ordered : ∀ early late, p.gate.Sent early late →
    p.client.accepted <+: early.take capacity ++ Gate.events late
  /-- It has received a beginning of what it was given. -/
  received : p.client.read <+: p.client.accepted
  /-- A client that is there and has read everything has received all of that once the gate
  cannot move; -/
  complete : p.client.isOpen = true → p.client.waiting = [] → p.stepGate = none →
    ∀ early late, p.gate.Sent early late → p.client.read = early.take capacity ++ Gate.events late
  /-- and if it goes on reading it gets there. -/
  whole : p.client.isOpen = true → ∀ early late, p.gate.Sent early late →
    p.settle.client.read = early.take capacity ++ Gate.events late
  /-- The gate leaves a client that is there only when nobody can send, and then everything that
  an activated gate was sent has been passed on. -/
  ended : p.client.isOpen = true → p.gate.running = false → p.gateInUse = false ∧
    ∀ early late, p.gate.Sent early late →
      p.client.accepted = early.take capacity ++ Gate.events late
  /-- A client that is gone receives nothing more. -/
  gone : p.client.isOpen = false → ∀ more, (p.after more).client = p.client
  /-- Without its client a gate with an event to deliver ends with its own next move; -/
  stops : p.client.isOpen = false → p.gate.leaving ≠ [] → ∀ more, .pass ∈ more →
    (p.after more).gate.Ended
  /-- and it gets to such an event if the client has not been given all. -/
  due : p.client.isOpen = false → ∀ early late, p.gate.Sent early late →
    p.client.accepted ≠ early.take capacity ++ Gate.events late → p.settle.gate.Ended
  /-- A gate that has ended stays so. -/
  lasting : p.gate.running = false → ∀ more, (p.after more).gate.Ended

/-- What is at rest with the client there is complete. -/
theorem Streaming.read_of_rest (streaming : p.Streaming capacity size) (room : 0 < size)
    (there : p.client.isOpen = true) (read : p.client.waiting = []) (rests : p.stepGate = none) :
    p.client.read = Gate.stream capacity p.gate.inbox.accepted := by
  have ready := isReady_of_read (streaming.size ▸ room) read
  rw [(streaming.client.drained_of_waiting there read).read_eq]
  exact streaming.passed_of_rest rests ready (.inr there)

/-- **The client of a gate gets exactly the specified stream.** Whatever is sent, in any
interleaving with the gate, the client and the loss of the handles: nothing before the activation
is read, then the events that the gate could hold ahead of it and all events behind it. A client
that leaves has received a beginning of that, and the gate ends when it next tries to deliver. -/
theorem gate_streams (capacity : Nat) {size : Nat} (room : 0 < size) (moves : List Move) :
    ((ofGate capacity size).after moves).Streams capacity := by
  have streaming := (streaming_ofGate capacity size).after moves
  generalize (ofGate capacity size).after moves = p at streaming
  have stream {early : List Outgoing} {late : List (GateMessage Outgoing)}
      (sent : p.gate.Sent early late) : Gate.stream capacity p.gate.inbox.accepted =
        early.take capacity ++ Gate.events late :=
    sent ▸ Gate.stream_of_activation capacity early late
  obtain ⟨more, own, settled, rests, read⟩ := streaming.settle_rests
  have atRest : p.settle.Streaming capacity size := settled ▸ streaming.after more
  obtain ⟨sent, there⟩ : p.settle.gate.inbox.accepted = p.gate.inbox.accepted ∧
      p.settle.client.isOpen = p.client.isOpen := settled ▸ streaming.own_after own
  constructor
  case silent =>
    intro unread
    refine (streaming.flow.passed_of_closed ?_).1
    rwa [← Bool.not_eq_true, Gate.opened_iff_mem]
  case ordered =>
    intro early late divided
    rw [← stream divided, ← streaming.capacity]
    exact streaming.flow.passed_prefix
  case received => exact p.client.read_prefix
  case complete =>
    intro there read rests early late divided
    rw [streaming.read_of_rest room there read rests, stream divided]
  case whole =>
    intro isOpen early late divided
    rw [atRest.read_of_rest room (there.trans isOpen) read rests, sent, stream divided]
  case ended =>
    intro isOpen ended
    rcases streaming.attended isOpen with gate | ⟨unused, idle, drained⟩
    · rw [← streaming.flow.running, ended] at gate
      cases gate
    · refine ⟨unused, fun early late divided => ?_⟩
      rw [← stream divided, ← streaming.capacity]
      exact streaming.flow.passed_eq idle drained
  case gone => exact fun gone more => streaming.client_after gone more
  case stops =>
    intro gone work more mem
    exact (streaming.after more).flow.ended (streaming.ends_after gone work mem)
  case due =>
    intro gone early late divided missing
    have same : p.settle.client = p.client := settled ▸ streaming.client_after gone more
    have ready : p.settle.client.isReady = true := by simp [Mailbox.isReady, same, gone]
    cases running : p.settle.gate.running with
    | false => exact atRest.flow.ended running
    | true =>
        have all := atRest.passed_of_rest rests ready (.inl running)
        rw [same, sent, stream divided] at all
        exact absurd all missing
  case lasting =>
    intro stopped more
    rw [streaming.gate_after stopped]
    exact streaming.flow.ended stopped

/-- The second of two events that are held back has no room, and one more activation changes
nothing; the handles go while an event is still on its way. -/
theorem gate_streams_of_dropped_handles :
    let first : Outgoing := ⟨.worker .docs, .ready .docs⟩
    let second : Outgoing := ⟨.worker .indexer, .ready .indexer⟩
    let last : Outgoing := .ofBroker (.notification "x" .null)
    let moves : List Move := [.send (.event first), .send (.event second), .pass, .pass,
      .send .activate, .pass, .send .activate, .send (.event last), .dropHandles]
    let p := (ofGate 1 1).after moves
    0 < 1 ∧ p.Streams 1 ∧ p.gateInUse = false ∧ p.settle.client.read = [first, last] := by
  intro first second last moves p
  have streams : p.Streams 1 := gate_streams 1 (by decide) moves
  have sent : p.gate.Sent [first, second] [.activate, .event last] := by
    unfold Gate.Sent
    decide +kernel
  exact ⟨by decide, streams, by decide +kernel, streams.whole (by decide +kernel) _ _ sent⟩

end Pipeline

end SessionBroker
