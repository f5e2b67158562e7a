import SessionBroker.Outbound.Gate
import SessionBroker.Proofs.Mailbox

/-!
What the gate lets through.

The messages that the gate has read say what it has let through: before the first activation
nothing, afterwards the first events, as many as it can hold, and every later event.
`Gate.stream` is that function; `Gate.Flow` ties it to the state of a gate, and every step of
the gate keeps it (`Gate.Flow.step`).
-/

namespace SessionBroker

namespace GateMessage

variable {α : Type}

def event? : GateMessage α → Option α
  | .event e => some e
  | .activate => none

end GateMessage

namespace Gate

variable {α : Type}

def events (log : List (GateMessage α)) : List α := log.filterMap GateMessage.event?

/-- The events ahead of the first activation. -/
def before : List (GateMessage α) → List α
  | .event e :: log => e :: before log
  | _ => []

def after : List (GateMessage α) → List α
  | [] => []
  | .event _ :: log => after log
  | .activate :: log => events log

def opened : List (GateMessage α) → Bool
  | [] => false
  | .event _ :: log => opened log
  | .activate :: _ => true

/-- What a gate lets through of some messages. -/
def stream (capacity : Nat) (log : List (GateMessage α)) : List α :=
  if opened log then (before log).take capacity ++ after log else []

/-! ### More messages -/

variable {log more : List (GateMessage α)}

/-- The gate is opened by an activation. -/
theorem opened_iff_mem : opened log = true ↔ .activate ∈ log := by
  induction log with
  | nil => simp [opened]
  | cons m log ih => cases m <;> simp [opened, ih]

theorem opened_append : opened (log ++ more) = (opened log || opened more) := by
  fun_induction opened log with
  | case1 => simp
  | case2 e log ih => simpa [opened] using ih
  | case3 log => simp [opened]

theorem opened_of_prefix (h : log <+: more) (isClosed : opened more = false) :
    opened log = false := by
  obtain ⟨rest, rfl⟩ := h
  rw [opened_append, Bool.or_eq_false_iff] at isClosed
  exact isClosed.1

/-- Once the gate is open nothing comes early any more. -/
theorem before_append_of_opened (isOpened : opened log = true) :
    before (log ++ more) = before log := by
  fun_induction opened log with
  | case1 => cases isOpened
  | case2 e log ih => simpa [before] using ih isOpened
  | case3 log => rfl

theorem before_append_of_closed (isClosed : opened log = false) :
    before (log ++ more) = before log ++ before more := by
  fun_induction opened log with
  | case1 => rfl
  | case2 e log ih => simpa [before] using ih isClosed
  | case3 log => cases isClosed

theorem after_append_of_opened (isOpened : opened log = true) :
    after (log ++ more) = after log ++ events more := by
  fun_induction opened log with
  | case1 => cases isOpened
  | case2 e log ih => simpa [after] using ih isOpened
  | case3 log => simp [after, events]

/-- What comes after the activation is what comes after it in the rest. -/
theorem after_append_of_closed (isClosed : opened log = false) :
    after (log ++ more) = after more := by
  fun_induction opened log with
  | case1 => rfl
  | case2 e log ih => simpa [after] using ih isClosed
  | case3 log => cases isClosed

theorem before_of_closed (isClosed : opened log = false) : before log = events log := by
  fun_induction opened log with
  | case1 => rfl
  | case2 e log ih =>
      rw [before, ih isClosed]
      rfl
  | case3 log => cases isClosed

theorem events_append : events (log ++ more) = events log ++ events more :=
  List.filterMap_append

theorem events_map (es : List α) : events (es.map .event) = es := by
  induction es with
  | nil => rfl
  | cons e es ih => exact congrArg (e :: ·) ih

theorem stream_of_closed (capacity : Nat) (isClosed : opened log = false) :
    stream capacity log = [] := by
  simp [stream, isClosed]

/-- After the activation every event is let through, and in order. -/
theorem stream_append_of_opened (capacity : Nat) (isOpened : opened log = true) :
    stream capacity (log ++ more) = stream capacity log ++ events more := by
  have stays : opened (log ++ more) = true := by rw [opened_append, isOpened, Bool.true_or]
  simp only [stream, isOpened, stays, if_true, before_append_of_opened isOpened,
    after_append_of_opened isOpened, List.append_assoc]

/-- What a gate lets through of some messages is a beginning of what it lets through of more. -/
theorem prefix_stream (capacity : Nat) (h : log <+: more) :
    stream capacity log <+: stream capacity more := by
  obtain ⟨rest, rfl⟩ := h
  cases isOpened : opened log with
  | true =>
      rw [stream_append_of_opened capacity isOpened]
      exact List.prefix_append _ _
  | false =>
      rw [stream_of_closed capacity isOpened]
      exact List.nil_prefix

/-- The first activation lets out what has been held back. -/
theorem stream_append_activate (capacity : Nat) (isClosed : opened log = false) :
    stream capacity (log ++ [.activate]) = (before log).take capacity := by
  have opens : opened (log ++ [.activate]) = true := by simp [opened_append, opened]
  simp only [stream, opens, if_true, before_append_of_closed isClosed,
    after_append_of_closed isClosed]
  simp [before, after, events]

/-- An activation divides the messages. -/
theorem eq_append_activate (isOpened : opened log = true) :
    ∃ rest, log = (before log).map .event ++ .activate :: rest ∧ events rest = after log := by
  fun_induction opened log with
  | case1 => cases isOpened
  | case2 e log ih =>
      obtain ⟨rest, split, tail⟩ := ih isOpened
      exact ⟨rest, congrArg (GateMessage.event e :: ·) split, tail⟩
  | case3 log => exact ⟨log, rfl, rfl⟩

theorem events_of_opened (isOpened : opened log = true) :
    events log = before log ++ after log := by
  obtain ⟨rest, split, tail⟩ := eq_append_activate isOpened
  calc events log = events ((before log).map .event ++ .activate :: rest) := by rw [← split]
    _ = before log ++ after log := by rw [events_append, events_map, ← tail]; rfl

/-! ### The state of a gate -/

/-- The gate has let `passed` through, and all of its state follows from what it has read. -/
structure Flow (g : Gate α) (passed : List α) : Prop where
  sound : g.inbox.Sound
  running : g.running = g.inbox.isOpen
  active : g.active = opened g.inbox.read
  held : g.held = if g.active then [] else (before g.inbox.read).take g.capacity
  passed : passed ++ g.leaving = stream g.capacity g.inbox.read

variable {g h : Gate α} {passed : List α} {client rest : Mailbox α}

theorem flow_new (capacity : Nat) : (new capacity : Gate α).Flow [] where
  sound := Nat.le_refl 0
  running := rfl
  active := rfl
  held := by simp [new, Mailbox.read, Mailbox.empty, before]
  passed := rfl

/-- Until it is activated a gate lets nothing through. -/
theorem Flow.passed_of_closed (flow : g.Flow passed) (isClosed : opened g.inbox.read = false) :
    passed = [] ∧ g.leaving = [] := by
  simpa [stream, isClosed] using flow.passed

/-- The gate has let through a beginning of what it lets through of all that it was sent, -/
theorem Flow.passed_prefix (flow : g.Flow passed) :
    passed <+: stream g.capacity g.inbox.accepted :=
  List.IsPrefix.trans ⟨g.leaving, flow.passed⟩ (prefix_stream _ g.inbox.read_prefix)

/-- and all of it once nothing is left to read or to deliver. -/
theorem Flow.passed_eq (flow : g.Flow passed) (idle : g.leaving = []) (drained : g.inbox.Drained) :
    passed = stream g.capacity g.inbox.accepted := by
  simpa [idle, drained.read_eq] using flow.passed

/-- A message that comes in changes nothing yet. -/
theorem Flow.offer (flow : g.Flow passed) {m : GateMessage α} {inbox : Mailbox (GateMessage α)}
    (offered : g.inbox.offer m = .ok inbox) : Flow { g with inbox } passed := by
  obtain ⟨-, -, rfl⟩ := Mailbox.offer_eq_ok.mp offered
  have read : (g.inbox.put m).read = g.inbox.read := flow.sound.read_put
  exact ⟨flow.sound.put, flow.running, by rw [read]; exact flow.active,
    by rw [read]; exact flow.held, by rw [read]; exact flow.passed⟩

/-- A gate that ends keeps what it has let through. -/
theorem Flow.stop (flow : g.Flow passed) : g.stop.Flow passed :=
  ⟨flow.sound, rfl, flow.active, flow.held, flow.passed⟩

/-- One more event is held back as long as there is room for it. -/
theorem take_append_singleton (capacity : Nat) (es : List α) (e : α) :
    (es ++ [e]).take capacity =
      if capacity ≤ (es.take capacity).length then es.take capacity
      else es.take capacity ++ [e] := by
  rw [List.length_take]
  split
  · rename_i full
    exact List.take_append_of_le_length (by omega)
  · rename_i room
    have short : es.length < capacity := by omega
    rw [List.take_of_length_le (by simp; omega), List.take_of_length_le (by omega)]

/-- A gate with nothing on its way out reads a message. -/
theorem Flow.receive (flow : g.Flow passed) (idle : g.leaving = []) {m : GateMessage α}
    {inbox : Mailbox (GateMessage α)} (taken : g.inbox.next? = some (m, inbox)) :
    (Gate.receive { g with inbox } m).Flow passed := by
  have read := Mailbox.read_next taken
  have sound := Mailbox.sound_next taken
  have running : g.running = inbox.isOpen := by
    rw [Mailbox.isOpen_next taken, flow.running]
  have sent : passed = stream g.capacity g.inbox.read := by
    simpa [idle] using flow.passed
  have active := flow.active
  have held := flow.held
  cases isOpened : opened g.inbox.read with
  | true =>
      rw [isOpened] at active
      have stays : opened inbox.read = true := by rw [read, opened_append, isOpened, Bool.true_or]
      rw [active] at held
      have flows (leaving : List α) (next : leaving = events [m]) :
          passed ++ leaving = stream g.capacity inbox.read := by
        rw [sent, read, stream_append_of_opened _ isOpened, next]
      cases m with
      | event e =>
          simp only [Gate.receive, active, if_true]
          exact ⟨sound, running, stays.symm, held, flows [e] rfl⟩
      | activate =>
          simp only [Gate.receive, active, if_true]
          exact ⟨sound, running, stays.symm, by simpa using held,
            by simpa [idle] using flows [] rfl⟩
  | false =>
      rw [isOpened] at active
      obtain ⟨rfl, -⟩ := flow.passed_of_closed isOpened
      simp only [active, Bool.false_eq_true, if_false] at held
      cases m with
      | event e =>
          have stays : opened inbox.read = false := by rw [read, opened_append, isOpened]; rfl
          have kept : before inbox.read = before g.inbox.read ++ [e] := by
            rw [read, before_append_of_closed isOpened]; rfl
          have gap := take_append_singleton g.capacity (before g.inbox.read) e
          rw [← kept, ← held] at gap
          have silent : [] ++ g.leaving = stream g.capacity inbox.read := by
            rw [idle, stream_of_closed _ stays]; rfl
          simp only [Gate.receive, active, Bool.false_eq_true, if_false]
          split
          · rename_i full
            rw [if_pos full] at gap
            exact ⟨sound, running, stays.symm, by simp [gap], silent⟩
          · rename_i room
            rw [if_neg room] at gap
            exact ⟨sound, running, stays.symm, by simp [gap], silent⟩
      | activate =>
          have opens : opened inbox.read = true := by rw [read, opened_append]; simp [opened]
          simp only [Gate.receive, active, Bool.false_eq_true, if_false]
          refine ⟨sound, running, opens.symm, rfl, ?_⟩
          simpa [read, stream_append_activate _ isOpened] using held

/-- What a move of the gate does. -/
inductive Moves (g : Gate α) (client : Mailbox α) (orphaned : Bool) : Gate α → Mailbox α → Prop
  | deliver {e : α} {others : List α} {rest : Mailbox α} :
      g.leaving = e :: others → client.offer e = .ok rest →
      Moves g client orphaned { g with leaving := others } rest
  /-- The client is gone. -/
  | abandon : g.leaving ≠ [] → client.isOpen = false → Moves g client orphaned g.stop client
  | receive {m : GateMessage α} {inbox : Mailbox (GateMessage α)} :
      g.leaving = [] → g.inbox.next? = some (m, inbox) →
      Moves g client orphaned (Gate.receive { g with inbox } m) client
  /-- Nothing more can come. -/
  | finish : g.leaving = [] → g.inbox.next? = none → orphaned = true →
      Moves g client orphaned g.stop client

/-- A step of a gate is one of its moves. -/
theorem moves_of_step {orphaned : Bool} (stepped : g.step client orphaned = some (h, rest)) :
    g.running = true ∧ Moves g client orphaned h rest := by
  unfold Gate.step at stepped
  split at stepped
  · cases stepped
  · rename_i running
    refine ⟨by simpa using running, ?_⟩
    split at stepped
    · rename_i e others leaving
      split at stepped
      · rename_i n offered
        cases stepped
        exact .deliver leaving offered
      · rename_i gone
        cases stepped
        exact .abandon (by simp [leaving]) (Mailbox.offer_eq_gone.mp gone)
      · cases stepped
    · rename_i idle
      split at stepped
      · rename_i m inbox taken
        cases stepped
        exact .receive idle taken
      · rename_i nothing
        split at stepped
        · rename_i alone
          cases stepped
          exact .finish idle nothing alone
        · cases stepped

/-- The gate keeps its flow at every step: what it hands to the client is what it has let
through in addition. -/
theorem Flow.step (flow : g.Flow passed) {orphaned : Bool}
    (stepped : g.step client orphaned = some (h, rest)) :
    ∃ new, h.Flow (passed ++ new) ∧ rest.accepted = client.accepted ++ new ∧
      (client.isOpen = false → new = []) := by
  cases (moves_of_step stepped).2 with
  | @deliver e others _ leaving offered =>
      obtain ⟨isOpen, -, rfl⟩ := Mailbox.offer_eq_ok.mp offered
      refine ⟨[e], ⟨flow.sound, flow.running, flow.active, flow.held, ?_⟩, rfl, by simp [isOpen]⟩
      rw [← flow.passed, leaving]
      simp
  | abandon _ _ => exact ⟨[], by simpa using flow.stop, by simp⟩
  | receive idle taken => exact ⟨[], by simpa using flow.receive idle taken, by simp⟩
  | finish _ _ _ => exact ⟨[], by simpa using flow.stop, by simp⟩

theorem receive_frame (g : Gate α) (m : GateMessage α) :
    (g.receive m).capacity = g.capacity ∧ (g.receive m).inbox = g.inbox ∧
      (g.receive m).running = g.running := by
  cases m with
  | event e =>
      unfold Gate.receive
      dsimp only
      split
      · exact ⟨rfl, rfl, rfl⟩
      · split <;> exact ⟨rfl, rfl, rfl⟩
  | activate =>
      unfold Gate.receive
      dsimp only
      split <;> exact ⟨rfl, rfl, rfl⟩

/-- A step changes nothing about who is there, and adds nothing to what the gate is sent. -/
theorem step_frame {orphaned : Bool} (stepped : g.step client orphaned = some (h, rest)) :
    h.capacity = g.capacity ∧ h.inbox.accepted = g.inbox.accepted ∧
      rest.isOpen = client.isOpen := by
  cases (moves_of_step stepped).2 with
  | deliver _ offered =>
      obtain ⟨-, -, rfl⟩ := Mailbox.offer_eq_ok.mp offered
      exact ⟨rfl, rfl, rfl⟩
  | @receive m inbox _ taken =>
      obtain ⟨capacity, same, -⟩ := receive_frame { g with inbox } m
      exact ⟨capacity, by rw [same]; exact Mailbox.accepted_next taken, rfl⟩
  | _ => exact ⟨rfl, rfl, rfl⟩

/-- A gate either hands an event to the client or leaves its mailbox alone. -/
theorem step_client {orphaned : Bool} (stepped : g.step client orphaned = some (h, rest)) :
    (∃ e, client.offer e = .ok rest) ∨ rest = client := by
  cases (moves_of_step stepped).2 with
  | deliver _ offered => exact .inl ⟨_, offered⟩
  | _ => exact .inr rfl

theorem step_sizes {orphaned : Bool} (stepped : g.step client orphaned = some (h, rest)) :
    h.inbox.capacity = g.inbox.capacity ∧ rest.capacity = client.capacity := by
  cases (moves_of_step stepped).2 with
  | deliver _ offered =>
      obtain ⟨-, -, rfl⟩ := Mailbox.offer_eq_ok.mp offered
      exact ⟨rfl, rfl⟩
  | @receive m inbox _ taken =>
      obtain ⟨-, same, -⟩ := receive_frame { g with inbox } m
      obtain ⟨-, -, rfl⟩ := Mailbox.next?_eq_some taken
      exact ⟨by rw [same], rfl⟩
  | _ => exact ⟨rfl, rfl⟩

/-- A gate whose client is there ends only when it has let everything through. -/
theorem step_stays (sound : g.inbox.Sound) (isOpen : g.inbox.isOpen = true)
    {orphaned : Bool} (there : client.isOpen = true)
    (stepped : g.step client orphaned = some (h, rest)) :
    h.inbox.isOpen = true ∨ (orphaned = true ∧ h.leaving = [] ∧ h.inbox.Drained) := by
  cases (moves_of_step stepped).2 with
  | deliver _ _ => exact .inl isOpen
  | abandon _ gone =>
      rw [gone] at there
      cases there
  | @receive m inbox _ taken =>
      obtain ⟨-, same, -⟩ := receive_frame { g with inbox } m
      rw [same]
      exact .inl ((Mailbox.isOpen_next taken).trans isOpen)
  | finish idle empty alone =>
      have drained : g.inbox.Drained := Mailbox.next?_eq_none sound isOpen empty
      exact .inr ⟨alone, idle, drained⟩

/-- A gate that has ended does not move. -/
theorem running_of_step {orphaned : Bool} (stepped : g.step client orphaned = some (h, rest)) :
    g.running = true :=
  (moves_of_step stepped).1

/-! ### What is left to do -/

/-- What is left to do for a gate. -/
def burden (g : Gate α) : Nat := 2 * g.inbox.waiting.length + g.held.length + g.leaving.length

/-- A message that is read adds at most one event to what is left to do. -/
theorem burden_receive (g : Gate α) (idle : g.leaving = []) (m : GateMessage α) :
    (g.receive m).burden ≤ g.burden + 1 := by
  cases m with
  | event e =>
      unfold Gate.receive
      dsimp only
      split
      · simp [burden, idle]
      · split
        · exact Nat.le_succ _
        · simp only [burden, List.length_append, List.length_singleton]
          omega
  | activate =>
      unfold Gate.receive
      dsimp only
      split
      · exact Nat.le_succ _
      · simp only [burden, idle, List.length_nil]
        omega

/-- A message that is read leaves less to do. -/
theorem burden_next {g : Gate α} (idle : g.leaving = []) {m : GateMessage α}
    {inbox : Mailbox (GateMessage α)} (taken : g.inbox.next? = some (m, inbox)) :
    (Gate.receive { g with inbox } m).burden < g.burden := by
  have less := burden_receive { g with inbox } idle m
  have waiting := Mailbox.waiting_next taken
  have two : ({ g with inbox } : Gate α).burden + 2 = g.burden := by
    simp only [burden, waiting, List.length_cons]
    omega
  omega

/-- A gate that has nothing to deliver reads its mailbox. -/
theorem step_of_idle {g : Gate α} (client : Mailbox α) (orphaned : Bool)
    (running : g.running = true) (idle : g.leaving = []) (waits : g.inbox.waiting ≠ []) :
    ∃ h, g.step client orphaned = some (h, client) ∧ h.burden < g.burden := by
  obtain ⟨m, inbox, taken⟩ := Mailbox.next?_of_waiting waits
  exact ⟨{ g with inbox }.receive m, by simp [Gate.step, running, idle, taken],
    burden_next idle taken⟩

/-- A gate that has something to do does it if its client has room. -/
theorem step_of_work {g : Gate α} {client : Mailbox α} (orphaned : Bool)
    (running : g.running = true) (there : client.isOpen = true) (room : client.isFull = false)
    (work : g.leaving ≠ [] ∨ g.inbox.waiting ≠ []) :
    ∃ h rest, g.step client orphaned = some (h, rest) ∧ h.burden < g.burden := by
  cases leaving : g.leaving with
  | nil =>
      have waits := work.resolve_left (fun some_ => some_ leaving)
      obtain ⟨h, stepped, less⟩ := step_of_idle client orphaned running leaving waits
      exact ⟨h, client, stepped, less⟩
  | cons e others =>
      have taken : client.offer e = .ok (client.put e) :=
        Mailbox.offer_eq_ok.mpr ⟨there, room, rfl⟩
      refine ⟨{ g with leaving := others }, client.put e, ?_, by simp [burden, leaving]⟩
      simp [Gate.step, running, leaving, taken]

/-- A gate that cannot move although its client is ready has nothing to do. -/
theorem idle_of_step {orphaned : Bool} (rests : g.step client orphaned = none)
    (running : g.running = true) (ready : client.isReady = true) :
    g.leaving = [] ∧ g.inbox.next? = none ∧ orphaned = false := by
  cases leaving : g.leaving with
  | cons e others =>
      have settled : client.offer e ≠ .error .full := by
        rw [ne_eq, Mailbox.offer_eq_full]
        rintro ⟨there, isFull⟩
        simp [Mailbox.isReady, there, isFull] at ready
      cases offered : client.offer e with
      | ok rest => simp [Gate.step, running, leaving, offered] at rests
      | error refusal =>
          cases refusal with
          | gone => simp [Gate.step, running, leaving, offered] at rests
          | full => exact absurd offered settled
  | nil =>
      cases taken : g.inbox.next? with
      | some next => simp [Gate.step, running, leaving, taken] at rests
      | none => simpa [Gate.step, running, leaving, taken] using rests

/-- What is left to do for a gate, its end included. -/
def effort (g : Gate α) : Nat := g.burden + if g.running then 1 else 0

theorem effort_stop (running : g.running = true) : g.stop.effort < g.effort := by
  have none_ : g.stop.inbox.waiting = [] := rfl
  simp only [effort, burden, none_, List.length_nil, running, if_true]
  simp only [stop, Bool.false_eq_true, if_false]
  omega

/-- Every move of the gate leaves less to do. -/
theorem effort_step {orphaned : Bool} (stepped : g.step client orphaned = some (h, rest)) :
    h.effort < g.effort := by
  obtain ⟨running, moves⟩ := moves_of_step stepped
  cases moves with
  | deliver leaving _ =>
      simp only [effort, burden, leaving, List.length_cons]
      omega
  | abandon _ _ => exact effort_stop running
  | @receive m inbox idle taken =>
      have less := burden_next idle taken
      have stays := (receive_frame { g with inbox } m).2.2
      simp only [effort, stays]
      omega
  | finish _ _ _ => exact effort_stop running

/-- A gate with messages to read gets on, also when its client is gone. -/
theorem step_of_waiting {g : Gate α} {client : Mailbox α} (orphaned : Bool)
    (running : g.running = true) (ready : client.isReady = true) (waits : g.inbox.waiting ≠ []) :
    ∃ h rest, g.step client orphaned = some (h, rest) ∧ h.burden < g.burden := by
  cases there : client.isOpen with
  | true =>
      have room : client.isFull = false := by simpa [Mailbox.isReady, there] using ready
      exact step_of_work orphaned running there room (.inr waits)
  | false =>
      cases leaving : g.leaving with
      | nil =>
          obtain ⟨h, stepped, less⟩ := step_of_idle client orphaned running leaving waits
          exact ⟨h, client, stepped, less⟩
      | cons e others =>
          refine ⟨g.stop, client, ?_, ?_⟩
          · simp [Gate.step, running, leaving, Mailbox.offer_eq_gone.mpr there]
          · have some_ := List.length_pos_iff.mpr waits
            have none_ : g.stop.inbox.waiting = [] := rfl
            simp only [burden, none_, List.length_nil]
            simp only [Gate.stop]
            omega

end Gate

end SessionBroker
