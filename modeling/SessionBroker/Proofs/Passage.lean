import SessionBroker.Proofs.Drain
import SessionBroker.Proofs.EventFlow

/-!
Everything on its way gets to the client.

While the client reads, a relay or the gate can move as long as there is anything to pass on,
and each of their moves makes the freight smaller. Main statement: `Fresh.passage`, from
everything that can be reached, moves of the relays, the gate and the client alone lead to a
session with nothing on its way, whoever else is still there.
-/

namespace SessionBroker

/-- Whether a move is one by which relays, gate and client go on by themselves. -/
def Move.isPassage : Move → Bool
  | .step .support | .step .analysis | .step .gate | .readClient _ => true
  | _ => false

namespace Relay

variable {r r' : Relay} {gate gate' : Mailbox (GateMessage Outgoing)} {orphaned : Bool}

def isIdle (r : Relay) : Bool := r.inbox.waiting.isEmpty && r.leaving.isNone

/-- What is left to do for a relay. -/
def freight (r : Relay) : Nat := 4 * r.inbox.waiting.length + 3 * r.leaving.toList.length

/-- A relay that has something to pass on does so if the gate has room. -/
theorem step_of_busy (orphaned : Bool) (started : r.started = true) (running : r.running = true)
    (isOpen : gate.isOpen = true) (room : gate.isFull = false) (busy : r.isIdle = false) :
    ∃ r' gate', r.step gate orphaned = some (r', gate') ∧
      r'.freight + 2 * gate'.waiting.length < r.freight + 2 * gate.waiting.length := by
  unfold step
  rw [if_neg (by simp [started, running])]
  cases leaving : r.leaving with
  | some o =>
      dsimp only
      rw [Mailbox.offer_eq_ok.mpr ⟨isOpen, room, rfl⟩]
      refine ⟨_, _, rfl, ?_⟩
      have more : (gate.put (.event o)).waiting.length ≤ gate.waiting.length + 1 :=
        Mailbox.length_waiting_put
      simp only [freight, leaving, Option.toList_none, Option.toList_some, List.length_nil,
        List.length_singleton]
      omega
  | none =>
      have waits : r.inbox.waiting ≠ [] := by
        simpa [isIdle, leaving] using busy
      obtain ⟨o, inbox, taken⟩ := Mailbox.next?_of_waiting waits
      dsimp only
      rw [taken]
      refine ⟨_, _, rfl, ?_⟩
      have one : (pass r.registry o).1.toList.length ≤ 1 := by
        cases (pass r.registry o).1 <;> simp
      rw [receive_eq]
      simp only [freight, leaving, Mailbox.waiting_next taken, List.length_cons,
        Option.toList_none, List.length_nil]
      omega

end Relay

namespace Session

variable {allowed : Move → Prop} {c : Config} {s t : Session} {out : List Event}

/-- Whether nothing is on its way to the client. -/
def isDrained (s : Session) : Bool :=
  s.support.isIdle && s.analysis.all (·.isIdle) && s.gate.inbox.waiting.isEmpty
    && s.gate.leaving.isEmpty

/-- What is left to do for relays and gate. -/
def freight (s : Session) : Nat :=
  s.support.freight + s.analysis.elim 0 (·.freight) + s.gate.burden

/-- A relay or the gate has something to do for the client. -/
def CanPass (s : Session) : Prop :=
  ∃ task t, (Move.step task).isPassage = true ∧ s.step task = some t ∧ t.freight < s.freight ∧
    t.client.isOpen = s.client.isOpen

/-- A step of a relay is a move of the session. -/
theorem canPass_of_relay {way : Bool} {r r' : Relay} {inbox : Mailbox (GateMessage Outgoing)}
    (found : s.relay? way = some r)
    (stepped : r.step s.gate.inbox (!s.hasEmitter way) = some (r', inbox))
    (less : r'.freight + 2 * inbox.waiting.length < r.freight + 2 * s.gate.inbox.waiting.length) :
    s.CanPass := by
  cases way with
  | false =>
      cases found
      refine ⟨.support, { s with support := r', gate := { s.gate with inbox } }, rfl, ?_, ?_, rfl⟩
      · simp [step, stepSupport, stepped]
      · simp only [freight, Gate.burden]
        omega
  | true =>
      have found : s.analysis = some r := found
      refine ⟨.analysis, { s with analysis := some r', gate := { s.gate with inbox } }, rfl, ?_, ?_,
        rfl⟩
      · simp [step, stepAnalysis, found, stepped]
      · simp only [freight, Gate.burden, found, Option.elim_some]
        omega

/-- Once the client has read everything, a relay or the gate can move as long as anything is
left for them. -/
theorem Fresh.canPass (fresh : s.Fresh c) (room : 0 < s.client.capacity)
    (h : Reaches allowed s out t) (there : t.client.isOpen = true)
    (read : t.client.waiting = []) : t.isDrained = true ∨ t.CanPass := by
  have told := fresh.told_of_reaches h
  have grown := fresh.orderly.grown h
  have attending := fresh.attending_of_reaches h
  have flowing := fresh.flowing_of_reaches h
  have empty : t.client.isFull = false :=
    Mailbox.isFull_of_waiting (by rw [grown.clientSize]; exact room) read
  by_cases work : t.gate.leaving ≠ [] ∨ t.gate.inbox.waiting ≠ []
  · right
    have isOpen : t.gate.inbox.isOpen = true := by
      rcases (fresh.output_of_reaches h).attended there with isOpen | ⟨-, idle, drained⟩
      · exact isOpen
      · rcases work with leaving | waiting
        · exact absurd idle leaving
        · simp [Mailbox.waiting, show t.gate.inbox.taken = _ from drained] at waiting
    obtain ⟨g, client, stepped, less⟩ := Gate.step_of_work (!t.gateInUse)
      (told.flow.running.trans isOpen) there empty work
    refine ⟨.gate, { t with gate := g, client }, rfl, ?_, ?_, (Gate.step_frame stepped).2.2⟩
    · simp [step, stepGate, stepped]
    · exact Nat.add_lt_add_left less _
  · simp only [ne_eq, not_or, Decidable.not_not] at work
    obtain ⟨leaving, waiting⟩ := work
    -- With nothing left for the gate there is room for what the relays have.
    have size : 0 < t.gate.inbox.capacity := by
      rw [grown.gateSize, fresh.gate]
      exact (by decide : 0 < Gate.mailboxSize)
    have gateRoom := Mailbox.isFull_of_waiting size waiting
    have relay (way : Bool) (r : Relay) (found : t.relay? way = some r) :
        r.isIdle = true ∨ t.CanPass := by
      have flow := flowing way r found
      cases busy : r.isIdle with
      | true => exact .inl rfl
      | false =>
          right
          rcases attending.relay there way r found with running | ⟨drained, idle⟩
          · obtain ⟨r', inbox, stepped, less⟩ := Relay.step_of_busy (!t.hasEmitter way)
              flow.started running (attending.isOpen there found running) gateRoom busy
            exact canPass_of_relay found stepped less
          · have nothing : r.inbox.waiting = [] := by
              rw [Mailbox.waiting, drained, List.drop_length, ite_self]
            simp [Relay.isIdle, nothing, idle] at busy
    rcases relay false t.support rfl with support | work
    · cases found : t.analysis with
      | none => exact .inl (by simp [isDrained, support, found, waiting, leaving])
      | some r =>
          rcases relay true r found with analysis | work
          · exact .inl (by simp [isDrained, support, found, analysis, waiting, leaving])
          · exact .inr work
    · exact .inr work

/-- Everything that is on its way gets to the client. -/
theorem Fresh.passage (fresh : s.Fresh c) (room : 0 < s.client.capacity)
    (reads : ∀ count, allowed (.readClient count)) (h : Reaches allowed s out t)
    (there : t.client.isOpen = true) :
    ∃ moves, (∀ m ∈ moves, m.isPassage = true) ∧ (t.run moves).isDrained = true ∧
      (t.run moves).client.isOpen = true := by
  obtain ⟨moves, turns, drained, open_⟩ := exists_turns
    (fun _ task => (Move.step task).isPassage = true) freight
    (fun h there read => (fresh.canPass room h there read).imp id
      fun ⟨task, u, passes, stepped, less, client⟩ =>
        ⟨task, u, passes, stepped, less, client.trans there⟩)
    reads id (fun _ => rfl) h there
  exact ⟨moves, turns.forall_mem (fun _ => rfl) id, drained, open_⟩

end Session

end SessionBroker
