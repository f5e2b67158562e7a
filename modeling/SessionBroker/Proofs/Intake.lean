import SessionBroker.Proofs.Agenda
import SessionBroker.Proofs.RelayFlow

/-!
What comes into a session from outside.

The client sends requests and workers emit events; a message that is refused has not come in.
`Session.submissions` and `Session.emissions` are what came in during some moves. Main
statement: `fed_run`, the mailboxes of the broker and of the relays have accepted just that,
in order.
-/

namespace SessionBroker

namespace Move

def request? : Move → Option Request
  | .send m => m.request?
  | _ => none

def emission? : Move → Option Outgoing
  | .emit w e => some ⟨.worker w, e⟩
  | _ => none

end Move

namespace Session

/-- Whether a message of the client or an event of a worker is accepted. -/
def accepts (s : Session) : Move → Bool
  | .send m => (s.send m).toOption.isSome
  | .emit w e => (s.emit w e).toOption.isSome
  | _ => false

def input (s : Session) (m : Move) : List Move := if s.accepts m then [m] else []

/-- The moves among some moves by which something comes in. -/
def inputs (s : Session) : List Move → List Move
  | [] => []
  | m :: moves => s.input m ++ (s.apply m).inputs moves

/-- The requests that the client gets rid of by some moves, in order. -/
def submissions (s : Session) (moves : List Move) : List Request :=
  (s.inputs moves).filterMap Move.request?

/-- The events that workers get rid of by some moves, in order. -/
def emissions (s : Session) (moves : List Move) : List Outgoing :=
  (s.inputs moves).filterMap Move.emission?

/-- The requests that have come to the broker, handled or not. -/
def sentRequests (s : Session) : List Request :=
  s.inbox.accepted.filterMap BrokerMessage.request?

/-- The events that have come to the relay of the analysis workers, or to the other one. -/
def relayed (s : Session) : (analysis : Bool) → List Outgoing
  | true => s.analysis.elim [] (·.inbox.accepted)
  | false => s.support.inbox.accepted

/-- Whether an event takes the way of the analysis workers, or the other one. -/
def takesWay (s : Session) (analysis : Bool) (o : Outgoing) : Bool :=
  match o.origin with
  | .broker => false
  | .worker w => s.usesAnalysisRelay w == analysis

variable {s t u : Session} {arrived more : List Move}

/-- Between two sessions some messages have come in, and nothing else. -/
structure Fed (s : Session) (arrived : List Move) (t : Session) : Prop where
  sentRequests : t.sentRequests = s.sentRequests ++ arrived.filterMap Move.request?
  relayed : ∀ analysis, t.relayed analysis =
    s.relayed analysis ++ (arrived.filterMap Move.emission?).filter (s.takesWay analysis)
  ways : t.analysis.isSome = s.analysis.isSome

theorem takesWay_congr (ways : t.analysis.isSome = s.analysis.isSome) :
    t.takesWay = s.takesWay := by
  funext analysis o
  simp only [takesWay, usesAnalysisRelay, ways]

namespace Fed

theorem refl (s : Session) : Fed s [] s := ⟨by simp, by simp, rfl⟩

theorem trans (first : Fed s arrived t) (second : Fed t more u) : Fed s (arrived ++ more) u where
  sentRequests := by
    rw [second.sentRequests, first.sentRequests, List.filterMap_append, List.append_assoc]
  relayed analysis := by
    rw [second.relayed, first.relayed, takesWay_congr first.ways, List.filterMap_append,
      List.filter_append, List.append_assoc]
  ways := second.ways.trans first.ways

/-- Nothing comes in. -/
theorem same (inbox : t.inbox.accepted = s.inbox.accepted) (support : t.support = s.support)
    (analysis : t.analysis = s.analysis) : Fed s [] t where
  sentRequests := by simp [Session.sentRequests, inbox]
  relayed way := by cases way <;> simp [Session.relayed, support, analysis]
  ways := by rw [analysis]

/-- A message that is no request comes to the broker. -/
theorem offer {m : BrokerMessage} {inbox : Mailbox BrokerMessage} (other : m.request? = none)
    (offered : s.inbox.offer m = .ok inbox) : Fed s [] { s with inbox } where
  sentRequests := by
    obtain ⟨-, -, rfl⟩ := Mailbox.offer_eq_ok.mp offered
    simp [Session.sentRequests, other]
  relayed way := by cases way <;> simp [Session.relayed]
  ways := rfl

/-! ### Tasks -/

theorem stepSupport (stepped : s.stepSupport = some t) : Fed s [] t := by
  obtain ⟨⟨relay, inbox⟩, relayed, rfl⟩ := Option.map_eq_some_iff.mp stepped
  have accepted := Relay.accepted_step relayed
  exact ⟨by simp [Session.sentRequests],
    fun way => by cases way <;> simp [Session.relayed, accepted], rfl⟩

theorem stepAnalysis (stepped : s.stepAnalysis = some t) : Fed s [] t := by
  obtain ⟨relay, found, stepped⟩ := Option.bind_eq_some_iff.mp stepped
  obtain ⟨⟨relay', inbox⟩, relayed, rfl⟩ := Option.map_eq_some_iff.mp stepped
  have accepted := Relay.accepted_step relayed
  exact ⟨by simp [Session.sentRequests],
    fun way => by cases way <;> simp [Session.relayed, found, accepted], by rw [found]; rfl⟩

/-- Nothing comes in by a transition that is no move from outside. -/
theorem transition {out : List Event} (h : Transition (fun _ => False) s out t) : Fed s [] t := by
  cases h with
  | receive _ _ _ taken => exact same (Mailbox.accepted_next taken) rfl rfl
  | background background =>
      cases background with
      | recompile _ due =>
          obtain ⟨debouncer, rfl⟩ := recompileIfDue_eq_some due
          exact same rfl rfl rfl
      | teardown _ stepped =>
          obtain ⟨teardown, rfl | rfl⟩ := stepTeardown_eq_some stepped <;> exact same rfl rfl rfl
      | gate stepped =>
          obtain ⟨g, -, rfl⟩ := Option.map_eq_some_iff.mp stepped
          exact same rfl rfl rfl
      | support stepped => exact stepSupport stepped
      | analysis stepped => exact stepAnalysis stepped
      | index stepped =>
          rcases stepIndex_eq_some stepped with ⟨index, rfl⟩ | ⟨_, inbox, index, offered, rfl⟩
          · exact same rfl rfl rfl
          · exact (offer rfl offered).trans (same rfl rfl rfl)
      | watch stepped =>
          rcases stepWatch_eq_some stepped with ⟨watches, rfl⟩ | ⟨_, inbox, watches, offered, rfl⟩
          · exact same rfl rfl rfl
          · exact (offer rfl offered).trans (same rfl rfl rfl)
      | outside allowed => exact allowed.elim
      | _ => exact same rfl rfl rfl
  | _ => exact same rfl rfl rfl

/-- A step of a task feeds the session nothing. -/
theorem step {task : Task} (stepped : s.step task = some t) : Fed s [] t := by
  have reaches : ∃ out, Reaches (fun _ => False) s out t := reaches_step stepped
  obtain ⟨out, reached⟩ := reaches
  exact reached.invariant (refl s) fun fed last => fed.trans (transition last)

end Fed

/-! ### Moves -/

/-- A message that is sent comes in if there is room. -/
theorem fed_send (m : BrokerMessage) : Fed s (s.input (.send m)) (s.apply (.send m)) := by
  cases sent : s.send m with
  | error refusal =>
      have nothing : s.input (.send m) = [] := by simp [input, accepts, sent, Except.toOption]
      simp only [nothing, apply, sent]
      exact Fed.refl s
  | ok t =>
      have arrived : s.input (.send m) = [.send m] := by
        simp [input, accepts, sent, Except.toOption]
      obtain ⟨inbox, offered, rfl⟩ := send_eq_ok sent
      obtain ⟨-, -, rfl⟩ := Mailbox.offer_eq_ok.mp offered
      rw [arrived]
      simp only [apply, sent]
      exact ⟨by simp [sentRequests, Move.request?, Except.toOption, List.filterMap_cons],
        fun way => by cases way <;> simp [relayed, Move.emission?, Except.toOption], rfl⟩

/-- An event that is emitted comes in if there is room. -/
theorem fed_emit (w : Worker) (e : Event) : Fed s (s.input (.emit w e)) (s.apply (.emit w e)) := by
  cases emitted : s.emit w e with
  | error refusal =>
      have nothing : s.input (.emit w e) = [] := by
        simp [input, accepts, emitted, Except.toOption]
      simp only [nothing, apply, emitted]
      exact Fed.refl s
  | ok t =>
      have arrived : s.input (.emit w e) = [.emit w e] := by
        simp [input, accepts, emitted, Except.toOption]
      simp only [arrived, apply, emitted]
      rcases emit_way emitted with ⟨way, relay, inbox, found, offered, rfl⟩ |
        ⟨way, inbox, offered, rfl⟩
      · obtain ⟨-, -, rfl⟩ := Mailbox.offer_eq_ok.mp offered
        refine ⟨by simp [sentRequests, Move.request?, Except.toOption], fun analysis => ?_,
          by simp [Except.toOption, found]⟩
        cases analysis <;>
          simp [relayed, found, takesWay, way, Move.emission?, Except.toOption]
      · obtain ⟨-, -, rfl⟩ := Mailbox.offer_eq_ok.mp offered
        refine ⟨by simp [sentRequests, Move.request?, Except.toOption], fun analysis => ?_, rfl⟩
        cases analysis <;> simp [relayed, takesWay, way, Move.emission?, Except.toOption]

/-- A move feeds the session its own input and nothing else. -/
theorem fed_apply (m : Move) : Fed s (s.input m) (s.apply m) := by
  cases m with
  | send m => exact fed_send m
  | emit w e => exact fed_emit w e
  | step task =>
      change Fed s [] ((s.step task).getD s)
      cases stepped : s.step task with
      | none => exact Fed.refl s
      | some t => exact Fed.step stepped
  | finishIndex outcome =>
      change Fed s [] (s.finishIndex outcome)
      unfold finishIndex
      split <;> exact Fed.same rfl rfl rfl
  | _ => exact Fed.same rfl rfl rfl

/-- The mailboxes of the broker and of the relays accept just what comes in. -/
theorem fed_run (s : Session) (moves : List Move) : Fed s (s.inputs moves) (s.run moves) := by
  induction moves generalizing s with
  | nil => exact Fed.refl s
  | cons m moves ih => exact (fed_apply m).trans (ih (s.apply m))

end Session

end SessionBroker
