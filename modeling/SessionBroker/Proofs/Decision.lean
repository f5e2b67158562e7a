import SessionBroker.Proofs.Accounts
import SessionBroker.Proofs.Journal

/-!
What makes it certain that a session ends, and how.

`Happening.ending?` tells which doings of the loop end a session. Main statements:
`Proceeds.decides`, a move of the broker decides about the end exactly when the loop does one
of these things in it, and `decided_run`, after that the loop does nothing more and no worker
is told anything. So the first such thing fixes how the session ends (`Fresh.exists_stop`).
-/

namespace SessionBroker

/-- The ending that a message brings about. `exits` tells whether nothing more is wanted once
the search index is refreshed. -/
def BrokerMessage.ending? (exits : Bool) : BrokerMessage → Option Ending
  | .request r => r.shutdown?.map fun params => .exit (.requested params)
  | .indexed (.failed error) => some (.failure (.index error))
  | .indexed (.refreshed _ _) => if exits then some (.exit .indexComplete) else none
  | _ => none

/-- The ending that something the loop does brings about. -/
def Happening.ending? (exits : Bool) : Happening → Option Ending
  | .turn _ => none
  | .took m => m.ending? exits
  | .cancelled => some (.exit .cancelled)
  | .disconnected => some (.exit .disconnected)

/-- Nothing else ends a session the way that the loss of all senders does. -/
theorem Happening.eq_disconnected {exits : Bool} {what : Happening}
    (ends : what.ending? exits = some (.exit .disconnected)) : what = .disconnected := by
  cases what with
  | disconnected => rfl
  | took m =>
      cases m with
      | request r => simp [Happening.ending?, BrokerMessage.ending?] at ends
      | indexed outcome =>
          cases outcome with
          | failed error => cases ends
          | refreshed deleted inserted => cases exits <;> cases ends
      | _ => cases ends
  | _ => cases ends

/-! ### Acts -/

/-- Handling a message makes exactly the ending certain that the message brings about. -/
theorem Broker.Handles.decides {b b' : Broker} {m : BrokerMessage} {acts : List Act}
    (handles : b.Handles m b' acts) (parked : ∀ r ∈ b.parked, r.Routable) :
    acts.findSome? Act.ending? = m.ending? b.exitAfterIndex := by
  cases handles with
  | leave _ data =>
      rw [BrokerMessage.ending?, Request.shutdown?_eq_some.mpr data]
      rfl
  | greet _ handshake =>
      rw [BrokerMessage.ending?, Request.shutdown?_of_isHandshake handshake]
      exact (acts_route parked [.activate]).2.2
  | turnAway _ routable | park _ routable =>
      rw [BrokerMessage.ending?, routable.not_shutdown]
      rfl
  | greetAgain _ handshake =>
      rw [BrokerMessage.ending?, Request.shutdown?_of_isHandshake handshake]
      rfl
  | @route r =>
      rw [BrokerMessage.ending?, List.findSome?_cons, Act.ending?]
      cases r.shutdown? <;> rfl
  | indexed stays =>
      rw [BrokerMessage.ending?, stays]
      rfl
  | indexComplete exits =>
      rw [BrokerMessage.ending?, exits]
      rfl
  | _ => rfl

namespace Outlets

variable {conn : Connection} {a : Act} {acts rest left : List Act} {p q : Outlets}

/-- Carrying out an act keeps the agenda in one of its forms, and what is certain about the
end. -/
theorem agenda_performOne (p : Outlets) (agenda : Agenda conn (a :: rest))
    (unfinished : ∀ ending, a ≠ .finish ending) :
    Agenda conn ((p.performOne a).1 ++ rest) ∧
      ((p.performOne a).1 ++ rest).findSome? Act.ending? =
        (a :: rest).findSome? Act.ending? := by
  cases a with
  | reply e =>
      obtain ⟨rfl, rs, routable, rfl⟩ := agenda.of_reply
      exact ⟨.flush routable, rfl⟩
  | emit e =>
      refine ⟨?_, rfl⟩
      rcases agenda.of_emit with rfl | ⟨ending, rfl⟩ | ⟨rfl, rs, routable, rfl⟩
      · exact .idle
      · exact .finish
      · exact .flush routable
  | activate =>
      obtain ⟨-, rfl⟩ := agenda.of_activate
      exact ⟨.idle, rfl⟩
  | route r => exact ⟨Session.agenda_followUp _ agenda, ending_followUp _ agenda⟩
  | finish ending => exact absurd rfl (unfinished ending)

/-- Once the end is certain, acts tell no worker anything. -/
theorem log_performOne (p : Outlets) (agenda : Agenda conn (a :: rest)) {ending : Ending}
    (ends : (a :: rest).findSome? Act.ending? = some ending) (w : Worker) :
    (p.performOne a).2.topology.log w = p.topology.log w := by
  cases a with
  | route r =>
      change (p.topology.dispatch r).1.log w = _
      have shutdown : ∃ params, r.data = .shutdown params := by
        obtain ⟨-, ⟨rfl, other⟩ | ⟨routable, rs, routables, rfl⟩⟩ := agenda.of_route
        · rcases Request.routable_or_shutdown other with routable | shutdown
          · simp [Act.ending?, routable.not_shutdown] at ends
          · exact shutdown
        · have open_ := (acts_route routables [.activate]).2.2
          simp [List.findSome?_cons, Act.ending?, routable.not_shutdown, open_] at ends
      obtain ⟨params, data⟩ := shutdown
      rw [p.topology.dispatch_shutdown data]
  | _ => rfl

/-- Carrying out acts neither changes the end that they bring nor, once there is one, tells a
worker. -/
theorem Performs.decides (h : Performs acts p left q) (agenda : Agenda conn acts) :
    left.findSome? Act.ending? = acts.findSome? Act.ending? ∧
      ∀ ending, acts.findSome? Act.ending? = some ending →
        ∀ w, q.topology.log w = p.topology.log w := by
  induction h with
  | refl => exact ⟨rfl, fun _ _ _ => rfl⟩
  | @step a rest left p q _ unfinished _ ih =>
      obtain ⟨agenda', same⟩ := p.agenda_performOne agenda unfinished
      obtain ⟨decided, log⟩ := ih agenda'
      refine ⟨decided.trans same, fun ending ends w => ?_⟩
      exact (log ending (same.trans ends) w).trans (p.log_performOne agenda ends w)

end Outlets

namespace Session

variable {c : Config} {s t u : Session} {hs : List Happening} {acts : List Act}
  {what : Happening} {ending : Ending} {exits : Bool}

/-! ### One move -/

def TellsNobody (s t : Session) : Prop := ∀ w, t.topology.log w = s.topology.log w

theorem decided_of_idle (phase : s.phase = .serving []) : s.decided = none := by
  rw [decided, phase]
  rfl

/-- Acts make certain what they make certain, however far the broker gets with them. -/
theorem GetsOn.decides (h : GetsOn s acts hs t) {conn : Connection} (agenda : Agenda conn acts) :
    t.decided = acts.findSome? Act.ending? ∧
      ∀ ending, acts.findSome? Act.ending? = some ending → hs = [] ∧ TellsNobody s t := by
  have performs := s.outlets.performs_perform acts
  cases h with
  | leaves result | waits result =>
      rw [result] at performs
      obtain ⟨decided, log⟩ := performs.decides agenda
      exact ⟨decided, fun ending ends => ⟨rfl, log ending ends⟩⟩
  | rests result =>
      rw [result] at performs
      obtain ⟨decided, -⟩ := performs.decides agenda
      refine ⟨decided, ?_⟩
      intro ending ends
      rw [← decided] at ends
      cases ends
  | recompiles result due =>
      rw [result] at performs
      obtain ⟨decided, -⟩ := performs.decides agenda
      obtain ⟨-, rfl⟩ := recompileIfDue_eq due
      refine ⟨decided, ?_⟩
      intro ending ends
      rw [← decided] at ends
      cases ends

/-- What the loop does next ends the session. Cancellation comes before a recompile that is
due, and that before the mailbox. -/
structure Stops (exits : Bool) (s : Session) (what : Happening) (ending : Ending) : Prop where
  happens : s.happenings = [what]
  ending : what.ending? exits = some ending
  cancelled : what = .cancelled ↔ s.cancelled = true
  calm : s.cancelled = false → s.recompileIfDue = none
  /-- The message is the one that has waited longest. -/
  took : ∀ m, what = .took m → s.inbox.waiting.head? = some m
  /-- All messages that ever came were handled. -/
  disconnected : what = .disconnected → s.handled = s.inbox.accepted ∧ s.hasSender = false

/-- What a move of the broker decides about the end. -/
inductive Decides (exits : Bool) (s : Session) (hs : List Happening) (t : Session) : Prop
  /-- Nothing. -/
  | nothing : s.decided = none → t.decided = none → (∀ h ∈ hs, h.ending? exits = none) →
      Decides exits s hs t
  /-- That the session ends, and how. -/
  | stops {what : Happening} {ending : Ending} :
      s.decided = none → Stops exits s what ending → hs = [what] → t.decided = some ending →
      TellsNobody s t → Decides exits s hs t
  /-- It was decided before. -/
  | before {ending : Ending} :
      s.decided = some ending → t.decided = some ending → hs = [] → t.handled = s.handled →
      TellsNobody s t → Decides exits s hs t

/-- A step of the broker decides nothing about the end, or decides it, or goes on with what was
decided. -/
theorem Proceeds.decides (h : Proceeds s s.happenings t) (orderly : s.Orderly)
    (isOpen : s.isOver = false → s.inbox.isOpen = true) :
    Decides s.broker.exitAfterIndex s s.happenings t := by
  generalize happens : s.happenings = hs at h
  cases h with
  | cancelled phase cancelled =>
      exact .stops (decided_of_idle phase)
        ⟨happens, rfl, ⟨fun _ => cancelled, fun _ => rfl⟩, by simp [cancelled], nofun, nofun⟩ rfl
        rfl fun _ => rfl
  | recompile phase _ due =>
      obtain ⟨-, rfl⟩ := recompileIfDue_eq due
      exact .nothing (decided_of_idle phase) (decided_of_idle phase)
        fun h mem => by rw [List.mem_singleton.mp mem]; rfl
  | @took m inbox hs t phase calm idle taken gets =>
      have handles := s.broker.handles_handle s.now m
      obtain ⟨agenda, -, -⟩ := agenda_handles orderly.parked orderly.active handles
      obtain ⟨decided, stopped⟩ := gets.decides agenda
      rw [handles.decides orderly.parked] at decided stopped
      cases ends : m.ending? s.broker.exitAfterIndex with
      | none =>
          refine .nothing (decided_of_idle phase) (decided.trans ends) fun h mem => ?_
          rcases List.mem_cons.mp mem with rfl | mem
          · exact ends
          · obtain ⟨b, rfl⟩ := gets.turns h mem
            rfl
      | some ending =>
          obtain ⟨rfl, tellsNobody⟩ := stopped ending ends
          refine .stops (decided_of_idle phase) ⟨happens, ends, by simp [calm], fun _ => idle, ?_,
            nofun⟩ rfl (decided.trans ends) tellsNobody
          rintro m' ⟨⟩
          rw [Mailbox.waiting_next taken, List.head?_cons]
  | disconnected phase calm idle empty alone =>
      refine .stops (decided_of_idle phase) ⟨happens, rfl, by simp [calm], fun _ => idle, nofun,
        fun _ => ⟨?_, alone⟩⟩ rfl rfl fun _ => rfl
      exact (Mailbox.next?_eq_none orderly.sound (isOpen (not_over_of_phase phase)) empty).read_eq
  | @acts a rest hs t phase gets =>
      obtain ⟨decided, stopped⟩ := gets.decides (orderly.agenda_of_phase phase)
      have same : s.decided = (a :: rest).findSome? Act.ending? := by rw [Session.decided, phase]
      cases ends : (a :: rest).findSome? Act.ending? with
      | none =>
          refine .nothing (same.trans ends) (decided.trans ends) fun h mem => ?_
          obtain ⟨b, rfl⟩ := gets.turns h mem
          rfl
      | some ending =>
          obtain ⟨rfl, tellsNobody⟩ := stopped ending ends
          exact .before (same.trans ends) (decided.trans ends) rfl
            (congrArg Mailbox.read gets.inbox) tellsNobody
  | @teardown ending _ phase stepped =>
      have here : s.decided = some ending := by rw [Session.decided, phase]
      obtain ⟨teardown, rfl | rfl⟩ := stepTeardown_eq_some stepped
      · exact .before here here rfl rfl fun _ => rfl
      · exact .before here rfl rfl rfl fun _ => rfl

theorem Aside.decided (aside : Aside s t) : t.decided = s.decided := by
  rw [Session.decided, Session.decided, aside.phase]

/-! ### What stays as it was at the start -/

/-- The settings of the session, and that the mailbox of the broker is open until the end. -/
structure Steady (s t : Session) : Prop where
  exits : t.broker.exitAfterIndex = s.broker.exitAfterIndex
  collaborators : t.collaborators = s.collaborators
  isOpen : t.isOver = false → t.inbox.isOpen = true

/-- Going on with its acts the broker keeps its mailbox open and its settings. -/
theorem GetsOn.steady (steady : Steady u s) (isOpen : s.inbox.isOpen = true)
    (h : GetsOn s acts hs t) : Steady u t := by
  cases h with
  | leaves | waits | rests => exact ⟨steady.exits, steady.collaborators, fun _ => isOpen⟩
  | recompiles _ due =>
      obtain ⟨-, rfl⟩ := recompileIfDue_eq due
      exact ⟨steady.exits, steady.collaborators, fun _ => isOpen⟩

theorem exits_handle (b : Broker) (now : Duration) (m : BrokerMessage) :
    (b.handle now m).1.exitAfterIndex = b.exitAfterIndex := by
  have handles := b.handles_handle now m
  generalize (b.handle now m).1 = b' at handles
  generalize (b.handle now m).2 = acts at handles
  cases handles <;> rfl

/-- A step of the broker keeps its settings, and its mailbox open until it is over. -/
theorem Proceeds.steady (steady : Steady u s) (h : Proceeds s hs t) : Steady u t := by
  have isOpen {acts : List Act} (phase : s.phase = .serving acts) : s.inbox.isOpen = true :=
    steady.isOpen (not_over_of_phase phase)
  cases h with
  | cancelled phase | disconnected phase =>
      exact ⟨steady.exits, steady.collaborators, fun _ => isOpen phase⟩
  | recompile phase _ due =>
      obtain ⟨-, rfl⟩ := recompileIfDue_eq due
      exact ⟨steady.exits, steady.collaborators, fun _ => isOpen phase⟩
  | @took m inbox hs t phase _ _ taken gets =>
      have still : inbox.isOpen = true := (Mailbox.isOpen_next taken).trans (isOpen phase)
      have handled : Steady u { s with inbox, broker := (s.broker.handle s.now m).1 } :=
        ⟨(exits_handle ..).trans steady.exits, steady.collaborators, fun _ => still⟩
      exact gets.steady handled still
  | acts phase gets => exact gets.steady steady (isOpen phase)
  | teardown phase stepped =>
      obtain ⟨teardown, rfl | rfl⟩ := stepTeardown_eq_some stepped
      · exact ⟨steady.exits, steady.collaborators, steady.isOpen⟩
      · exact ⟨steady.exits, steady.collaborators, nofun⟩

theorem Fresh.steady (fresh : s.Fresh c) (moves : List Move) : Steady s (s.run moves) := by
  refine fresh.run_induction (P := fun _ t => Steady s t) ⟨rfl, rfl, ?_⟩ ?_ ?_ moves
  · intro _
    rw [fresh.inbox]
    rfl
  · intro _ t u hs _ steady proceeds
    exact proceeds.steady steady
  · intro _ t u steady aside
    constructor
    · rw [aside.broker]
      exact steady.exits
    · exact aside.collaborators.trans steady.collaborators
    · intro running
      rw [aside.isOpen]
      apply steady.isOpen
      rwa [isOver, ending?, aside.phase] at running

/-! ### Runs -/

/-- What a move in a run decides about the end. -/
theorem Fresh.decides (fresh : s.Fresh c) (moves : List Move) (m : Move) :
    m = .step .broker ∧ Decides s.broker.exitAfterIndex (s.run moves) (s.run moves).happenings
        ((s.run moves).apply m) ∨
      (s.run moves).entries m = [] ∧ ((s.run moves).apply m).decided = (s.run moves).decided ∧
        ((s.run moves).apply m).handled = (s.run moves).handled ∧
        TellsNobody (s.run moves) ((s.run moves).apply m) := by
  have orderly := fresh.orderly_of_run moves
  have steady := fresh.steady moves
  rcases apply_cases orderly.sound m with ⟨own, proceeds⟩ | ⟨nothing, aside⟩
  · left
    subst own
    rw [← steady.exits]
    exact ⟨rfl, proceeds.decides orderly steady.isOpen⟩
  · right
    exact ⟨nothing, aside.decided, aside.handled, aside.log⟩

/-- The first thing that the loop does to end the session decides how it ends. -/
theorem Fresh.decided_eq (fresh : s.Fresh c) (moves : List Move) :
    (s.run moves).decided =
      (s.journal moves).findSome? (·.what.ending? s.broker.exitAfterIndex) := by
  induction moves using List.reverseRecOn with
  | nil => exact decided_of_idle fresh.phase
  | append_singleton moves m ih =>
      rw [run_concat, journal_concat, List.findSome?_append, ← ih]
      rcases fresh.decides moves m with ⟨rfl, decides⟩ | ⟨nothing, decided, -, -⟩
      · cases decides with
        | nothing before after_ none_ =>
            rw [before, after_, Option.none_or, eq_comm, List.findSome?_eq_none_iff]
            intro e mem
            obtain ⟨h, happened, rfl⟩ := List.mem_map.mp mem
            exact none_ h happened
        | stops before stops happens after_ =>
            rw [before, after_, Option.none_or, entries, happens, dated, List.map_singleton,
              List.findSome?_singleton, stops.ending]
        | before before after_ =>
            rw [before, after_]
            rfl
      · rw [nothing, decided]
        exact (Option.or_none ..).symm

/-- Once the end is certain the loop does nothing more, and no worker is told anything. -/
theorem Fresh.decided_run (fresh : s.Fresh c) {earlier : List Move}
    (ends : (s.run earlier).decided = some ending) (later : List Move) :
    (s.run (earlier ++ later)).decided = some ending ∧
      s.journal (earlier ++ later) = s.journal earlier ∧
      (s.run (earlier ++ later)).handled = (s.run earlier).handled ∧
      TellsNobody (s.run earlier) (s.run (earlier ++ later)) := by
  induction later using List.reverseRecOn with
  | nil =>
      rw [List.append_nil]
      exact ⟨ends, rfl, rfl, fun _ => rfl⟩
  | append_singleton later m ih =>
      obtain ⟨decided, journal, handled, tellsNobody⟩ := ih
      rw [← List.append_assoc, run_concat, journal_concat, journal]
      suffices frozen : (s.run (earlier ++ later)).entries m = [] ∧
          ((s.run (earlier ++ later)).apply m).decided = (s.run (earlier ++ later)).decided ∧
          ((s.run (earlier ++ later)).apply m).handled = (s.run (earlier ++ later)).handled ∧
          TellsNobody (s.run (earlier ++ later)) ((s.run (earlier ++ later)).apply m) by
        obtain ⟨nothing, same, handled', tellsNobody'⟩ := frozen
        refine ⟨same.trans decided, ?_, handled'.trans handled, ?_⟩
        · rw [nothing, List.append_nil]
        · intro w
          exact (tellsNobody' w).trans (tellsNobody w)
      rcases fresh.decides (earlier ++ later) m with ⟨rfl, decides⟩ | frozen
      · cases decides with
        | nothing before | stops before =>
            rw [decided] at before
            cases before
        | before before after_ nothing handled tellsNobody =>
            rw [entries, nothing]
            exact ⟨rfl, after_.trans before.symm, handled, tellsNobody⟩
      · exact frozen

/-- The loop does something that ends the session, and that is the last it does. -/
structure StopsAfter (exits : Bool) (s : Session) (moves earlier later : List Move)
    (what : Happening) (ending : Ending) : Prop where
  moves_eq : moves = earlier ++ .step .broker :: later
  stops : Stops exits (s.run earlier) what ending
  /-- Nothing before could end the session. -/
  first : ∀ e ∈ s.journal earlier, e.what.ending? exits = none
  last : s.journal moves = s.journal earlier ++ [⟨(s.run earlier).now, what⟩]
  tellsNobody : TellsNobody (s.run earlier) (s.run moves)

/-- If it is certain that a session ends, something that the loop did is the reason. -/
theorem Fresh.exists_stop (fresh : s.Fresh c) {moves : List Move}
    (ends : (s.run moves).decided = some ending) :
    ∃ earlier later what,
      StopsAfter s.broker.exitAfterIndex s moves earlier later what ending := by
  induction moves using List.reverseRecOn with
  | nil =>
      rw [show (s.run []).decided = none from decided_of_idle fresh.phase] at ends
      cases ends
  | append_singleton moves m ih =>
      have before (same : (s.run moves).decided = some ending) : ∃ earlier later what,
          StopsAfter s.broker.exitAfterIndex s (moves ++ [m]) earlier later what ending := by
        obtain ⟨earlier, later, what, stopped⟩ := ih same
        obtain ⟨-, journal, -, tellsNobody⟩ := fresh.decided_run same [m]
        refine ⟨earlier, later ++ [m], what, ?_, stopped.stops, stopped.first, ?_, ?_⟩
        · rw [stopped.moves_eq, List.append_assoc, List.cons_append]
        · rw [journal, stopped.last]
        · intro w
          exact (tellsNobody w).trans (stopped.tellsNobody w)
      rw [run_concat] at ends
      rcases fresh.decides moves m with ⟨rfl, decides⟩ | ⟨-, same, -, -⟩
      · cases decides with
        | nothing _ after_ =>
            rw [ends] at after_
            cases after_
        | @stops what _ open_ stops happens after_ tellsNobody =>
            rw [ends] at after_
            cases after_
            refine ⟨moves, [], what, rfl, stops, ?_, ?_, ?_⟩
            · rw [fresh.decided_eq, List.findSome?_eq_none_iff] at open_
              exact open_
            · rw [journal_concat, entries, happens]
              rfl
            · rw [run_concat]
              exact tellsNobody
        | before open_ after_ =>
            rw [ends] at after_
            cases after_
            exact before open_
      · exact before (same.symm.trans ends)

end Session

end SessionBroker
