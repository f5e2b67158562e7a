import SessionBroker.Proofs.Agenda
import SessionBroker.Proofs.Hiding

/-!
What a session comes to when one worker is left aside.

`Session.alone` is a session without one worker, the gate and the client, `Session.quiet` what
it comes to once the broker has done all it has to do. `Session.common` takes from some moves
those that concern more than the worker and the way of events to the client. Main statement:
`quiet_run`, as long as the broker keeps up these moves tell what the quiet session comes to.
-/

namespace SessionBroker

namespace Session

variable {s t : Session} {w : Worker}

/-- The session without a worker, and without gate and client and all that leads there. -/
def alone (w : Worker) (s : Session) : Session :=
  { s with
    topology := s.topology.hide w, emitters := .replicate false
    support := Relay.new.stop, analysis := none
    gate := (Gate.new 0).stop, client := (Mailbox.empty 0).close }

/-- The session once the broker has carried out what it was about to do. -/
def completed (s : Session) : Session :=
  match s.phase with
  | .serving (a :: rest) => s.act (a :: rest)
  | _ => s

/-- What a session comes to, but for a worker and what the client is told. -/
def quiet (w : Worker) (s : Session) : Session := (s.alone w).completed

/-! ### Moves -/

/-- Whether a move concerns only a worker and the way of events to the client. A broker that
has begun to carry out acts only goes on with them. -/
def hides (s : Session) (w : Worker) : Move → Bool
  | .step .gate | .step .support | .step .analysis => true
  | .step .broker => !s.agenda.isEmpty
  | .emit _ _ | .muteWorker _ | .readClient _ | .closeClient => true
  | .readWorker v _ | .stopWorker v => v == w
  | _ => false

/-- Which of some moves concern only a worker and the way of events to the client. -/
def hidden (w : Worker) (s : Session) : List Move → List Bool
  | [] => []
  | m :: moves => s.hides w m :: (s.apply m).hidden w moves

/-- The moves among some moves that concern more than a worker and the client. -/
def common (w : Worker) (s : Session) (moves : List Move) : List Move :=
  (moves.zip (s.hidden w moves)).filterMap fun (m, hidden) => if hidden then none else some m

theorem common_cons (w : Worker) (s : Session) (m : Move) (moves : List Move) :
    s.common w (m :: moves) =
      if s.hides w m then (s.apply m).common w moves else m :: (s.apply m).common w moves := by
  cases hides : s.hides w m <;> simp [common, hidden, hides]

end Session

/-- Whether a move only brings something to a mailbox or a task that the broker looks at
later. -/
def Move.isIntake : Move → Bool
  | .send _ | .dropHandle | .cancel | .finishIndex _ | .watch _ | .fileEvent _ _ => true
  | .step .index | .step (.watch _) => true
  | _ => false

namespace Session

variable {s t : Session} {w : Worker}

/-- Whether the broker is done with its acts whenever time passes or another worker reads: so
it is with a client that keeps reading, as then the broker never waits for long. -/
def keepsUp (w : Worker) (s : Session) : List Move → Bool
  | [] => true
  | m :: moves => (s.hides w m || m.isIntake || s.agenda.isEmpty) && (s.apply m).keepsUp w moves

/-! ### Acts of the broker -/

/-- A recompile comes to the same for the session alone. -/
theorem alone_recompileIfDue (w : Worker) (s : Session) :
    (s.alone w).recompileIfDue = s.recompileIfDue.map (·.alone w) := by
  have hidden := s.topology.hide_recompileAll w
  have broker : (s.alone w).broker = s.broker := rfl
  have now : (s.alone w).now = s.now := rfl
  unfold recompileIfDue
  rw [broker, now]
  split
  · simp only [Option.map_some, alone, hidden]
  · rfl

theorem phase_of_recompileIfDue (due : s.recompileIfDue = some t) : t.phase = s.phase := by
  obtain ⟨debouncer, rfl⟩ := recompileIfDue_eq_some due
  rfl

/-- What acts come to follows from what they come to at the mailboxes. -/
theorem act_of_perform {acts left : List Act} {q : Outlets}
    (same : s.outlets.perform acts = q.perform left) :
    ((s.withOutlets q).withAgenda left).act left = s.act acts := by
  have outlets : ((s.withOutlets q).withAgenda left).outlets = q := rfl
  unfold act
  rw [outlets, same]
  split <;> rfl

theorem completed_of_idle (idle : s.agenda = []) : s.completed = s := by
  unfold completed
  unfold agenda at idle
  split
  · rename_i phase
    rw [phase] at idle
    cases idle
  · rfl

theorem quiet_of_idle (idle : s.agenda = []) : s.quiet w = s.alone w :=
  completed_of_idle (s := s.alone w) idle

/-- A busy session becomes quiet by carrying out its acts with everything else hidden. -/
theorem quiet_of_phase {a : Act} {rest : List Act} (phase : s.phase = .serving (a :: rest)) :
    s.quiet w = (s.alone w).act (a :: rest) := by
  have same : (s.alone w).phase = .serving (a :: rest) := phase
  rw [quiet, completed, same]

/-- However long the broker has to wait in between, acts come to the same. -/
theorem quiet_act (w : Worker) (s : Session) (acts : List Act) :
    (s.act acts).quiet w = (s.alone w).act acts := by
  have hidden := (s.outlets.performs_perform acts).hide w
  have outlets : (s.alone w).outlets = s.outlets.hide w := rfl
  rw [← outlets] at hidden
  rw [← act_of_perform hidden]
  generalize result : s.outlets.perform acts = done
  obtain ⟨left, p⟩ := done
  unfold act
  rw [result]
  split
  · rename_i ending rest q same
    cases same
    rfl
  · rename_i q same
    cases same
    have due := alone_recompileIfDue w ((s.withOutlets p).withAgenda [])
    change (((s.withOutlets p).withAgenda []).recompileIfDue.getD
        ((s.withOutlets p).withAgenda [])).quiet w =
      (((s.withOutlets p).withAgenda []).alone w).recompileIfDue.getD
        (((s.withOutlets p).withAgenda []).alone w)
    rw [due]
    cases recompiled : ((s.withOutlets p).withAgenda []).recompileIfDue with
    | none => rfl
    | some t =>
        have idle : t.agenda = [] := by rw [agenda, phase_of_recompileIfDue recompiled]; rfl
        exact quiet_of_idle idle
  · rename_i acts q unfinished waits same
    cases same
    cases left with
    | nil => exact (waits rfl).elim
    | cons a rest => exact quiet_of_phase rfl

/-! ### What comes in -/

/-- What the broker does not touch while it carries out acts. -/
structure Intake where
  cancelled : Bool
  handleHeld : Bool
  inbox : Mailbox BrokerMessage
  index : IndexTask
  watches : List Watch

def intake (s : Session) : Intake :=
  ⟨s.cancelled, s.handleHeld, s.inbox, s.index, s.watches⟩

def withIntake (s : Session) (i : Intake) : Session :=
  { s with
    cancelled := i.cancelled, handleHeld := i.handleHeld, inbox := i.inbox, index := i.index
    watches := i.watches }

/-- A recompile comes to the same whatever has come in. -/
theorem recompileIfDue_withIntake (s : Session) (i : Intake) :
    (s.withIntake i).recompileIfDue = s.recompileIfDue.map (·.withIntake i) := by
  have broker : (s.withIntake i).broker = s.broker := rfl
  have now : (s.withIntake i).now = s.now := rfl
  unfold recompileIfDue
  rw [broker, now]
  split <;> rfl

/-- Carrying out acts comes to the same whatever has come in. -/
theorem act_withIntake (s : Session) (i : Intake) (acts : List Act) :
    (s.withIntake i).act acts = (s.act acts).withIntake i := by
  have outlets : (s.withIntake i).outlets = s.outlets := rfl
  unfold act
  rw [outlets]
  split
  · rfl
  · rename_i p same
    have due := recompileIfDue_withIntake ((s.withOutlets p).withAgenda []) i
    change (((s.withOutlets p).withAgenda []).withIntake i).recompileIfDue.getD
        (((s.withOutlets p).withAgenda []).withIntake i) =
      (((s.withOutlets p).withAgenda []).recompileIfDue.getD
        ((s.withOutlets p).withAgenda [])).withIntake i
    rw [due]
    cases ((s.withOutlets p).withAgenda []).recompileIfDue <;> rfl
  · rfl

/-- What has come in does not matter for the quiet session. -/
theorem quiet_withIntake (w : Worker) (s : Session) (i : Intake) :
    (s.withIntake i).quiet w = (s.quiet w).withIntake i := by
  cases phase : s.phase with
  | serving acts =>
      cases acts with
      | nil =>
          rw [quiet_of_idle (agenda_of_phase (s := s.withIntake i) phase),
            quiet_of_idle (agenda_of_phase phase)]
          rfl
      | cons a rest =>
          rw [quiet_of_phase (s := s.withIntake i) phase, quiet_of_phase phase,
            ← act_withIntake]
          rfl
  | closing ending =>
      rw [quiet_of_idle (s := s.withIntake i) (by simp [agenda, withIntake, phase]),
        quiet_of_idle (by simp [agenda, phase])]
      rfl
  | ended ending =>
      rw [quiet_of_idle (s := s.withIntake i) (by simp [agenda, withIntake, phase]),
        quiet_of_idle (by simp [agenda, phase])]
      rfl

/-- Whether anyone can still send to the broker, as far as these are concerned. -/
def Intake.hasSender (i : Intake) : Bool :=
  i.handleHeld || i.index.holdsSender || i.watches.any (·.holdsSender)

section WithIntake

variable (s t : Session) (i : Intake)

/-- The index task does the same to sessions that differ in nothing that it looks at. -/
theorem stepIndex_withIntake :
    (s.withIntake i).stepIndex = (t.withIntake i).stepIndex.map (s.withIntake ·.intake) := by
  have indexes (s : Session) : (s.withIntake i).index = i.index := rfl
  have senders (s : Session) : (s.withIntake i).hasSender = i.hasSender := rfl
  have inboxes (s : Session) : (s.withIntake i).inbox = i.inbox := rfl
  simp only [stepIndex, indexes, senders, inboxes]
  cases i.index with
  | reporting outcome holds =>
      dsimp only
      cases i.hasSender
      · rfl
      · cases i.inbox.offer (.indexed outcome) with
        | ok inbox => rfl
        | error refusal => cases refusal <;> cases holds <;> rfl
  | _ => rfl

variable {s t} in
/-- A watch asks besides whether the teardown has stopped it. -/
theorem stepWatch_withIntake (calls : s.teardown.calls = t.teardown.calls) (number : Nat) :
    (s.withIntake i).stepWatch number =
      ((t.withIntake i).stepWatch number).map (s.withIntake ·.intake) := by
  have watches (s : Session) : (s.withIntake i).watches = i.watches := rfl
  have senders (s : Session) : (s.withIntake i).hasSender = i.hasSender := rfl
  have inboxes (s : Session) : (s.withIntake i).inbox = i.inbox := rfl
  have stopped : (s.withIntake i).watchStopped number = (t.withIntake i).watchStopped number :=
    congrArg (fun calls : List TeardownCall => i.cancelled || calls.any _) calls
  simp only [stepWatch, watches, senders, inboxes, stopped]
  cases i.watches[number]? with
  | none => rfl
  | some w =>
      simp only [Option.bind_some]
      cases w.running
      · rfl
      · cases w.delivering with
        | nil =>
            dsimp only
            cases (t.withIntake i).watchStopped number
            · cases w.look <;> rfl
            · rfl
        | cons change rest =>
            dsimp only
            cases i.hasSender
            · rfl
            · cases i.inbox.offer (.change change) with
              | ok inbox => rfl
              | error refusal => cases refusal <;> cases w.holdsSender <;> rfl

variable {s t} in
/-- What a move brings in depends on nothing else, and it changes nothing else. -/
theorem apply_withIntake {m : Move} (isIntake : m.isIntake = true)
    (calls : s.teardown.calls = t.teardown.calls) :
    (s.withIntake i).apply m = s.withIntake ((t.withIntake i).apply m).intake := by
  cases m with
  | send m =>
      have held (s : Session) : (s.withIntake i).handleHeld = i.handleHeld := rfl
      have inboxes (s : Session) : (s.withIntake i).inbox = i.inbox := rfl
      simp only [apply, send, inboxes, held]
      cases i.handleHeld
      · rfl
      · cases i.inbox.offer m <;> rfl
  | finishIndex outcome =>
      have indexes (s : Session) : (s.withIntake i).index = i.index := rfl
      simp only [apply, finishIndex, indexes]
      cases i.index <;> rfl
  | step task =>
      cases task with
      | index =>
          simp only [apply, step, s.stepIndex_withIntake t i]
          cases (t.withIntake i).stepIndex <;> rfl
      | watch number =>
          simp only [apply, step, stepWatch_withIntake i calls number]
          cases (t.withIntake i).stepWatch number <;> rfl
      | _ => cases isIntake
  | dropHandle => rfl
  | cancel => rfl
  | watch w => rfl
  | fileEvent number event => rfl
  | _ => cases isIntake

end WithIntake

/-! ### One move -/

/-- While the broker serves nothing has been torn down. -/
def Uncalled (s : Session) : Prop := ∀ acts, s.phase = .serving acts → s.teardown.calls = []

/-- What carrying out acts does not change. -/
structure Acted (s t : Session) : Prop where
  parked : t.broker.parked = s.broker.parked
  connection : t.broker.connection = s.broker.connection
  ending : t.ending? = none
  calls : s.teardown.calls = [] → t.teardown.calls = []

/-- Carrying out acts takes no message and calls nobody. -/
theorem acted_act (s : Session) (acts : List Act) : Acted s (s.act acts) := by
  have actsTo := s.actsTo_act acts
  generalize (s.outlets.perform acts).1 = left at actsTo
  generalize s.act acts = t at actsTo
  cases actsTo with
  | finish => exact ⟨rfl, rfl, rfl, fun _ => rfl⟩
  | left => exact ⟨rfl, rfl, rfl, id⟩
  | recompile due =>
      obtain ⟨debouncer, rfl⟩ := recompileIfDue_eq_some due
      exact ⟨rfl, rfl, rfl, id⟩

/-- What a session comes to is in these respects what it is. -/
theorem quiet_frame (w : Worker) (s : Session) :
    (s.quiet w).broker.parked = s.broker.parked ∧
      (s.quiet w).broker.connection = s.broker.connection ∧ (s.quiet w).ending? = s.ending? := by
  cases agenda : s.agenda with
  | nil =>
      rw [quiet_of_idle agenda]
      exact ⟨rfl, rfl, rfl⟩
  | cons a rest =>
      have phase := phase_of_agenda agenda
      obtain ⟨parked, connection, ending, -⟩ := (s.alone w).acted_act (a :: rest)
      rw [quiet_of_phase phase, parked, connection, ending, ending?, phase]
      exact ⟨rfl, rfl, rfl⟩

/-- The quiet session has called whom the session has called. -/
theorem Uncalled.calls_quiet (uncalled : s.Uncalled) :
    (s.quiet w).teardown.calls = s.teardown.calls := by
  cases phase : s.phase with
  | serving acts =>
      have nothing := uncalled acts phase
      cases acts with
      | nil => rw [quiet_of_idle (agenda_of_phase phase), alone]
      | cons a rest =>
          rw [quiet_of_phase phase, nothing]
          exact ((s.alone w).acted_act _).calls nothing
  | closing ending => rw [quiet_of_idle (by simp [agenda, phase]), alone]
  | ended ending => rw [quiet_of_idle (by simp [agenda, phase]), alone]

/-- What comes in does so whatever the broker is busy with. -/
theorem quiet_intake (uncalled : s.Uncalled) {m : Move} (isIntake : m.isIntake = true) :
    (s.apply m).quiet w = (s.quiet w).apply m := by
  have whole : s.withIntake s.intake = s := rfl
  have quiet : (s.quiet w).withIntake s.intake = s.quiet w := by
    rw [← quiet_withIntake, whole]
  have here := apply_withIntake s.intake isIntake (rfl : s.teardown.calls = s.teardown.calls)
  have there := apply_withIntake s.intake isIntake (uncalled.calls_quiet (w := w))
  rw [whole] at here there
  rw [quiet] at there
  rw [here, quiet_withIntake, there]

/-- A move that the other workers do not notice, unless it is one of the broker. -/
theorem alone_of_hides {m : Move} (hides : s.hides w m = true) (other : m ≠ .step .broker) :
    (s.apply m).alone w = s.alone w := by
  cases m with
  | step task =>
      cases task with
      | gate =>
          simp only [apply, step, stepGate]
          cases s.gate.step s.client !s.gateInUse <;> rfl
      | support =>
          simp only [apply, step, stepSupport]
          cases s.support.step s.gate.inbox !s.hasEmitter false <;> rfl
      | analysis =>
          simp only [apply, step, stepAnalysis]
          cases s.analysis with
          | none => rfl
          | some relay =>
              simp only [Option.bind_some]
              cases relay.step s.gate.inbox !s.hasEmitter true <;> rfl
      | broker => exact absurd rfl other
      | _ => cases hides
  | emit v e =>
      simp only [apply]
      cases emitted : s.emit v e with
      | error refusal => rfl
      | ok t =>
          rcases emit_eq_ok emitted with ⟨relay, inbox, -, -, rfl⟩ | ⟨inbox, -, rfl⟩ <;> rfl
  | readWorker v count =>
      obtain rfl : v = w := eq_of_beq hides
      simp only [apply, readWorker, alone, Topology.hide_take_self]
  | stopWorker v =>
      obtain rfl : v = w := eq_of_beq hides
      simp only [apply, stopWorker, muteWorker, alone, Topology.hide_close_self]
  | muteWorker v => rfl
  | readClient count => rfl
  | closeClient => rfl
  | _ => cases hides

/-- A hidden move makes no difference to the quiet session. -/
theorem quiet_of_hides {m : Move} (hides : s.hides w m = true) :
    (s.apply m).quiet w = s.quiet w := by
  by_cases own : m = .step .broker
  · subst own
    cases agenda : s.agenda with
    | nil => simp [Session.hides, agenda] at hides
    | cons a rest =>
        have phase := phase_of_agenda agenda
        simp only [apply, step, stepBroker, phase]
        split
        · exact (quiet_act w s (a :: rest)).trans (quiet_of_phase phase).symm
        · rfl
  · exact congrArg completed (alone_of_hides hides own)

/-- An idle broker does not notice what is left aside. -/
theorem stepBroker_alone (w : Worker) (idle : s.agenda = []) :
    (s.alone w).stepBroker = s.stepBroker.map (·.quiet w) := by
  have due := alone_recompileIfDue w s
  have recompiled {t : Session} (due : s.recompileIfDue = some t) : t.quiet w = t.alone w :=
    quiet_of_idle (by rw [agenda, phase_of_recompileIfDue due]; exact idle)
  cases phase : s.phase with
  | serving acts =>
      obtain rfl : acts = [] := (agenda_of_phase phase).symm.trans idle
      have same : (s.alone w).phase = .serving [] := phase
      have cancelled : (s.alone w).cancelled = s.cancelled := rfl
      simp only [stepBroker, phase, same, cancelled]
      cases s.cancelled with
      | true => rfl
      | false =>
          simp only [Bool.false_eq_true, if_false, due]
          cases recompile : s.recompileIfDue with
          | some t => simp [recompiled recompile]
          | none =>
              have inbox : (s.alone w).inbox = s.inbox := rfl
              have senders : (s.alone w).hasSender = s.hasSender := rfl
              simp only [Option.map_none, Option.none_or, receive, inbox, senders]
              cases s.inbox.next? with
              | none => cases s.hasSender <;> rfl
              | some taken =>
                  obtain ⟨m, inbox⟩ := taken
                  exact congrArg some (quiet_act w
                    { s with inbox, broker := (s.broker.handle s.now m).1 }
                    (s.broker.handle s.now m).2).symm
  | closing ending =>
      have same : (s.alone w).phase = .closing ending := phase
      have teardown : (s.alone w).teardown.step (s.alone w).collaborators (s.alone w).watchEnded
          (s.alone w).now = s.teardown.step s.collaborators s.watchEnded s.now := rfl
      simp only [stepBroker, phase, same, stepTeardown, teardown, Option.map_map]
      refine congrArg (Option.map · _) (funext fun t => ?_)
      dsimp only [Function.comp_apply]
      split
      · rfl
      · rw [quiet_of_idle rfl]
        rfl
  | ended ending =>
      have same : (s.alone w).phase = .ended ending := phase
      simp only [stepBroker, phase, same, Option.map_none]

/-- A move of a session whose broker is idle. -/
theorem quiet_of_common {m : Move} (common : s.hides w m = false) (outer : m.isIntake = false)
    (idle : s.agenda = []) : (s.apply m).quiet w = (s.quiet w).apply m := by
  rw [quiet_of_idle idle]
  cases m with
  | step task =>
      cases task with
      | broker =>
          simp only [apply, step, stepBroker_alone w idle]
          cases s.stepBroker with
          | none => exact quiet_of_idle idle
          | some t => rfl
      | gate => cases common
      | support => cases common
      | analysis => cases common
      | index => cases outer
      | watch number => cases outer
  | readWorker v count =>
      have different : v ≠ w := by simpa [Session.hides] using common
      rw [quiet_of_idle (s := s.apply (.readWorker v count)) idle]
      simp only [apply, readWorker, alone, Topology.hide_take_of_ne _ _ different]
  | stopWorker v =>
      have different : v ≠ w := by simpa [Session.hides] using common
      have muted : (PerWorker.replicate false).set v false = .replicate false := by
        cases v <;> rfl
      rw [quiet_of_idle (s := s.apply (.stopWorker v)) idle]
      simp only [apply, stopWorker, muteWorker, alone, Topology.hide_close_of_ne _ different, muted]
  | advance by_ =>
      rw [quiet_of_idle (s := s.apply (.advance by_)) idle]
      rfl
  | send | dropHandle | finishIndex | watch | fileEvent | cancel => cases outer
  | emit | muteWorker | readClient | closeClient => cases common

/-! ### All moves -/

/-- A step of the broker calls nobody while it serves. -/
theorem Uncalled.stepBroker (uncalled : s.Uncalled) (stepped : s.stepBroker = some t) :
    t.Uncalled := by
  intro acts serving
  unfold Session.stepBroker at stepped
  split at stepped
  · rename_i phase
    split at stepped
    · cases stepped
      exact (acted_act ..).calls (uncalled _ phase)
    · cases stepped
  · rename_i phase
    split at stepped
    · cases stepped
      rfl
    · rcases Option.or_eq_some_iff.mp stepped with due | ⟨-, received⟩
      · obtain ⟨debouncer, rfl⟩ := recompileIfDue_eq_some due
        exact uncalled _ phase
      · unfold receive at received
        split at received
        · rename_i m inbox _
          cases received
          exact (acted_act { s with inbox, broker := (s.broker.handle s.now m).1 } _).calls
            (uncalled _ phase)
        · split at received
          · cases received
          · cases received
            rfl
  · rename_i ending phase
    obtain ⟨teardown, rfl | rfl⟩ := stepTeardown_eq_some stepped
    · change s.phase = _ at serving
      rw [phase] at serving
      cases serving
    · cases serving
  · cases stepped

theorem Uncalled.apply (uncalled : s.Uncalled) (m : Move) : (s.apply m).Uncalled := by
  have hidden {w : Worker} (hides : s.hides w m = true) (other : m ≠ .step .broker) :
      (s.apply m).Uncalled := by
    have alone := alone_of_hides hides other
    have phase := congrArg Session.phase alone
    have teardown := congrArg Session.teardown alone
    change (s.apply m).phase = s.phase at phase
    change (s.apply m).teardown = s.teardown at teardown
    intro acts serving
    rw [teardown]
    exact uncalled acts (phase.symm.trans serving)
  by_cases isIntake : m.isIntake = true
  · have same := apply_withIntake s.intake isIntake (rfl : s.teardown.calls = s.teardown.calls)
    change s.apply m = _ at same
    rw [same]
    exact uncalled
  · cases m with
    | step task =>
        cases task with
        | broker =>
            simp only [Session.apply, step]
            cases stepped : s.stepBroker with
            | none => exact uncalled
            | some t => exact uncalled.stepBroker stepped
        | index => exact absurd rfl isIntake
        | watch number => exact absurd rfl isIntake
        | _ => exact hidden (w := .primary) rfl (by simp)
    | readWorker v count => exact hidden (w := v) (beq_self_eq_true v) (by simp)
    | stopWorker v => exact hidden (w := v) (beq_self_eq_true v) (by simp)
    | advance by_ => exact uncalled
    | send | dropHandle | finishIndex | watch | fileEvent | cancel => exact absurd rfl isIntake
    | emit | muteWorker | readClient | closeClient =>
        exact hidden (w := .primary) rfl (by simp)

/-- **The quiet session follows the common moves.** -/
theorem quiet_run {moves : List Move} (uncalled : s.Uncalled)
    (keepsUp : s.keepsUp w moves = true) :
    (s.run moves).quiet w = (s.quiet w).run (s.common w moves) := by
  induction moves generalizing s with
  | nil => rfl
  | cons m moves ih =>
      simp only [Session.keepsUp, Bool.and_eq_true, Bool.or_eq_true] at keepsUp
      obtain ⟨now, later⟩ := keepsUp
      have rest := ih (uncalled.apply m) later
      change ((s.apply m).run moves).quiet w = _
      rw [rest, common_cons]
      cases hides : s.hides w m with
      | true => rw [if_pos rfl, quiet_of_hides hides]
      | false =>
          rw [if_neg Bool.false_ne_true]
          change _ = ((s.quiet w).apply m).run _
          congr 1
          cases isIntake : m.isIntake with
          | true => exact quiet_intake uncalled isIntake
          | false =>
              rcases now with (hidden | intake) | idle
              · rw [hides] at hidden
                cases hidden
              · rw [isIntake] at intake
                cases intake
              · exact quiet_of_common hides isIntake (List.isEmpty_iff.mp idle)

end Session

end SessionBroker
