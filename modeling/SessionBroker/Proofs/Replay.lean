import SessionBroker.Proofs.EventFlow
import SessionBroker.Proofs.Journal

/-!
What the broker has in hand follows from what happens to it.

`Session.history` lists what happens in some moves: messages that the broker takes, turns in which
it goes on with its work, the time that passes, what workers read and what relays hand to the
gate. It does not say what the broker does with it. `Core` is what the broker has in hand together
with what the gate was sent, and `Core.replay` goes through a history without the mailboxes of
broker, gate and client, and without any task but the broker.
Main statement: `Fresh.replayed`, the replay of the history of a run ends with what the broker
really has in hand.
-/

namespace SessionBroker

/-- Something that happens to what the broker has in hand, or to the gate. -/
inductive Occurrence where
  /-- The broker takes a message out of its mailbox. -/
  | took (message : BrokerMessage)
  /-- The broker goes on with what it has to do. -/
  | worked
  /-- The broker finds that the session was cancelled, or that nobody can send to it any more. -/
  | left (reason : ExitReason)
  | passed (time : Duration)
  /-- A worker reads its mailbox. -/
  | read (worker : Worker) (count : Nat)
  /-- A worker gives up its mailbox. -/
  | stopped (worker : Worker)
  /-- A relay hands an event to the gate. -/
  | arrived (event : Outgoing)
  deriving DecidableEq

/-- What the broker has in hand, and what the gate was sent. -/
structure Core where
  collaborators : Collaborators
  now : Duration
  broker : Broker
  phase : Phase
  teardown : Teardown
  topology : Topology
  /-- The messages that the broker has taken, oldest first. -/
  handled : List BrokerMessage
  /-- What was sent to the gate, whether or not it was still there. -/
  said : List (GateMessage Outgoing)

namespace Core

def leave (k : Core) (ending : Ending) : Core :=
  { k with phase := .closing ending, teardown := .new k.broker.watchers
           broker := { k.broker with watchers := [] } }

def act (k : Core) : List Act → Option Core
  | [] => none
  | .reply _ :: rest => some { k with phase := .serving rest }
  | .emit e :: rest =>
    some { k with phase := .serving rest, said := k.said ++ [.event (.ofBroker e)] }
  | .activate :: rest => some { k with phase := .serving rest, said := k.said ++ [.activate] }
  | .route r :: rest =>
    let (topology, fate) := k.topology.dispatch r
    some { k with phase := .serving (Outlets.followUp r.id fate ++ rest), topology }
  | .finish ending :: _ => some (k.leave ending)

/-- The broker asks for a recompile if that is due. -/
def recompile (k : Core) : Option Core :=
  match k.broker.debouncer.poll k.now with
  | (true, debouncer) =>
    some { k with broker := { k.broker with debouncer }, topology := k.topology.recompileAll }
  | (false, _) => none

/-- A step of the teardown. Whose task is over does not matter, apart from having to wait. -/
def clean (k : Core) (ending : Ending) : Option Core :=
  (k.teardown.step k.collaborators (fun _ => true) k.now).map fun teardown =>
    { k with teardown
             phase := if teardown.stage = .done then .ended ending else .closing ending }

/-- The broker goes on: with its acts, a recompile that is due or the teardown. -/
def work (k : Core) : Option Core :=
  match k.phase with
  | .serving [] => k.recompile
  | .serving acts => k.act acts
  | .closing ending => k.clean ending
  | .ended _ => none

/-- What comes of an occurrence, if it is possible. -/
def next? (k : Core) : Occurrence → Option Core
  | .took m =>
    match k.phase with
    | .serving [] =>
      let (broker, acts) := k.broker.handle k.now m
      some { k with broker, phase := .serving acts, handled := k.handled ++ [m] }
    | _ => none
  | .worked => k.work
  | .left reason =>
    match k.phase with
    | .serving [] => some (k.leave (.exit reason))
    | _ => none
  | .passed time => some { k with now := k.now + time }
  | .read w count => some { k with topology := (k.topology.take w count).2 }
  | .stopped w => some { k with topology := k.topology.close w }
  | .arrived o => some { k with said := k.said ++ [.event o] }

/-- What comes of a history, if it is possible. -/
def replay (k : Core) (history : List Occurrence) : Option Core := history.foldlM next? k

variable {k k' : Core} {o : Occurrence} {history more : List Occurrence}

@[simp] theorem replay_nil (k : Core) : k.replay [] = some k := rfl

@[simp] theorem replay_cons (k : Core) (o : Occurrence) (history : List Occurrence) :
    k.replay (o :: history) = (k.next? o).bind (·.replay history) := rfl

theorem replay_append (k : Core) (history more : List Occurrence) :
    k.replay (history ++ more) = (k.replay history).bind (·.replay more) :=
  List.foldlM_append

theorem replay_concat (k : Core) (history : List Occurrence) (o : Occurrence) :
    k.replay (history ++ [o]) = (k.replay history).bind (·.next? o) := by
  rw [replay_append]
  exact congrArg _ (funext fun k => Option.bind_fun_some (k.next? o))

end Core

/-- A step of a teardown does not depend on whose task is over, apart from having to wait. -/
theorem Teardown.step_of_ended {c : Collaborators} {ended : Nat → Bool} {now : Duration}
    {t u : Teardown} (stepped : t.step c ended now = some u) :
    t.step c (fun _ => true) now = some u := by
  unfold step at stepped ⊢
  split at stepped
  · exact stepped
  · split at stepped
    · split at stepped
      · exact stepped
      · cases stepped
    · exact stepped
  · exact stepped
  · exact stepped
  · exact stepped

namespace Session

variable {c : Config} {s t : Session} {hs : List Happening} {acts : List Act}
  {said : List (GateMessage Outgoing)}

/-! ### Histories -/

/-- What happens when the broker carries out some acts as far as it need not wait. -/
def carrying (s : Session) (acts : List Act) : List Occurrence :=
  List.replicate (s.outlets.carried acts) .worked ++
    match (s.outlets.perform acts).1 with
    | .finish _ :: _ => [.worked]
    | [] => if s.recompileIfDue.isSome then [.worked] else []
    | _ => []

/-- The events that the gate gets by a move. -/
def arrivals (s : Session) (m : Move) : List Occurrence :=
  (Gate.events ((s.apply m).gate.inbox.accepted.drop s.gate.inbox.accepted.length)).map .arrived

def occurrences (s : Session) : Move → List Occurrence
  | .step .broker =>
    match s.phase with
    | .serving [] =>
      if s.cancelled then [.left .cancelled]
      else if s.recompileIfDue.isSome then [.worked]
      else
        match s.inbox.next? with
        | some (m, inbox) =>
          .took m :: { s with inbox, broker := (s.broker.handle s.now m).1 }.carrying
            (s.broker.handle s.now m).2
        | none => if s.hasSender then [] else [.left .disconnected]
    | .serving acts => s.carrying acts
    | .closing ending => if (s.stepTeardown ending).isSome then [.worked] else []
    | .ended _ => []
  | .step .support => s.arrivals (.step .support)
  | .step .analysis => s.arrivals (.step .analysis)
  | .advance time => [.passed time]
  | .readWorker w count => [.read w count]
  | .stopWorker w => [.stopped w]
  | _ => []

theorem occurrences_of_busy {a : Act} {rest : List Act} (phase : s.phase = .serving (a :: rest)) :
    s.occurrences (.step .broker) = s.carrying (a :: rest) := by
  rw [occurrences, phase]

theorem occurrences_of_idle (phase : s.phase = .serving []) :
    s.occurrences (.step .broker) =
      if s.cancelled then [.left .cancelled]
      else if s.recompileIfDue.isSome then [.worked]
      else
        match s.inbox.next? with
        | some (m, inbox) =>
          .took m :: { s with inbox, broker := (s.broker.handle s.now m).1 }.carrying
            (s.broker.handle s.now m).2
        | none => if s.hasSender then [] else [.left .disconnected] := by
  rw [occurrences, phase]

theorem occurrences_of_closing {ending : Ending} (phase : s.phase = .closing ending) :
    s.occurrences (.step .broker) = if (s.stepTeardown ending).isSome then [.worked] else [] := by
  rw [occurrences, phase]

/-- While the broker cannot move nothing happens. -/
theorem occurrences_of_none (stuck : s.stepBroker = none) : s.occurrences (.step .broker) = [] := by
  unfold stepBroker at stuck
  split at stuck
  · rename_i a rest phase
    split at stuck
    · cases stuck
    · rename_i waits
      rw [occurrences_of_busy phase]
      cases a with
      | finish ending => exact absurd rfl waits
      | _ => simp [carrying, Outlets.carried, Outlets.perform, waits]
  · rename_i phase
    rw [occurrences_of_idle phase]
    split at stuck
    · cases stuck
    · rename_i calm
      obtain ⟨due, received⟩ := Option.or_eq_none_iff.mp stuck
      rw [if_neg calm, due, Option.isSome_none, if_neg Bool.false_ne_true]
      unfold receive at received
      cases next : s.inbox.next? with
      | some taken =>
          rw [next] at received
          cases received
      | none =>
          rw [next] at received
          dsimp only at received ⊢
          split at received
          · rename_i someone
            rw [if_pos someone]
          · cases received
  · rename_i ending phase
    rw [occurrences_of_closing phase, stuck]
    rfl
  · rename_i ending phase
    rw [occurrences, phase]

def history (s : Session) : List Move → List Occurrence
  | [] => []
  | m :: moves => s.occurrences m ++ (s.apply m).history moves

/-- What happens in some moves and then in others happens one after the other. -/
theorem history_append (s : Session) (moves more : List Move) :
    s.history (moves ++ more) = s.history moves ++ (s.run moves).history more := by
  induction moves generalizing s with
  | nil => rfl
  | cons m moves ih =>
      simp only [List.cons_append, history, ih, List.append_assoc]
      rfl

theorem history_concat (s : Session) (moves : List Move) (m : Move) :
    s.history (moves ++ [m]) = s.history moves ++ (s.run moves).occurrences m := by
  rw [history_append]
  exact congrArg (s.history moves ++ ·) (List.append_nil _)

/-- What the broker of a session has in hand, when the gate was sent `said`. -/
def core (s : Session) (said : List (GateMessage Outgoing)) : Core :=
  ⟨s.collaborators, s.now, s.broker, s.phase, s.teardown, s.topology, s.handled, said⟩

/-- As long as the client reads, the gate has got all that it was sent. -/
def Tells (s : Session) (said : List (GateMessage Outgoing)) : Prop :=
  s.client.isOpen = true → said = s.gate.inbox.accepted

/-! ### Moves of the broker -/

/-- Carrying out acts is replayed act by act. -/
theorem replay_performsIn {n : Nat} {left : List Act} {p q : Outlets}
    (h : Outlets.PerformsIn n acts p left q) (s : Session) (same : s.outlets = p)
    (said : List (GateMessage Outgoing)) :
    ∃ told, ((s.withAgenda acts).core said).replay (List.replicate n .worked) =
        some (((s.withOutlets q).withAgenda left).core told) ∧
      q.client.isOpen = s.client.isOpen ∧
      (s.gate.inbox.isOpen = true → said = s.gate.inbox.accepted → told = q.gate.accepted) := by
  induction h generalizing s said with
  | refl =>
      subst same
      exact ⟨said, rfl, rfl, fun _ same => same⟩
  | @step n a rest left p q ready unfinished _ ih =>
      subst same
      have go {first : List (GateMessage Outgoing)}
          (one : ((s.withAgenda (a :: rest)).core said).next? .worked =
            some (((s.withOutlets (s.outlets.performOne a).2).withAgenda
              ((s.outlets.performOne a).1 ++ rest)).core first))
          (client : (s.outlets.performOne a).2.client.isOpen = s.client.isOpen)
          (isOpen : (s.outlets.performOne a).2.gate.isOpen = s.gate.inbox.isOpen)
          (log : s.gate.inbox.isOpen = true → said = s.gate.inbox.accepted →
            first = (s.outlets.performOne a).2.gate.accepted) :
          ∃ told, ((s.withAgenda (a :: rest)).core said).replay
              (List.replicate (n + 1) .worked) =
                some (((s.withOutlets q).withAgenda left).core told) ∧
            q.client.isOpen = s.client.isOpen ∧
            (s.gate.inbox.isOpen = true → said = s.gate.inbox.accepted →
              told = q.gate.accepted) := by
        obtain ⟨told, others, there, tells⟩ :=
          ih (s.withOutlets (s.outlets.performOne a).2) rfl first
        refine ⟨told, ?_, there.trans client, fun open_ same => ?_⟩
        · rw [List.replicate_succ, Core.replay_cons, one, Option.bind_some, others]
          rfl
        · exact tells (isOpen.trans open_) (log open_ same)
      have tell (m : GateMessage Outgoing) (ready : s.gate.inbox.isReady = true)
          (isOpen : s.gate.inbox.isOpen = true) (same : said = s.gate.inbox.accepted) :
          said ++ [m] = (Outlets.tell s.gate.inbox m).accepted := by
        rw [Outlets.tell_eq_put ready isOpen, Mailbox.put_accepted, same]
      cases a with
      | reply e => exact go rfl (Outlets.tell_frame _ _).2 rfl fun _ same => same
      | emit e => exact go rfl rfl (Outlets.tell_frame _ _).2 (tell _ ready)
      | activate => exact go rfl rfl (Outlets.tell_frame _ _).2 (tell _ ready)
      | route r => exact go rfl rfl rfl fun _ same => same
      | finish ending => exact absurd rfl (unfinished ending)

/-- A recompile that is due is the broker's next work. -/
theorem replay_of_due (phase : s.phase = .serving []) (due : s.recompileIfDue = some t)
    (said : List (GateMessage Outgoing)) :
    (s.core said).replay [.worked] = some (t.core said) := by
  unfold recompileIfDue at due
  split at due
  · rename_i polled
    cases due
    simp only [core, Core.replay_cons, Core.next?, Core.work, Core.recompile, phase, polled]
    rfl
  · cases due

/-- So is a step of the teardown. -/
theorem replay_of_closing {ending : Ending} (phase : s.phase = .closing ending)
    (stepped : s.stepTeardown ending = some t) (said : List (GateMessage Outgoing)) :
    (s.core said).replay [.worked] = some (t.core said) ∧ t.client = s.client ∧
      t.gate = s.gate := by
  obtain ⟨teardown, next, rfl⟩ := Option.map_eq_some_iff.mp stepped
  simp only [core, Core.replay_cons, Core.next?, Core.work, Core.clean, phase,
    Teardown.step_of_ended next, Option.map_some]
  split <;> exact ⟨rfl, rfl, rfl⟩

/-- Going on with acts is replayed from what is noted about them. -/
theorem replay_carrying (gets : GetsOn s acts hs t)
    (gate : s.client.isOpen = true → s.gate.inbox.isOpen = true) (tells : s.Tells said) :
    ∃ told, ((s.withAgenda acts).core said).replay (s.carrying acts) = some (t.core told) ∧
      t.Tells told := by
  obtain ⟨told, performed, client, log⟩ :=
    replay_performsIn (s.outlets.performsIn_perform acts) s rfl said
  have tells' : (s.outlets.perform acts).2.client.isOpen = true →
      told = (s.outlets.perform acts).2.gate.accepted := fun there =>
    log (gate (client ▸ there)) (tells (client ▸ there))
  unfold carrying
  rw [Core.replay_append, performed, Option.bind_some]
  cases gets with
  | leaves result =>
      rw [result] at tells' ⊢
      exact ⟨told, rfl, tells'⟩
  | @waits a rest p result unfinished =>
      rw [result] at tells' ⊢
      have none_ : (match a :: rest with
          | .finish _ :: _ => [.worked]
          | [] => if s.recompileIfDue.isSome then [.worked] else []
          | _ => ([] : List Occurrence)) = [] := by
        cases a with
        | finish ending => exact absurd rfl (unfinished ending)
        | _ => rfl
      rw [none_]
      exact ⟨told, rfl, tells'⟩
  | rests result due =>
      rw [result] at tells' ⊢
      rw [due]
      exact ⟨told, rfl, tells'⟩
  | @recompiles p t result due =>
      have same : s.recompileIfDue.isSome = true := by
        rw [recompileIfDue_isSome]
        exact (recompileIfDue_eq due).1
      have worked := replay_of_due rfl due told
      obtain ⟨-, rfl⟩ := recompileIfDue_eq due
      rw [result] at tells' ⊢
      rw [same]
      exact ⟨told, worked, tells'⟩

/-- A step of the broker is replayed from what happens in it. -/
theorem replay_broker (proceeds : Proceeds s hs t)
    (gate : ∀ acts, s.phase = .serving acts → s.client.isOpen = true →
      s.gate.inbox.isOpen = true) (tells : s.Tells said) :
    ∃ told, (s.core said).replay (s.occurrences (.step .broker)) = some (t.core told) ∧
      t.Tells told := by
  -- An idle broker that is not to begin the teardown and owes no recompile.
  have idle (phase : s.phase = .serving []) (o : Occurrence) :
      (s.core said).next? o = ({ s.core said with phase := .serving [] }).next? o := by
    rw [← phase]
    rfl
  cases proceeds with
  | cancelled phase cancelled =>
      rw [occurrences_of_idle phase, if_pos cancelled, Core.replay_cons, idle phase]
      exact ⟨said, rfl, tells⟩
  | @recompile t phase calm due =>
      rw [occurrences_of_idle phase, if_neg (by simp [calm]), if_pos (by simp [due])]
      have worked := replay_of_due phase due said
      obtain ⟨-, rfl⟩ := recompileIfDue_eq due
      exact ⟨said, worked, tells⟩
  | @took m inbox hs t phase calm due taken gets =>
      obtain ⟨told, replayed, tells⟩ := replay_carrying gets (gate _ phase) tells
      rw [occurrences_of_idle phase, if_neg (by simp [calm]), if_neg (by simp [due]), taken]
      refine ⟨told, ?_, tells⟩
      rw [Core.replay_cons, idle phase, ← replayed]
      simp only [core, handled, withAgenda, Mailbox.read_next taken]
      rfl
  | disconnected phase calm due empty alone =>
      rw [occurrences_of_idle phase, if_neg (by simp [calm]), if_neg (by simp [due]), empty,
        if_neg (by simp [alone]), Core.replay_cons, idle phase]
      exact ⟨said, rfl, tells⟩
  | @acts a rest hs t phase gets =>
      obtain ⟨told, replayed, tells⟩ := replay_carrying gets (gate _ phase) tells
      rw [occurrences_of_busy phase]
      refine ⟨told, ?_, tells⟩
      rw [← replayed, withAgenda, ← phase]
  | @teardown ending t phase stepped =>
      rw [occurrences_of_closing phase, if_pos (by simp [stepped])]
      obtain ⟨worked, client, gate⟩ := replay_of_closing phase stepped said
      refine ⟨said, worked, ?_⟩
      rw [Tells, client, gate]
      exact tells

/-! ### Moves of others -/

/-- A relay only adds events to what the gate is sent. -/
theorem exists_handed {r r' : Relay} {gate gate' : Mailbox (GateMessage Outgoing)}
    {orphaned : Bool} (stepped : r.step gate orphaned = some (r', gate')) :
    ∃ es : List Outgoing, gate'.accepted = gate.accepted ++ es.map .event := by
  obtain ⟨-, steps⟩ := Relay.steps_of_step stepped
  cases steps with
  | @hand o _ leaving offered =>
      obtain ⟨-, -, rfl⟩ := Mailbox.offer_eq_ok.mp offered
      exact ⟨[o], rfl⟩
  | _ => exact ⟨[], (List.append_nil _).symm⟩

theorem Core.replay_arrived (k : Core) (es : List Outgoing) :
    k.replay (es.map .arrived) = some { k with said := k.said ++ es.map .event } := by
  induction es generalizing k with
  | nil => simp
  | cons o es ih =>
      rw [List.map_cons, Core.replay_cons, Core.next?, Option.bind_some, ih, List.map_cons,
        List.append_assoc, List.singleton_append]

/-- What the gate gets by a move that touches nothing else of what the broker has in hand. -/
theorem replay_arrivals {m : Move} {es : List Outgoing}
    (same : ∀ said, (s.apply m).core said = s.core said)
    (client : (s.apply m).client.isOpen = s.client.isOpen)
    (log : (s.apply m).gate.inbox.accepted = s.gate.inbox.accepted ++ es.map .event)
    (tells : s.Tells said) :
    ∃ told, (s.core said).replay (s.arrivals m) = some ((s.apply m).core told) ∧
      (s.apply m).Tells told := by
  rw [arrivals, log, List.drop_left, Gate.events_map, Core.replay_arrived]
  exact ⟨said ++ es.map .event, congrArg some (same _).symm,
    fun there => by rw [log, tells (client ▸ there)]⟩

/-- What is no occurrence touches neither what the broker has in hand nor what the gate was
sent. -/
theorem replay_still (same : ∀ said, t.core said = s.core said)
    (log : t.gate.inbox.accepted = s.gate.inbox.accepted)
    (client : t.client.isOpen = true → s.client.isOpen = true) (tells : s.Tells said) :
    ∃ told, (s.core said).replay [] = some (t.core told) ∧ t.Tells told :=
  ⟨said, congrArg some (same said).symm, fun there => log ▸ tells (client there)⟩

/-- A message that waits is no part of the core. -/
theorem core_offer (sound : s.inbox.Sound) {m : BrokerMessage} {inbox : Mailbox BrokerMessage}
    (offered : s.inbox.offer m = .ok inbox) (said : List (GateMessage Outgoing)) :
    ({ s with inbox } : Session).core said = s.core said := by
  simp only [core, (aside_offer sound offered).handled]

/-- A relay takes its turn. -/
theorem replay_relay {task : Task} (relays : task = .support ∨ task = .analysis)
    (tells : s.Tells said) :
    ∃ told, (s.core said).replay (s.arrivals (.step task)) =
        some ((s.apply (.step task)).core told) ∧ (s.apply (.step task)).Tells told := by
  cases stepped : s.step task with
  | none =>
      have same : s.apply (.step task) = s := by simp [apply, stepped]
      have log : (s.apply (.step task)).gate.inbox.accepted =
          s.gate.inbox.accepted ++ ([] : List Outgoing).map .event := by simp [same]
      exact replay_arrivals (by simp [same]) (by rw [same]) log tells
  | some t =>
      have same : s.apply (.step task) = t := by simp [apply, stepped]
      obtain ⟨r, r', inbox, orphaned, relayed, log, client, core⟩ :
          ∃ r r' inbox orphaned, Relay.step r s.gate.inbox orphaned = some (r', inbox) ∧
            t.gate.inbox = inbox ∧ t.client = s.client ∧ ∀ said, t.core said = s.core said := by
        rcases relays with rfl | rfl
        · obtain ⟨⟨r', inbox⟩, relayed, rfl⟩ := Option.map_eq_some_iff.mp stepped
          exact ⟨_, r', inbox, _, relayed, rfl, rfl, fun _ => rfl⟩
        · obtain ⟨r, -, stepped⟩ := Option.bind_eq_some_iff.mp stepped
          obtain ⟨⟨r', inbox⟩, relayed, rfl⟩ := Option.map_eq_some_iff.mp stepped
          exact ⟨r, r', inbox, _, relayed, rfl, rfl, fun _ => rfl⟩
      obtain ⟨es, more⟩ := exists_handed relayed
      exact replay_arrivals (by rwa [same]) (by rw [same, client]) (by rw [same, log, more]) tells

/-- A step of another task is replayed from what happens in it. -/
theorem replay_step (sound : s.inbox.Sound) {task : Task} (other : task ≠ .broker)
    (tells : s.Tells said) :
    ∃ told, (s.core said).replay (s.occurrences (.step task)) =
        some ((s.apply (.step task)).core told) ∧ (s.apply (.step task)).Tells told := by
  cases task with
  | broker => exact absurd rfl other
  | support => exact replay_relay (.inl rfl) tells
  | analysis => exact replay_relay (.inr rfl) tells
  | gate =>
      change ∃ told, (s.core said).replay [] = _ ∧ _
      simp only [apply, step]
      cases stepped : s.stepGate with
      | none => exact replay_still (fun _ => rfl) rfl id tells
      | some t =>
          obtain ⟨⟨g, client⟩, gated, rfl⟩ := Option.map_eq_some_iff.mp stepped
          obtain ⟨-, log, there⟩ := Gate.step_frame gated
          exact replay_still (fun _ => rfl) log (fun open_ => there ▸ open_) tells
  | index =>
      change ∃ told, (s.core said).replay [] = _ ∧ _
      simp only [apply, step]
      cases stepped : s.stepIndex with
      | none => exact replay_still (fun _ => rfl) rfl id tells
      | some t =>
          rcases stepIndex_eq_some stepped with ⟨index, rfl⟩ | ⟨outcome, inbox, index, offered, rfl⟩
          · exact replay_still (fun _ => rfl) rfl id tells
          · exact replay_still (core_offer sound offered) rfl id tells
  | watch number =>
      change ∃ told, (s.core said).replay [] = _ ∧ _
      simp only [apply, step]
      cases stepped : s.stepWatch number with
      | none => exact replay_still (fun _ => rfl) rfl id tells
      | some t =>
          rcases stepWatch_eq_some stepped with
            ⟨watches, rfl⟩ | ⟨change, inbox, watches, offered, rfl⟩
          · exact replay_still (fun _ => rfl) rfl id tells
          · exact replay_still (core_offer sound offered) rfl id tells

/-- A move of others is replayed from what happens in it. -/
theorem replay_aside (sound : s.inbox.Sound) {m : Move} (other : m ≠ .step .broker)
    (tells : s.Tells said) :
    ∃ told, (s.core said).replay (s.occurrences m) = some ((s.apply m).core told) ∧
      (s.apply m).Tells told := by
  cases m with
  | step task => exact replay_step sound (fun same => other (by rw [same])) tells
  | send m =>
      change ∃ told, (s.core said).replay [] = _ ∧ _
      simp only [apply]
      cases sent : s.send m with
      | error refusal => exact replay_still (fun _ => rfl) rfl id tells
      | ok t =>
          obtain ⟨inbox, offered, rfl⟩ := send_eq_ok sent
          exact replay_still (core_offer sound offered) rfl id tells
  | emit w e =>
      change ∃ told, (s.core said).replay [] = _ ∧ _
      simp only [apply]
      cases emitted : s.emit w e with
      | error refusal => exact replay_still (fun _ => rfl) rfl id tells
      | ok t =>
          rcases emit_eq_ok emitted with ⟨relay, inbox, -, -, rfl⟩ | ⟨inbox, -, rfl⟩ <;>
            exact replay_still (fun _ => rfl) rfl id tells
  | finishIndex outcome =>
      change ∃ told, (s.core said).replay [] = _ ∧ _
      simp only [apply, finishIndex]
      split <;> exact replay_still (fun _ => rfl) rfl id tells
  | closeClient => exact ⟨said, rfl, fun there => absurd there Bool.false_ne_true⟩
  | advance | readWorker | stopWorker => exact ⟨said, rfl, tells⟩
  | _ => exact replay_still (fun _ => rfl) rfl id tells

/-! ### Runs -/

/-- The broker's part of a run is replayed from what happens in it. -/
theorem Fresh.replayed (fresh : s.Fresh c) (moves : List Move) :
    ∃ told, (s.core []).replay (s.history moves) = some ((s.run moves).core told) ∧
      (s.run moves).Tells told := by
  induction moves using List.reverseRecOn with
  | nil => exact ⟨[], rfl, fun _ => by rw [run, List.foldl_nil, fresh.gate]; rfl⟩
  | append_singleton moves m ih =>
      obtain ⟨out, reached⟩ := reaches_run (fun _ => True) s moves fun _ _ _ => trivial
      obtain ⟨said, replayed, tells⟩ := ih
      rw [history_concat, run_concat, Core.replay_append, replayed, Option.bind_some]
      by_cases own : m = .step .broker
      · subst own
        cases stepped : (s.run moves).stepBroker with
        | none =>
            rw [occurrences_of_none stepped]
            simp only [apply, step, stepped]
            exact ⟨said, rfl, tells⟩
        | some t =>
            simp only [apply, step, stepped]
            exact replay_broker (proceeds_of_stepBroker stepped) (fun acts phase there =>
              (fresh.attending_of_reaches reached).isOpen_of_phase there phase) tells
      · exact replay_aside (fresh.orderly_of_reaches reached).sound own tells

end Session

end SessionBroker
