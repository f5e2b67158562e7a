import SessionBroker.Proofs.Cleanup
import SessionBroker.Proofs.Decision
import SessionBroker.Proofs.Isolation
import SessionBroker.Proofs.Watches

/-!
How sessions end.

`Session.CleansUp` says how far a session has come with its teardown; every run keeps it
(`Fresh.cleansUp`). Once it is certain that a session ends the broker gets to the teardown
(`Fresh.exists_closing`), and the teardown to its end if those that it calls do what they are
asked for (`Fresh.exists_end`). Main statement: `ends_as_first_decided`.
-/

namespace SessionBroker

def BrokerMessage.watcher? : BrokerMessage → Option Watcher
  | .watcher w => some w
  | _ => none

/-- Whether a move is one of the session itself: a task moves, time passes or the client
reads. -/
def Move.isOwn : Move → Bool
  | .step _ | .advance _ | .readClient _ => true
  | _ => false

/-- Handling a message registers its watcher and no other. -/
theorem Broker.watchers_handle (b : Broker) (now : Duration) (m : BrokerMessage) :
    (b.handle now m).1.watchers = b.watchers ++ m.watcher?.toList := by
  have handles := b.handles_handle now m
  generalize (b.handle now m).1 = b' at handles
  generalize (b.handle now m).2 = acts at handles
  cases handles with
  | watcher => rfl
  | _ => exact (List.append_nil _).symm

namespace Session

variable {c : Config} {s t u : Session} {hs : List Happening} {acts : List Act}
  {ending : Ending}

/-- The watchers whose registration was handled, in order. -/
def registered (s : Session) : List Watcher := s.handled.filterMap BrokerMessage.watcher?

theorem registered_congr (handled : t.handled = s.handled) : t.registered = s.registered :=
  congrArg (List.filterMap BrokerMessage.watcher?) handled

/-! ### How far the teardown is -/

/-- How far a session has come with its teardown. -/
inductive CleansUp (s : Session) : Prop
  /-- The broker serves and keeps the watchers that are to be stopped. -/
  | before {acts : List Act} :
      s.phase = .serving acts → s.broker.watchers = s.registered → s.teardown.calls = [] →
      CleansUp s
  | during {ending : Ending} :
      s.phase = .closing ending → s.teardown.stage ≠ .done →
      s.teardown.Underway s.registered → CleansUp s
  | after_ {ending : Ending} :
      s.phase = .ended ending → s.teardown.stage = .done → s.teardown.Underway s.registered →
      s.released = true → CleansUp s

/-- A session that serves has registered watchers and called none. -/
theorem CleansUp.of_serving (cleansUp : s.CleansUp) (phase : s.phase = .serving acts) :
    s.broker.watchers = s.registered ∧ s.teardown.calls = [] := by
  cases cleansUp with
  | before _ watchers calls => exact ⟨watchers, calls⟩
  | during same | after_ same =>
      rw [phase] at same
      cases same

/-- A teardown that goes on is under way with the watchers that were registered. -/
theorem CleansUp.of_closing (cleansUp : s.CleansUp) (phase : s.phase = .closing ending) :
    s.teardown.stage ≠ .done ∧ s.teardown.Underway s.registered := by
  cases cleansUp with
  | during _ going underway => exact ⟨going, underway⟩
  | before same | after_ same =>
      rw [phase] at same
      cases same

/-- When the session is over all calls were made, and the workers told to end. -/
theorem CleansUp.all_of_over (cleansUp : s.CleansUp) (ended : s.isOver = true) :
    s.teardown.calls = Teardown.callsFor s.registered ∧ s.workersCancelled = true := by
  cases cleansUp with
  | before phase | during phase => simp [isOver, ending?, phase] at ended
  | after_ _ done underway released =>
      exact ⟨underway.all done, by simp [workersCancelled, released]⟩

/-- From a session to a later one the teardown goes on and takes nothing back. -/
structure Advances (s t : Session) : Prop where
  cleansUp : t.CleansUp
  calls : s.teardown.calls <+: t.teardown.calls

theorem advances_beginTeardown (watchers : s.broker.watchers = s.registered)
    (uncalled : s.teardown.calls = []) (ending : Ending) :
    Advances s (s.beginTeardown ending) := by
  constructor
  · refine .during rfl nofun ?_
    change (Teardown.new s.broker.watchers).Underway s.registered
    rw [watchers]
    exact Teardown.underway_new _
  · rw [uncalled]
    exact List.nil_prefix

/-- Going on with its acts the broker gets to the teardown or stays ahead of it. -/
theorem GetsOn.advances (h : GetsOn s acts hs t) (watchers : s.broker.watchers = s.registered)
    (uncalled : s.teardown.calls = []) : Advances s t := by
  cases h with
  | @leaves ending rest p =>
      obtain ⟨later, calls⟩ := advances_beginTeardown (s := s.withOutlets p) watchers uncalled ending
      exact ⟨later, calls⟩
  | waits | rests => exact ⟨.before rfl watchers uncalled, List.prefix_rfl⟩
  | recompiles _ due =>
      obtain ⟨-, rfl⟩ := recompileIfDue_eq due
      exact ⟨.before rfl watchers uncalled, List.prefix_rfl⟩

/-- A move of the teardown is one of its steps; the last one ends the session. -/
theorem stepTeardown_cases (stepped : s.stepTeardown ending = some t) :
    ∃ teardown, s.teardown.step s.collaborators s.watchEnded s.now = some teardown ∧
      ((teardown.stage ≠ .done ∧ t = { s with teardown }) ∨
        (teardown.stage = .done ∧ t = conclude { s with teardown } ending)) := by
  obtain ⟨teardown, next, rfl⟩ := Option.map_eq_some_iff.mp stepped
  refine ⟨teardown, next, ?_⟩
  dsimp only
  split
  · rename_i done
    exact .inr ⟨done, rfl⟩
  · rename_i going
    exact .inl ⟨going, rfl⟩

/-- A step of the broker takes nothing of the teardown back. -/
theorem Proceeds.advances (h : Proceeds s hs t) (cleansUp : s.CleansUp) : Advances s t := by
  cases h with
  | cancelled phase | disconnected phase =>
      obtain ⟨watchers, uncalled⟩ := cleansUp.of_serving phase
      exact advances_beginTeardown watchers uncalled _
  | recompile phase _ due =>
      obtain ⟨watchers, uncalled⟩ := cleansUp.of_serving phase
      obtain ⟨-, rfl⟩ := recompileIfDue_eq due
      exact ⟨.before phase watchers uncalled, List.prefix_rfl⟩
  | @took m inbox hs t phase _ _ taken gets =>
      obtain ⟨watchers, uncalled⟩ := cleansUp.of_serving phase
      have read : inbox.read = s.handled ++ [m] := Mailbox.read_next taken
      have watchers' : (s.broker.handle s.now m).1.watchers =
          inbox.read.filterMap BrokerMessage.watcher? := by
        rw [Broker.watchers_handle, watchers, read, List.filterMap_append, registered]
        cases m <;> rfl
      obtain ⟨later, calls⟩ := gets.advances watchers' uncalled
      exact ⟨later, calls⟩
  | acts phase gets =>
      obtain ⟨watchers, uncalled⟩ := cleansUp.of_serving phase
      exact gets.advances watchers uncalled
  | teardown phase stepped =>
      obtain ⟨-, underway⟩ := cleansUp.of_closing phase
      obtain ⟨teardown, next, ⟨going, rfl⟩ | ⟨done, rfl⟩⟩ := stepTeardown_cases stepped
      · obtain ⟨underway', calls⟩ := underway.step next
        exact ⟨.during phase going underway', calls⟩
      · obtain ⟨underway', calls⟩ := underway.step next
        exact ⟨.after_ rfl done underway' rfl, calls⟩

theorem Aside.advances (aside : Aside s t) (cleansUp : s.CleansUp) : Advances s t := by
  have registered := registered_congr aside.handled
  constructor
  · cases cleansUp with
    | before phase watchers uncalled =>
        refine .before (aside.phase.trans phase) ?_ ?_
        · rw [aside.broker, registered, watchers]
        · rw [aside.teardown, uncalled]
    | during phase going underway =>
        refine .during (aside.phase.trans phase) ?_ ?_
        · rw [aside.teardown]
          exact going
        · rw [aside.teardown, registered]
          exact underway
    | after_ phase done underway released =>
        refine .after_ (aside.phase.trans phase) ?_ ?_ (aside.released.trans released)
        · rw [aside.teardown, done]
        · rw [aside.teardown, registered]
          exact underway
  · exact aside.teardown.symm ▸ List.prefix_rfl

/-- Nothing has been torn down at the start, and the settings are those of the
configuration. -/
theorem cleansUp_start {f : Staffing} {search files : Behaviour} {size : Nat}
    (started : start c f search files size = .ok s) :
    s.CleansUp ∧ s.broker.exitAfterIndex = c.index.exitAfterIndex := by
  obtain ⟨broker, made, rfl⟩ := exists_of_start started
  cases debounced : Debouncer.ofConfig c.watcher <;> rw [Broker.ofConfig, debounced] at made <;>
    cases made
  exact ⟨.before rfl rfl rfl, rfl⟩

/-- In every run the teardown has come so far. -/
theorem Fresh.cleansUp (fresh : s.Fresh c) (initial : s.CleansUp) (moves : List Move) :
    (s.run moves).CleansUp := by
  refine fresh.run_induction (P := fun _ t => t.CleansUp) initial ?_ ?_ moves
  · intro _ t u hs _ cleansUp proceeds
    exact (proceeds.advances cleansUp).cleansUp
  · intro _ t u cleansUp aside
    exact (aside.advances cleansUp).cleansUp

/-- The teardown takes no call back. -/
theorem Fresh.calls_prefix (fresh : s.Fresh c) (initial : s.CleansUp)
    (earlier later : List Move) :
    (s.run earlier).teardown.calls <+: (s.run (earlier ++ later)).teardown.calls := by
  induction later using List.reverseRecOn with
  | nil => simpa only [List.append_nil] using List.prefix_rfl
  | append_singleton later m ih =>
      have orderly := fresh.orderly_of_run (earlier ++ later)
      have cleansUp := fresh.cleansUp initial (earlier ++ later)
      rw [← List.append_assoc, run_concat]
      refine ih.trans ?_
      rcases apply_cases orderly.sound m with ⟨-, proceeds⟩ | ⟨-, aside⟩
      · exact (proceeds.advances cleansUp).calls
      · exact (aside.advances cleansUp).calls

/-! ### The way to the teardown -/

/-- The broker has nothing left to carry out. -/
def Idle (s : Session) : Prop := s.agenda = []

/-- Going on with its acts the broker leaves the way of messages to it alone. -/
theorem GetsOn.intake (h : GetsOn s acts hs t) : t.intake = s.intake := by
  cases h with
  | leaves | waits | rests => rfl
  | recompiles _ due =>
      obtain ⟨-, rfl⟩ := recompileIfDue_eq due
      rfl

/-- Whoever the broker waits for can move once the client has read everything, if there still
is a client. -/
theorem Fresh.busy (fresh : s.Fresh c) (room : 0 < s.client.capacity) {out : List Event}
    {allowed : Move → Prop} (h : Reaches allowed s out t) (read : t.client.waiting = [])
    {a : Act} {rest : List Act} (phase : t.phase = .serving (a :: rest)) :
    ∃ task u, t.GoesOn task ∧ t.step task = some u ∧ u.burden < t.burden ∧
      u.intake = t.intake := by
  have told := fresh.told_of_reaches h
  have grown := fresh.orderly.grown h
  have client : t.client.isReady = true := by
    have empty : t.client.isFull = false :=
      Mailbox.isFull_of_waiting (by rw [grown.clientSize]; exact room) read
    simp [Mailbox.isReady, empty]
  cases ready : t.outlets.canPerform a with
  | true =>
      obtain ⟨u, stepped, less, -⟩ := burden_stepBroker phase ready
      refine ⟨.broker, u, .inr ⟨rfl, by simp [Session.agenda, phase]⟩, stepped, less, ?_⟩
      have same : t.step .broker = some (t.act (a :: rest)) := by
        simp [step, stepBroker, phase, ready]
      rw [same] at stepped
      cases stepped
      exact (t.getsOn_act _).intake
  | false =>
      -- The broker waits for the gate, so the gate is there and has a message to read.
      have gate : t.gate.inbox.isReady = false := by
        cases a <;> simp_all [Outlets.canPerform, outlets]
      obtain ⟨isOpen, full⟩ : t.gate.inbox.isOpen = true ∧ t.gate.inbox.isFull = true := by
        simpa [Mailbox.isReady] using gate
      have waits : t.gate.inbox.waiting ≠ [] := by
        intro nothing
        have size : 0 < t.gate.inbox.capacity := by
          rw [grown.gateSize, fresh.gate]
          exact (by decide : 0 < Gate.mailboxSize)
        rw [Mailbox.isFull_of_waiting size nothing] at full
        cases full
      obtain ⟨g, client', stepped, less⟩ := Gate.step_of_waiting (!t.gateInUse)
        (told.flow.running.trans isOpen) client waits
      refine ⟨.gate, { t with gate := g, client := client' }, .inl rfl, ?_, ?_, rfl⟩
      · simp [step, stepGate, stepped]
      · simpa only [burden, Session.agenda] using Nat.add_lt_add_left less _

/-- Once it is certain that a session ends, the broker gets to the teardown. -/
theorem Fresh.exists_closing (fresh : s.Fresh c) (room : 0 < s.client.capacity)
    {moves : List Move} (ends : (s.run moves).decided = some ending) :
    ∃ more, (∀ m ∈ more, m.isOwn = true) ∧
      ((s.run (moves ++ more)).phase = .closing ending ∨
        (s.run (moves ++ more)).phase = .ended ending) ∧
      (s.run (moves ++ more)).intake = (s.run moves).intake := by
  obtain ⟨out, reached⟩ := reaches_run (fun _ => True) s moves fun _ _ _ => trivial
  have progress {u : Session} {out : List Event} (reached : Reaches (fun _ => True) s out u)
      (same : u.intake = (s.run moves).intake) (read : u.client.waiting = []) :
      u.Idle ∨ ∃ task v, u.GoesOn task ∧ u.step task = some v ∧ v.burden < u.burden ∧
        v.intake = (s.run moves).intake := by
    cases agenda : u.agenda with
    | nil => exact .inl agenda
    | cons a rest =>
        obtain ⟨task, v, goesOn, stepped, less, intake⟩ :=
          fresh.busy room reached read (phase_of_agenda agenda)
        exact .inr ⟨task, v, goesOn, stepped, less, intake.trans same⟩
  obtain ⟨more, turns, idle, same⟩ := exists_turns GoesOn burden progress (fun _ => trivial) id
    (fun _ => rfl) reached rfl
  refine ⟨more, turns.forall_mem (fun _ => rfl) fun _ => rfl, ?_, run_append .. ▸ same⟩
  have certain := (fresh.decided_run ends more).1
  rw [← run_append, Idle] at idle
  unfold decided at certain
  cases phase : (s.run (moves ++ more)).phase with
  | serving acts =>
      rw [agenda_of_phase phase] at idle
      simp [phase, idle] at certain
  | closing e =>
      simp only [phase, Option.some.injEq] at certain
      exact .inl (certain ▸ rfl)
  | ended e =>
      simp only [phase, Option.some.injEq] at certain
      exact .inr (certain ▸ rfl)

/-! ### The way through the teardown -/

/-- Those that a teardown calls do what they are asked for: the file system closes, the
watchers whose registration was handled stop, and watches of files do not wait for the broker.
For the search engine there is a time limit. -/
structure Obliging (s : Session) : Prop where
  files : s.collaborators.files ≠ .hangs
  watchers : ∀ w ∈ s.registered, w.stop ≠ .behaves .hangs
  watches : s.CanDeliver

theorem Behaviour.finishes_of_ne {b : Behaviour} (answers : b ≠ .hangs) :
    ∃ after error, b = .finishes after error := by
  cases b with
  | finishes after error => exact ⟨after, error, rfl⟩
  | hangs => exact absurd rfl answers

/-- A watch whose watcher was called is told to stop. -/
theorem watchStopped_of_told {name : String} {n : Nat}
    (told : TeardownCall.stopWatcher ⟨name, .awaits n⟩ ∈ s.teardown.calls) :
    s.watchStopped n = true := by
  rw [watchStopped, Bool.or_eq_true, List.any_eq_true]
  exact .inr ⟨_, told, beq_self_eq_true n⟩

/-- The watcher that is being stopped answers, or its task ends by its own moves. -/
theorem Obliging.exists_stopped (obliging : s.Obliging)
    (underway : s.teardown.Underway s.registered) :
    ∃ before inbox watches, (∀ m ∈ before, m.isOwn = true) ∧
      s.run before = { s with inbox, watches } ∧ CanDeliver { s with inbox, watches } ∧
      ∀ w since, s.teardown.stage = .stopping w since →
        (∃ after error, w.stop = .behaves (.finishes after error)) ∨
          ∃ n, w.stop = .awaits n ∧ watchEnded { s with inbox, watches } n = true := by
  by_cases awaits : ∃ name n since, s.teardown.stage = .stopping ⟨name, .awaits n⟩ since
  · obtain ⟨name, n, since, stage⟩ := awaits
    have told := watchStopped_of_told (underway.told _ _ stage)
    obtain ⟨count, inbox, watches, run, ended, can⟩ := obliging.watches.ends told
    refine ⟨_, inbox, watches, ?_, run, can, ?_⟩
    · intro m mem
      rw [List.eq_of_mem_replicate mem]
      rfl
    · intro w since' stage'
      rw [stage] at stage'
      cases stage'
      exact .inr ⟨n, rfl, ended⟩
  · refine ⟨[], s.inbox, s.watches, by simp, rfl, obliging.watches, ?_⟩
    rintro ⟨name, stop⟩ since stage
    cases stop with
    | awaits n => exact absurd ⟨name, n, since, stage⟩ awaits
    | behaves b =>
        left
        have answers : b ≠ .hangs := by
          rintro rfl
          exact obliging.watchers _ (underway.mem stage) rfl
        obtain ⟨after, error, rfl⟩ := Behaviour.finishes_of_ne answers
        exact ⟨after, error, rfl⟩

/-- The teardown gets on by one step. -/
theorem Obliging.exists_step (obliging : s.Obliging) (phase : s.phase = .closing ending)
    (going : s.teardown.stage ≠ .done) (underway : s.teardown.Underway s.registered) :
    ∃ more, (∀ m ∈ more, m.isOwn = true) ∧
      ((s.run more).phase = .ended ending ∨
        (s.run more).phase = .closing ending ∧ (s.run more).CanDeliver ∧
          (s.run more).teardown.left < s.teardown.left) := by
  obtain ⟨before, inbox, watches, own, run, can, stopped⟩ := obliging.exists_stopped underway
  obtain ⟨wait, teardown, next⟩ := Teardown.exists_step (c := s.collaborators) going s.now stopped
    (Behaviour.finishes_of_ne obliging.files)
  have less := Teardown.left_step next
  let t : Session := { s with inbox, watches, now := s.now + wait }
  have after_ : s.run (before ++ [.advance wait, .step .broker]) = (t.stepBroker).getD t := by
    rw [run_append, run]
    rfl
  have moved : t.stepBroker = t.stepTeardown ending := by
    simp only [stepBroker, t, phase]
  have stepped : t.stepTeardown ending = some
      (if teardown.stage = .done then conclude { t with teardown } ending
        else { t with teardown }) := by
    change (s.teardown.step s.collaborators t.watchEnded (s.now + wait)).map _ = _
    rw [show s.teardown.step s.collaborators t.watchEnded (s.now + wait) = some teardown from next]
    rfl
  refine ⟨before ++ [.advance wait, .step .broker], ?_, ?_⟩
  · exact List.forall_mem_append.mpr ⟨own, by simp [Move.isOwn]⟩
  · rw [after_, moved, stepped, Option.getD_some]
    split
    · exact .inl rfl
    · exact .inr ⟨phase, can, less⟩

/-- If everyone obliges when the end is decided, they still do later. -/
theorem Fresh.obliging_run (fresh : s.Fresh c) {earlier later : List Move}
    (ends : (s.run earlier).decided = some ending) (obliging : (s.run earlier).Obliging)
    (can : (s.run (earlier ++ later)).CanDeliver) : (s.run (earlier ++ later)).Obliging := by
  obtain ⟨-, -, handled, -⟩ := fresh.decided_run ends later
  refine ⟨?_, ?_, can⟩
  · rw [(fresh.steady (earlier ++ later)).collaborators, ← (fresh.steady earlier).collaborators]
    exact obliging.files
  · rw [registered_congr handled]
    exact obliging.watchers

/-- A teardown comes to its end if those that it calls do what they are asked for. -/
theorem Fresh.exists_end (fresh : s.Fresh c) (initial : s.CleansUp) {moves : List Move}
    (phase : (s.run moves).phase = .closing ending) (obliging : (s.run moves).Obliging) :
    ∃ more, (∀ m ∈ more, m.isOwn = true) ∧ (s.run (moves ++ more)).phase = .ended ending := by
  generalize size : (s.run moves).teardown.left = n
  induction n using Nat.strongRecOn generalizing moves with
  | ind n ih =>
      obtain ⟨going, underway⟩ := (fresh.cleansUp initial moves).of_closing phase
      obtain ⟨first, own, ended | ⟨phase', can, less⟩⟩ :=
        obliging.exists_step phase going underway
      · exact ⟨first, own, run_append .. ▸ ended⟩
      · rw [← run_append] at phase' can less
        have ends : (s.run moves).decided = some ending := by rw [decided, phase]
        obtain ⟨rest, own', ended⟩ :=
          ih _ (size ▸ less) phase' (fresh.obliging_run ends obliging can) rfl
        exact ⟨first ++ rest, List.forall_mem_append.mpr ⟨own, own'⟩,
          List.append_assoc .. ▸ ended⟩

/-- Whether a change can be delivered is a matter of the way of messages to the broker. -/
theorem canDeliver_of_intake (same : t.intake = s.intake) (can : s.CanDeliver) :
    t.CanDeliver := by
  change t.intake.hasSender = false ∨
    (t.intake.watches.flatMap Watch.delivering).length ≤ t.intake.inbox.room
  rw [same]
  exact can

end Session

/-! ### Main statement -/

open Session in
/-- **How a session ends is decided once, and then everything is cleaned up.** In every run
that ends, or has come to its teardown, the ending is that of the first thing that the loop did
of those that end a session; it is the last that the loop does at all, and from then on no
worker is told anything. When the session is over all watchers whose registration was handled
were stopped, in order, then the search engine was shut down, then the file system closed, each
of them once; and the workers are cancelled. Once the loop has done what ends a session, the
session does get to that end by moves of its own, if those that the teardown calls do what they
are asked for. -/
theorem ends_as_first_decided {c : Config} {f : Staffing} {search files : Behaviour} {size : Nat}
    {s : Session} (started : start c f search files size = .ok s) (moves : List Move) :
    (∀ ending, (s.run moves).phase = .closing ending ∨ (s.run moves).phase = .ended ending →
      ∃ earlier later what,
        StopsAfter c.index.exitAfterIndex s moves earlier later what ending) ∧
    ((s.run moves).isOver = true →
      (s.run moves).teardown.calls = Teardown.callsFor (s.run moves).registered ∧
        (s.run moves).workersCancelled = true) ∧
    (∀ earlier later, moves = earlier ++ later →
      (s.run earlier).teardown.calls <+: (s.run moves).teardown.calls) ∧
    ∀ e ∈ s.journal moves, ∀ ending, e.what.ending? c.index.exitAfterIndex = some ending →
      0 < size → (s.run moves).Obliging →
        ∃ more, (∀ m ∈ more, m.isOwn = true) ∧
          (s.run (moves ++ more)).phase = .ended ending := by
  have fresh := fresh_start started
  obtain ⟨initial, exits⟩ := cleansUp_start started
  rw [← exits]
  refine ⟨?_, ?_, ?_, ?_⟩
  · intro ending phase
    apply fresh.exists_stop
    rcases phase with phase | phase <;> rw [decided, phase]
  · intro ended
    exact (fresh.cleansUp initial moves).all_of_over ended
  · rintro earlier later rfl
    exact fresh.calls_prefix initial earlier later
  · intro e mem ending ends room obliging
    have client : 0 < s.client.capacity := by
      rw [(start_eq_ok started).2.2]
      exact room
    have certain : (s.run moves).decided = some ending := by
      cases undecided : (s.run moves).decided with
      | none =>
          rw [fresh.decided_eq, List.findSome?_eq_none_iff] at undecided
          rw [undecided e mem] at ends
          cases ends
      | some other =>
          obtain ⟨earlier, later, what, stopped⟩ := fresh.exists_stop undecided
          rw [stopped.last] at mem
          rcases List.mem_append.mp mem with early | last
          · rw [stopped.first e early] at ends
            cases ends
          · rw [List.mem_singleton.mp last, stopped.stops.ending] at ends
            exact ends
    obtain ⟨more, own, phase, intake⟩ := fresh.exists_closing client certain
    rcases phase with closing | ended
    · have can := canDeliver_of_intake intake obliging.watches
      obtain ⟨rest, own', ended⟩ :=
        fresh.exists_end initial closing (fresh.obliging_run certain obliging can)
      exact ⟨more ++ rest, List.forall_mem_append.mpr ⟨own, own'⟩,
        List.append_assoc .. ▸ ended⟩
    · exact ⟨more, own, ended⟩

open Session in
/-- The client asks for the end between two registrations; the search engine does not close in
time. -/
theorem ends_as_first_decided_of_shutdown :
    ∃ s moves rest params w,
      start .default ⟨.mixed, .replicate (some 4)⟩ .hangs (.finishes 0 none) 4 = .ok s ∧
      params = ⟨"done", false⟩ ∧ w = ⟨"fs", .behaves (.finishes 5 none)⟩ ∧
      moves = [.send (.watcher w), .step .broker, .send (.request ⟨"1", .shutdown params⟩),
        .send (.watcher w), .step .broker] ∧
      rest = [.step .broker, .advance 5, .step .broker, .advance (Duration.ofMillis 60000),
        .step .broker, .step .broker] ∧
      (s.run (moves ++ rest)).phase = .ended (.exit (.requested params)) ∧
      (∃ earlier later what,
        StopsAfter false s (moves ++ rest) earlier later what (.exit (.requested params))) ∧
      (s.run (moves ++ rest)).isOver = true ∧ (s.run (moves ++ rest)).registered = [w] ∧
      (s.run (moves ++ rest)).teardown.calls = Teardown.callsFor [w] ∧
      (s.run (moves ++ rest)).workersCancelled = true ∧
      (s.run moves).teardown.calls <+: (s.run (moves ++ rest)).teardown.calls ∧
      ⟨0, .took (.request ⟨"1", .shutdown params⟩)⟩ ∈ s.journal moves ∧
      (s.run moves).Obliging ∧
      ∃ more, (∀ m ∈ more, m.isOwn = true) ∧
        (s.run (moves ++ more)).phase = .ended (.exit (.requested params)) := by
  have started : start .default ⟨.mixed, .replicate (some 4)⟩ .hangs (.finishes 0 none) 4 =
      .ok _ := start_of_isSome (by decide +kernel)
  refine ⟨_, _, _, _, _, started, rfl, rfl, rfl, rfl, by decide +kernel, ?_, by decide +kernel,
    by decide +kernel, ?_, ?_, ?_, by decide +kernel, ?_⟩
  · exact (ends_as_first_decided started _).1 _ (.inr (by decide +kernel))
  · refine ((ends_as_first_decided started _).2.1 (by decide +kernel)).1.trans ?_
    decide +kernel
  · exact ((ends_as_first_decided started _).2.1 (by decide +kernel)).2
  · exact (ends_as_first_decided started _).2.2.1 _ _ rfl
  · suffices obliging : Obliging _ from
      ⟨obliging, (ends_as_first_decided started _).2.2.2
        ⟨0, .took (.request ⟨"1", .shutdown ⟨"done", false⟩⟩)⟩ (by decide +kernel) _
        (by decide +kernel) (by decide) obliging⟩
    exact ⟨by decide +kernel, by decide +kernel, .inr (by decide +kernel)⟩

end SessionBroker
