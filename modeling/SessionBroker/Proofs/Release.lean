import SessionBroker.Proofs.Endings

/-!
When the workers are told to end.

Each worker has a cancellation token below one that all workers share, and that is below the
token of the session. The broker cancels the shared one when its teardown is over; whoever
cancels the session cancels it with everything below. Main statement:
`workers_released_after_teardown`.
-/

namespace SessionBroker

/-! ### Tokens -/

inductive Token where
  | session
  /-- The one that the workers share. -/
  | workers
  | worker (w : Worker)
  deriving DecidableEq, Repr

def Token.parent? : Token → Option Token
  | session => none
  | workers => some session
  | worker _ => some workers

/-- The outcome of the call that a teardown waits for is there. -/
inductive Teardown.Heard (c : Collaborators) (ended : Nat → Bool) (now : Duration)
    (t : Teardown) : TeardownCall → Prop
  /-- The watcher has stopped, with an error or without. -/
  | stopped {w : Watcher} {since : Duration} {b : Behaviour} {error : Option ServiceError} :
      t.stage = .stopping w since → w.stop = .behaves b → answered? b since now = some error →
      Heard c ended now t (.stopWatcher w)
  /-- The task of the watcher is over. -/
  | finished {w : Watcher} {since : Duration} {task : Nat} :
      t.stage = .stopping w since → w.stop = .awaits task → ended task = true →
      Heard c ended now t (.stopWatcher w)
  | search {since : Duration} {error : Option ServiceError} :
      t.stage = .searching since → answered? c.search since now = some error →
      Heard c ended now t .shutdownSearch
  | timeout {since : Duration} :
      t.stage = .searching since → expiry c.grace since ≤ now → Heard c ended now t .shutdownSearch
  | closed {since : Duration} {error : Option ServiceError} :
      t.stage = .closing since → answered? c.files since now = some error →
      Heard c ended now t .closeFiles

def Teardown.pending? (t : Teardown) : Option TeardownCall :=
  match t.stage with
  | .stopping w _ => some (.stopWatcher w)
  | .searching _ => some .shutdownSearch
  | .closing _ => some .closeFiles
  | .ready | .done => none

namespace Teardown

variable {c : Collaborators} {ended : Nat → Bool} {now : Duration} {t u : Teardown}

/-- A teardown only goes on when the outcome of the call that it waits for is there. -/
theorem heard_of_step (stepped : t.step c ended now = some u) {call : TeardownCall}
    (pending : t.pending? = some call) : t.Heard c ended now call := by
  unfold step at stepped
  unfold pending? at pending
  split at stepped
  · rename_i stage
    simp only [stage] at pending
    cases pending
  · rename_i w since stage
    simp only [stage, Option.some.injEq] at pending
    subst pending
    split at stepped
    · rename_i task awaits
      split at stepped
      · exact .finished stage awaits ‹_›
      · cases stepped
    · rename_i b behaves
      obtain ⟨error, answered, -⟩ := Option.map_eq_some_iff.mp stepped
      exact .stopped stage behaves answered
  · rename_i since stage
    simp only [stage, Option.some.injEq] at pending
    subst pending
    split at stepped
    · exact .search stage ‹_›
    · split at stepped
      · exact .timeout stage ‹_›
      · cases stepped
  · rename_i since stage
    simp only [stage, Option.some.injEq] at pending
    subst pending
    obtain ⟨error, answered, -⟩ := Option.map_eq_some_iff.mp stepped
    exact .closed stage answered
  · cases stepped

/-- The teardown waits for the call that it has just made. -/
theorem pending?_next (t : Teardown) (now : Duration) :
    ∃ call, (t.next now).calls = t.calls ++ [call] ∧ (t.next now).pending? = some call := by
  rcases next_cases t now with ⟨w, rest, -, next⟩ | ⟨-, next⟩
  · exact ⟨.stopWatcher w, by rw [next]; exact ⟨rfl, rfl⟩⟩
  · exact ⟨.shutdownSearch, by rw [next]; exact ⟨rfl, rfl⟩⟩

/-- After a step the teardown waits for the call that it made by it, or for none. -/
theorem pending?_step (stepped : t.step c ended now = some u) :
    (∃ call, u.calls = t.calls ++ [call] ∧ u.pending? = some call) ∨ u.calls = t.calls := by
  rcases step_cases stepped with ⟨failures, -, rfl⟩ | ⟨failures, since, -, rfl⟩ |
    ⟨failures, since, -, rfl⟩
  · exact .inl (pending?_next { t with failures } now)
  · exact .inl ⟨.closeFiles, rfl, rfl⟩
  · exact .inr rfl

end Teardown

namespace Session

variable {c : Config} {s t : Session} {hs : List Happening} {acts : List Act}

def cancels (s : Session) : Token → Bool
  | .session => s.cancelled
  | .workers => s.released
  | .worker _ => false

/-- A token is cancelled: itself, or one that it is below. -/
inductive TokenCancelled (s : Session) : Token → Prop
  | own {token : Token} : s.cancels token = true → TokenCancelled s token
  | inherited {token above : Token} :
      token.parent? = some above → TokenCancelled s above → TokenCancelled s token

/-- The outcome of the call that the session waits for is there. -/
def Hears (s : Session) (call : TeardownCall) : Prop :=
  s.teardown.Heard s.collaborators s.watchEnded s.now call

/-- The tokens above that of a worker are cancelled by the broker or from outside. -/
theorem tokenCancelled_worker (w : Worker) :
    s.TokenCancelled (.worker w) ↔ s.workersCancelled = true := by
  rw [workersCancelled, Bool.or_eq_true]
  constructor
  · intro cancelled
    cases cancelled with
    | own never => cases never
    | inherited above cancelled =>
        cases above
        cases cancelled with
        | own released => exact .inr released
        | inherited above cancelled =>
            cases above
            cases cancelled with
            | own outside => exact .inl outside
            | inherited above => cases above
  · rintro (outside | released)
    · exact .inherited rfl (.inherited rfl (.own outside))
    · exact .inherited rfl (.own released)

/-! ### Cancellation -/

/-- Going on with its acts the broker does not cancel the session. -/
theorem GetsOn.cancelled_eq (h : GetsOn s acts hs t) : t.cancelled = s.cancelled := by
  cases h with
  | leaves | waits | rests => rfl
  | recompiles _ due =>
      obtain ⟨-, rfl⟩ := recompileIfDue_eq due
      rfl

theorem Proceeds.cancelled_eq (h : Proceeds s hs t) : t.cancelled = s.cancelled := by
  cases h with
  | cancelled | disconnected => rfl
  | recompile _ _ due =>
      obtain ⟨-, rfl⟩ := recompileIfDue_eq due
      rfl
  | took _ _ _ _ gets => exact gets.cancelled_eq
  | acts _ gets => exact gets.cancelled_eq
  | teardown _ stepped =>
      obtain ⟨teardown, -, ⟨-, rfl⟩ | ⟨-, rfl⟩⟩ := stepTeardown_cases stepped <;> rfl

theorem cancelled_step {task : Task} (stepped : s.step task = some t) :
    t.cancelled = s.cancelled := by
  cases task with
  | broker => exact (proceeds_of_stepBroker stepped).cancelled_eq
  | gate | support =>
      obtain ⟨_, -, rfl⟩ := Option.map_eq_some_iff.mp stepped
      rfl
  | analysis =>
      obtain ⟨relay, -, stepped⟩ := Option.bind_eq_some_iff.mp stepped
      obtain ⟨_, -, rfl⟩ := Option.map_eq_some_iff.mp stepped
      rfl
  | index =>
      rcases stepIndex_eq_some stepped with ⟨index, rfl⟩ | ⟨outcome, inbox, index, -, rfl⟩ <;> rfl
  | watch number =>
      rcases stepWatch_eq_some stepped with ⟨watches, rfl⟩ | ⟨change, inbox, watches, -, rfl⟩ <;>
        rfl

/-- A session is cancelled by nothing but a cancellation. -/
theorem cancelled_apply (m : Move) :
    (s.apply m).cancelled = true ↔ s.cancelled = true ∨ m = .cancel := by
  cases m with
  | step task =>
      cases stepped : s.step task with
      | none => simp [apply, stepped]
      | some t => simp [apply, stepped, cancelled_step stepped]
  | send m =>
      cases sent : s.send m with
      | error refusal => simp [apply, sent, Except.toOption]
      | ok t =>
          obtain ⟨inbox, -, rfl⟩ := send_eq_ok sent
          simp [apply, sent, Except.toOption]
  | emit w e =>
      cases emitted : s.emit w e with
      | error refusal => simp [apply, emitted, Except.toOption]
      | ok t =>
          rcases emit_eq_ok emitted with ⟨relay, inbox, -, -, rfl⟩ | ⟨inbox, -, rfl⟩ <;>
            simp [apply, emitted, Except.toOption]
  | finishIndex outcome =>
      simp only [apply, finishIndex, reduceCtorEq, or_false]
      split <;> rfl
  | cancel => simp [apply]
  | _ => simp [apply, stopWorker, muteWorker, readWorker, addWatch, fileEvent, readClient]

/-- A session is cancelled exactly when somebody has cancelled it. -/
theorem cancelled_run (moves : List Move) :
    (s.run moves).cancelled = true ↔ s.cancelled = true ∨ Move.cancel ∈ moves := by
  induction moves using List.reverseRecOn with
  | nil => simp [run]
  | append_singleton moves m ih =>
      rw [run_concat, cancelled_apply, ih, List.mem_append, List.mem_singleton, or_assoc,
        eq_comm (a := m)]

/-! ### The end of the teardown -/

/-- By carrying out acts the broker begins a teardown at most. -/
theorem GetsOn.unended (h : GetsOn s acts hs t) : t.released = s.released ∧ t.isOver = false ∧
    (t.teardown = s.teardown ∨ t.teardown.calls = []) := by
  cases h with
  | leaves => exact ⟨rfl, rfl, .inr rfl⟩
  | waits | rests => exact ⟨rfl, rfl, .inl rfl⟩
  | recompiles _ due =>
      obtain ⟨-, rfl⟩ := recompileIfDue_eq due
      exact ⟨rfl, rfl, .inl rfl⟩

/-- A move of the broker leaves the teardown as it is, begins one or is one of its steps; the
workers are released when the session is over by it. -/
theorem Proceeds.teardown_cases (h : Proceeds s hs t) :
    (s.released = s.isOver → t.released = t.isOver) ∧
      (t.teardown = s.teardown ∨ t.teardown.calls = [] ∨
        s.teardown.step s.collaborators s.watchEnded s.now = some t.teardown) := by
  cases h with
  | cancelled phase | disconnected phase =>
      exact ⟨fun same => same.trans (not_over_of_phase phase), .inr (.inl rfl)⟩
  | recompile phase _ due =>
      obtain ⟨-, rfl⟩ := recompileIfDue_eq due
      exact ⟨id, .inl rfl⟩
  | took phase _ _ _ gets | acts phase gets =>
      obtain ⟨released, going, teardown⟩ := gets.unended
      refine ⟨fun same => ?_, teardown.imp_right .inl⟩
      rw [released, going]
      exact same.trans (not_over_of_phase phase)
  | teardown phase stepped =>
      obtain ⟨teardown, next, ⟨-, rfl⟩ | ⟨-, rfl⟩⟩ := stepTeardown_cases stepped
      · exact ⟨id, .inr (.inr next)⟩
      · exact ⟨fun _ => rfl, .inr (.inr next)⟩

/-- A session that is over has done its teardown. -/
theorem CleansUp.done_of_over (cleansUp : s.CleansUp) (ended : s.isOver = true) :
    s.teardown.stage = .done := by
  cases cleansUp with
  | before phase | during phase => simp [isOver, ending?, phase] at ended
  | after_ _ done => exact done

/-- A session starts without having told its workers to end. -/
theorem released_start {f : Staffing} {search files : Behaviour} {size : Nat}
    (started : start c f search files size = .ok s) : s.released = false := by
  obtain ⟨broker, -, rfl⟩ := exists_of_start started
  rfl

/-- The broker releases the workers when the session is over. -/
theorem Fresh.released_iff (fresh : s.Fresh c) (initial : s.released = s.isOver)
    (moves : List Move) : (s.run moves).released = (s.run moves).isOver := by
  refine fresh.run_induction (P := fun _ t => t.released = t.isOver) initial ?_ ?_ moves
  · intro _ t u hs _ same proceeds
    exact proceeds.teardown_cases.1 same
  · intro _ t u same aside
    rw [aside.released, same, isOver, isOver, ending?, ending?, aside.phase]

/-- Each call of the teardown is the one that it waits for, or its outcome was there when no
more calls had been made. -/
theorem Fresh.heard (fresh : s.Fresh c) (uncalled : s.teardown.calls = []) (moves : List Move)
    {past rest : List TeardownCall} {call : TeardownCall}
    (calls : (s.run moves).teardown.calls = past ++ call :: rest) :
    (rest = [] ∧ (s.run moves).teardown.pending? = some call) ∨
      ∃ earlier later, moves = earlier ++ later ∧
        (s.run earlier).teardown.calls = past ++ [call] ∧ (s.run earlier).Hears call := by
  induction moves using List.reverseRecOn generalizing rest with
  | nil =>
      rw [run, List.foldl_nil, uncalled] at calls
      simp at calls
  | append_singleton moves m ih =>
      rw [run_concat] at calls ⊢
      have earlier_of {rest' : List TeardownCall}
          (calls' : (s.run moves).teardown.calls = past ++ call :: rest') :
          (rest' = [] ∧ (s.run moves).teardown.pending? = some call) ∨
            ∃ earlier later, moves ++ [m] = earlier ++ later ∧
              (s.run earlier).teardown.calls = past ++ [call] ∧ (s.run earlier).Hears call :=
        (ih calls').imp_right fun ⟨earlier, later, same, heard⟩ =>
          ⟨earlier, later ++ [m], by rw [same, List.append_assoc], heard⟩
      rcases apply_cases (fresh.orderly_of_run moves).sound m with ⟨-, proceeds⟩ | ⟨-, aside⟩
      · rcases proceeds.teardown_cases.2 with same | none | stepped
        · rw [same] at calls ⊢
          exact earlier_of calls
        · rw [none] at calls
          simp at calls
        · have past_of {rest' : List TeardownCall}
              (calls' : (s.run moves).teardown.calls = past ++ call :: rest') :
              ∃ earlier later, moves ++ [m] = earlier ++ later ∧
                (s.run earlier).teardown.calls = past ++ [call] ∧
                  (s.run earlier).Hears call := by
            rcases earlier_of calls' with ⟨rfl, pending⟩ | heard
            · exact ⟨moves, [m], rfl, calls', Teardown.heard_of_step stepped pending⟩
            · exact heard
          rcases Teardown.pending?_step stepped with ⟨next, made, pending⟩ | same
          · rw [made] at calls
            rcases rest.eq_nil_or_concat with rfl | ⟨rest', last, rfl⟩
            · obtain ⟨-, same⟩ := List.append_inj' calls rfl
              cases same
              exact .inl ⟨rfl, pending⟩
            · rw [List.concat_eq_append, ← List.cons_append, ← List.append_assoc] at calls
              exact .inr (past_of (List.append_inj' calls rfl).1)
          · rw [same] at calls
            exact .inr (past_of calls)
      · rw [aside.teardown] at calls ⊢
        exact earlier_of calls

end Session

/-! ### Main statement -/

open Session in
/-- **The workers outlive the teardown unless the session is cancelled.** The token of a worker is
cancelled exactly when the session is over or was cancelled from outside. When a session is over
its teardown is done: each watcher whose registration was handled was stopped, the search engine
was shut down or its time limit was over, and the file system was closed, each before the next
call was made. -/
theorem workers_released_after_teardown {c : Config} {f : Staffing} {search files : Behaviour}
    {size : Nat} {s : Session} (started : start c f search files size = .ok s)
    (moves : List Move) :
    (∀ w, (s.run moves).TokenCancelled (.worker w) ↔
      (s.run moves).isOver = true ∨ Move.cancel ∈ moves) ∧
    ((s.run moves).isOver = true →
      (s.run moves).teardown.stage = .done ∧
        (s.run moves).teardown.calls = Teardown.callsFor (s.run moves).registered ∧
        ∀ past call rest, Teardown.callsFor (s.run moves).registered = past ++ call :: rest →
          ∃ earlier later, moves = earlier ++ later ∧
            (s.run earlier).teardown.calls = past ++ [call] ∧ (s.run earlier).Hears call) := by
  have fresh := fresh_start started
  have initial := (cleansUp_start started).1
  have unreleased : s.released = s.isOver :=
    (released_start started).trans (not_over_of_phase fresh.phase).symm
  refine ⟨fun w => ?_, fun ended => ?_⟩
  · rw [tokenCancelled_worker, workersCancelled, Bool.or_eq_true,
      fresh.released_iff unreleased moves, cancelled_run, fresh.cancelled]
    simp [or_comm]
  · have calls := ((fresh.cleansUp initial moves).all_of_over ended).1
    have done := (fresh.cleansUp initial moves).done_of_over ended
    refine ⟨done, calls, fun past call rest split => ?_⟩
    rcases fresh.heard (initial.of_serving fresh.phase).2 moves (calls.trans split) with
      ⟨-, pending⟩ | heard
    · rw [Teardown.pending?, done] at pending
      cases pending
    · exact heard

open Session in
/-- The client asks for the end while a watcher takes its time to stop. -/
theorem workers_released_after_teardown_of_shutdown :
    ∃ s moves rest w,
      start .default ⟨.mixed, .replicate (some 4)⟩ .hangs (.finishes 0 none) 4 = .ok s ∧
      w = ⟨"fs", .behaves (.finishes 5 none)⟩ ∧
      moves = [.send (.watcher w), .step .broker,
        .send (.request ⟨"1", .shutdown ⟨"done", false⟩⟩), .step .broker, .step .broker] ∧
      rest = [.advance 5, .step .broker, .advance (Duration.ofMillis 60000), .step .broker,
        .step .broker] ∧
      (s.run moves).teardown.stage = .stopping w 0 ∧
      ¬ (s.run moves).TokenCancelled (.worker .java) ∧
      (s.run (moves ++ rest)).isOver = true ∧
      (s.run (moves ++ rest)).TokenCancelled (.worker .java) ∧
      ∃ earlier later, moves ++ rest = earlier ++ later ∧
        (s.run earlier).teardown.calls = [.stopWatcher w] ∧
          (s.run earlier).Hears (.stopWatcher w) := by
  have started : start .default ⟨.mixed, .replicate (some 4)⟩ .hangs (.finishes 0 none) 4 =
      .ok _ := start_of_isSome (by decide +kernel)
  refine ⟨_, _, _, _, started, rfl, rfl, rfl, by decide +kernel, ?_, by decide +kernel, ?_, ?_⟩
  · rw [(workers_released_after_teardown started _).1]
    rintro (ended | cancelled)
    · exact absurd ended (by decide +kernel)
    · simp at cancelled
  · exact ((workers_released_after_teardown started _).1 _).2 (.inl (by decide +kernel))
  · refine ((workers_released_after_teardown started _).2 (by decide +kernel)).2.2 [] _
      [.shutdownSearch, .closeFiles] ?_
    decide +kernel

open Session in
/-- The session is cancelled while a watcher is registered that never stops: the workers are told
to end although the teardown waits for that watcher. -/
theorem workers_cancelled_in_teardown :
    ∃ s moves t, start .default ⟨.mixed, .replicate (some 4)⟩ (.finishes 0 none)
        (.finishes 0 none) 4 = .ok s ∧
      moves = [.send (.watcher ⟨"w", .behaves .hangs⟩), .step .broker, .cancel, .step .broker,
        .step .broker] ∧
      s.run moves = t ∧ t.phase = .closing (.exit .cancelled) ∧
      t.teardown.stage = .stopping ⟨"w", .behaves .hangs⟩ 0 ∧
      t.teardown.calls = [.stopWatcher ⟨"w", .behaves .hangs⟩] ∧
      ∀ v, t.TokenCancelled (.worker v) := by
  refine ⟨_, _, _, start_of_isSome (by decide +kernel), rfl, rfl, by decide +kernel,
    by decide +kernel, by decide +kernel, fun v => (tokenCancelled_worker v).2 ?_⟩
  decide +kernel

end SessionBroker
