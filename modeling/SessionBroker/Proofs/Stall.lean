import SessionBroker.Proofs.Endings

/-!
Teardowns that wait for a watch of files.

While a teardown waits for the end of a watch nobody reads the mailbox of the broker. A watch
that waits for room in it then waits for good, and the teardown with it (`Stalled.run`). Main
statement: `watch_ends_unless_it_waits`.
-/

namespace SessionBroker

namespace Session

variable {s t : Session} {n : Nat}

/-- The teardown goes on after a watch that has ended. -/
theorem stepBroker_of_ended {ending : Ending} {name : String} {since : Duration}
    (phase : s.phase = .closing ending)
    (stage : s.teardown.stage = .stopping ⟨name, .awaits n⟩ since)
    (ended : s.watchEnded n = true) : s.stepBroker.isSome = true := by
  simp [stepBroker, phase, stepTeardown, Teardown.step, stage, ended]

/-- Whether a watch waits for room in the mailbox of the broker. -/
def waitsForRoom (s : Session) (n : Nat) : Bool :=
  s.inbox.isOpen && s.inbox.isFull &&
    (s.watches[n]?).any fun w => w.running && !w.delivering.isEmpty && w.holdsSender

/-- A watch waits for room if it has a change to deliver and the mailbox is full. -/
theorem waitsForRoom_iff : s.waitsForRoom n = true ↔
    (s.inbox.isOpen = true ∧ s.inbox.isFull = true) ∧
      ∃ w, s.watches[n]? = some w ∧ (w.running = true ∧ w.delivering ≠ []) ∧
        w.holdsSender = true := by
  simp [waitsForRoom, Option.any_eq_true]

/-- The teardown waits for the end of a watch, and the watch for room in the mailbox of the
broker. -/
structure Stalled (ending : Ending) (n : Nat) (s : Session) : Prop where
  phase : s.phase = .closing ending
  stage : ∃ name since, s.teardown.stage = .stopping ⟨name, .awaits n⟩ since
  waits : s.waitsForRoom n = true

namespace Stalled

variable {ending : Ending}

theorem offer (stalled : Stalled ending n s) (m : BrokerMessage) :
    s.inbox.offer m = .error .full := by
  obtain ⟨⟨isOpen, full⟩, -⟩ := waitsForRoom_iff.mp stalled.waits
  simp [Mailbox.offer, isOpen, full]

theorem hasSender (stalled : Stalled ending n s) : s.hasSender = true := by
  obtain ⟨-, w, found, -, holds⟩ := waitsForRoom_iff.mp stalled.waits
  have any : s.watches.any (·.holdsSender) = true :=
    List.any_eq_true.mpr ⟨w, List.mem_of_getElem? found, holds⟩
  simp [Session.hasSender, any]

/-- The broker does not go on. -/
theorem stepBroker (stalled : Stalled ending n s) : s.stepBroker = none := by
  obtain ⟨name, since, stage⟩ := stalled.stage
  obtain ⟨-, w, found, ⟨running, -⟩, -⟩ := waitsForRoom_iff.mp stalled.waits
  have going : s.watchEnded n = false := by simp [watchEnded, found, running]
  simp [Session.stepBroker, stalled.phase, stepTeardown, Teardown.step, stage, going]

/-- The watch does not go on. -/
theorem stepWatch (stalled : Stalled ending n s) : s.stepWatch n = none := by
  obtain ⟨-, w, found, ⟨running, delivering⟩, holds⟩ := waitsForRoom_iff.mp stalled.waits
  obtain ⟨change, rest, delivering⟩ := List.exists_cons_of_ne_nil delivering
  rw [stepWatch_of_running found running, delivering]
  dsimp only
  rw [stalled.hasSender, stalled.offer]
  simp [holds]

/-- What the others do does not matter if it leaves the mailbox and the watch as they are. -/
theorem frame (stalled : Stalled ending n s) (phase : t.phase = s.phase)
    (teardown : t.teardown = s.teardown) (inbox : t.inbox = s.inbox)
    (watch : ∀ w, s.watches[n]? = some w → ∃ v, t.watches[n]? = some v ∧
      v.running = w.running ∧ v.delivering = w.delivering ∧ v.holdsSender = w.holdsSender) :
    Stalled ending n t := by
  obtain ⟨room, w, found, ⟨running, delivering⟩, holds⟩ := waitsForRoom_iff.mp stalled.waits
  obtain ⟨v, found', running', delivering', holds'⟩ := watch w found
  refine ⟨phase.trans stalled.phase, teardown ▸ stalled.stage, waitsForRoom_iff.mpr ?_⟩
  refine ⟨inbox ▸ room, v, found', ⟨running'.trans running, ?_⟩, holds'.trans holds⟩
  rw [delivering']
  exact delivering

/-- The watches and the mailbox are as they were. -/
theorem same (stalled : Stalled ending n s) (phase : t.phase = s.phase)
    (teardown : t.teardown = s.teardown) (inbox : t.inbox = s.inbox)
    (watches : t.watches = s.watches) : Stalled ending n t := by
  refine stalled.frame phase teardown inbox ?_
  intro w found
  exact ⟨w, watches ▸ found, rfl, rfl, rfl⟩

/-- A stalled session stays so with every step of a task. -/
theorem step (stalled : Stalled ending n s) {task : Task} (stepped : s.step task = some t) :
    Stalled ending n t := by
  cases task with
  | broker =>
      change s.stepBroker = some t at stepped
      rw [stalled.stepBroker] at stepped
      cases stepped
  | gate =>
      obtain ⟨_, -, rfl⟩ := Option.map_eq_some_iff.mp stepped
      exact stalled.same rfl rfl rfl rfl
  | support =>
      obtain ⟨_, -, rfl⟩ := Option.map_eq_some_iff.mp stepped
      exact stalled.same rfl rfl rfl rfl
  | analysis =>
      obtain ⟨relay, -, stepped⟩ := Option.bind_eq_some_iff.mp stepped
      obtain ⟨_, -, rfl⟩ := Option.map_eq_some_iff.mp stepped
      exact stalled.same rfl rfl rfl rfl
  | index =>
      rcases stepIndex_eq_some stepped with ⟨index, rfl⟩ | ⟨outcome, inbox, index, offered, rfl⟩
      · exact stalled.same rfl rfl rfl rfl
      · rw [stalled.offer] at offered
        cases offered
  | watch k =>
      by_cases same : k = n
      · subst same
        change s.stepWatch k = some t at stepped
        rw [stalled.stepWatch] at stepped
        cases stepped
      · rcases stepWatch_eq_some stepped with ⟨watches, rfl⟩ | ⟨change, inbox, watches, offered, -⟩
        · refine stalled.frame rfl rfl rfl ?_
          intro w found
          obtain ⟨v, moved⟩ := watches_stepWatch stepped
          refine ⟨w, ?_, rfl, rfl, rfl⟩
          rw [moved, List.getElem?_set_ne same]
          exact found
        · rw [stalled.offer] at offered
          cases offered

theorem apply (stalled : Stalled ending n s) (m : Move) : Stalled ending n (s.apply m) := by
  cases m with
  | step task =>
      simp only [Session.apply]
      cases stepped : s.step task with
      | none => exact stalled
      | some t => exact stalled.step stepped
  | send m =>
      simp only [Session.apply]
      cases sent : s.send m with
      | error refusal => exact stalled
      | ok t =>
          obtain ⟨inbox, offered, rfl⟩ := send_eq_ok sent
          rw [stalled.offer] at offered
          cases offered
  | emit w e =>
      simp only [Session.apply]
      cases emitted : s.emit w e with
      | error refusal => exact stalled
      | ok t =>
          rcases emit_eq_ok emitted with ⟨relay, inbox, -, -, rfl⟩ | ⟨inbox, -, rfl⟩ <;>
            exact stalled.same rfl rfl rfl rfl
  | finishIndex outcome =>
      simp only [Session.apply, finishIndex]
      split <;> exact stalled.same rfl rfl rfl rfl
  | watch v =>
      refine stalled.frame rfl rfl rfl ?_
      intro w found
      have short : n < s.watches.length := (List.getElem?_eq_some_iff.mp found).1
      exact ⟨w, (List.getElem?_append_left short).trans found, rfl, rfl, rfl⟩
  | fileEvent k event =>
      refine stalled.frame rfl rfl rfl ?_
      intro w found
      simp only [Session.apply, Session.fileEvent, List.getElem?_modify, found]
      split
      · refine ⟨_, rfl, ?_⟩
        dsimp only
        split <;> exact ⟨rfl, rfl, rfl⟩
      · exact ⟨w, rfl, rfl, rfl, rfl⟩
  | _ => exact stalled.same rfl rfl rfl rfl

/-- Nothing that can happen gets the session on. -/
theorem run (stalled : Stalled ending n s) (moves : List Move) :
    Stalled ending n (s.run moves) := by
  induction moves generalizing s with
  | nil => exact stalled
  | cons m moves ih => exact ih (stalled.apply m)

end Stalled

end Session

/-! ### Main statement -/

open Session in
/-- **A watch that is to be stopped ends, unless it waits for the broker.** When the teardown of
a session waits for the end of a watch, and there is room for the changes that are on their way,
the watch ends by its own moves, and the teardown goes on. But if the watch waits for room in
the mailbox of the broker, then whatever happens, it goes on to wait, and the session is never
over. -/
theorem watch_ends_unless_it_waits {c : Config} {f : Staffing} {search files : Behaviour}
    {size : Nat} {s : Session} (started : start c f search files size = .ok s)
    (moves : List Move) {ending : Ending} {name : String} {n : Nat} {since : Duration}
    (phase : (s.run moves).phase = .closing ending)
    (stage : (s.run moves).teardown.stage = .stopping ⟨name, .awaits n⟩ since) :
    ((s.run moves).CanDeliver → ∃ count,
      (s.run (moves ++ List.replicate count (.step (.watch n)))).watchEnded n = true ∧
      (s.run (moves ++ List.replicate count (.step (.watch n)))).stepBroker.isSome = true) ∧
    ((s.run moves).waitsForRoom n = true → ∀ more,
      (s.run (moves ++ more)).phase = .closing ending ∧
      (s.run (moves ++ more)).waitsForRoom n = true) := by
  have cleansUp := (fresh_start started).cleansUp (cleansUp_start started).1 moves
  obtain ⟨-, underway⟩ := cleansUp.of_closing phase
  constructor
  · intro can
    have told := watchStopped_of_told (underway.told _ _ stage)
    obtain ⟨count, inbox, watches, run, ended, -⟩ := can.ends told
    refine ⟨count, ?_⟩
    rw [run_append, run]
    exact ⟨ended, stepBroker_of_ended phase stage ended⟩
  · intro waits more
    have stalled : Stalled ending n (s.run moves) := ⟨phase, ⟨name, since, stage⟩, waits⟩
    rw [run_append]
    exact ⟨(stalled.run more).phase, (stalled.run more).waits⟩

open Session in
/-- The teardown stops a watch that delivers a change. It ends, but not once the client has
filled the mailbox of the broker. -/
theorem watch_ends_unless_it_waits_of_change :
    ∃ s moves crowd, start .default ⟨.javaOnly, .replicate (some 4)⟩ .hangs .hangs 4 = .ok s ∧
      moves = [.watch (.new (Path.ofString "/src") []), .send (.watcher ⟨"fs", .awaits 0⟩),
        .fileEvent 0 ⟨.modify, [Path.ofString "/src/A.java"]⟩, .step (.watch 0),
        .send (.request ⟨"bye", .shutdown ⟨"done", false⟩⟩), .step .broker, .step .broker,
        .step .broker] ∧
      crowd = List.replicate 256 (.send (.request ⟨"1", .search ⟨"x", none⟩⟩)) ++
        [.step (.watch 0)] ∧
      ((s.run moves).CanDeliver ∧ ∃ count,
        (s.run (moves ++ List.replicate count (.step (.watch 0)))).watchEnded 0 = true ∧
        (s.run (moves ++ List.replicate count (.step (.watch 0)))).stepBroker.isSome = true) ∧
      (s.run (moves ++ crowd)).waitsForRoom 0 = true ∧ ∀ more,
        (s.run (moves ++ crowd ++ more)).phase =
          .closing (.exit (.requested ⟨"done", false⟩)) ∧
        (s.run (moves ++ crowd ++ more)).waitsForRoom 0 = true := by
  have started : start .default ⟨.javaOnly, .replicate (some 4)⟩ .hangs .hangs 4 = .ok _ :=
    start_of_isSome (by decide +kernel)
  refine ⟨_, _, _, started, rfl, rfl, ?_, by decide +kernel, ?_⟩
  · refine ⟨.inr ?_, (@watch_ends_unless_it_waits _ _ _ _ _ _ started _
      (.exit (.requested ⟨"done", false⟩)) "fs" 0 0 ?_ ?_).1 (.inr ?_)⟩ <;> decide +kernel
  · refine (@watch_ends_unless_it_waits _ _ _ _ _ _ started _
      (.exit (.requested ⟨"done", false⟩)) "fs" 0 0 ?_ ?_).2 ?_ <;> decide +kernel

open Session in
/-- While the teardown waits for the end of a watch, the watch can wait for room in the mailbox
of the broker. -/
theorem watch_waits_in_teardown :
    ∃ s moves t, start .default ⟨.mixed, .replicate (some 4)⟩ (.finishes 0 none)
        (.finishes 0 none) 4 = .ok s ∧
      moves = [.watch (.new (Path.ofString "/src") []), .send (.watcher ⟨"fs", .awaits 0⟩),
        .step .broker, .fileEvent 0 ⟨.create, [Path.ofString "/src/B.java"]⟩, .step (.watch 0),
        .send (.request ⟨"bye", .shutdown ⟨"done", false⟩⟩), .step .broker] ++
        List.replicate 256 (.send (.request ⟨"1", .search ⟨"x", none⟩⟩)) ++
        [.step (.watch 0), .step .broker] ∧
      s.run moves = t ∧ t.phase = .closing (.exit (.requested ⟨"done", false⟩)) ∧
      t.teardown.stage = .stopping ⟨"fs", .awaits 0⟩ 0 ∧ t.waitsForRoom 0 = true := by
  refine ⟨_, _, _, start_of_isSome (by decide +kernel), rfl, rfl, ?_⟩
  decide +kernel

end SessionBroker
