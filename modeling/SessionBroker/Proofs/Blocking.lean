import SessionBroker.Proofs.Release

/-!
What a watcher that never stops holds up.

A teardown makes a call only after it has heard of the one before it, and for a watcher there is
no time limit. So the calls that it can get to are those up to the first watcher that never
stops (`callsUpTo`). `Runs.allowed` says that it does not get further, `Allowed.exists_all` that
it gets there. Main statement: `teardown_held_up_by_stuck_watcher`.
-/

namespace SessionBroker

/-- A watcher that never answers the call to stop. -/
def Watcher.Stuck (w : Watcher) : Prop := w.stop = .behaves .hangs

instance (w : Watcher) : Decidable w.Stuck := inferInstanceAs (Decidable (_ = _))

/-- A watcher that is not stuck answers the call, or ends with a task. -/
theorem Watcher.answers_of_not_stuck {w : Watcher} (moves : ¬ w.Stuck) :
    (∃ after error, w.stop = .behaves (.finishes after error)) ∨ ∃ n, w.stop = .awaits n := by
  obtain ⟨name, stop⟩ := w
  cases stop with
  | awaits n => exact .inr ⟨n, rfl⟩
  | behaves b =>
      cases b with
      | finishes after error => exact .inl ⟨after, error, rfl⟩
      | hangs => exact absurd rfl moves

namespace Teardown

variable {c : Collaborators} {ended : Nat → Bool} {start now later : Duration} {t u : Teardown}
  {ws : List Watcher}

/-- `t.Runs c now u later`: what is `t` at some time can be `u` at a later one. Background tasks
end at any time. -/
inductive Runs (c : Collaborators) (t : Teardown) (start : Duration) : Teardown → Duration → Prop
  | refl : Runs c t start t start
  | wait {u : Teardown} {now later : Duration} :
      Runs c t start u now → now ≤ later → Runs c t start u later
  | step {u v : Teardown} {now : Duration} {ended : Nat → Bool} :
      Runs c t start u now → u.step c ended now = some v → Runs c t start v now

theorem Runs.trans {v : Teardown} (first : t.Runs c start u now) (second : u.Runs c now v later) :
    t.Runs c start v later := by
  induction second with
  | refl => exact first
  | wait _ after ih => exact ih.wait after
  | step _ stepped ih => exact ih.step stepped

/-! ### How far a teardown gets -/

/-- The calls of a teardown up to the first watcher that never stops. -/
def callsUpTo : List Watcher → List TeardownCall
  | [] => [.shutdownSearch, .closeFiles]
  | w :: ws => .stopWatcher w :: if w.Stuck then [] else callsUpTo ws

/-- The calls that a teardown can still get to. -/
def allowed (t : Teardown) : List TeardownCall :=
  match t.stage with
  | .ready => callsUpTo t.watchers
  | .stopping w _ => if w.Stuck then [] else callsUpTo t.watchers
  | .searching _ => [.closeFiles]
  | .closing _ | .done => []

/-- All calls are made unless a watcher never stops. -/
theorem callsUpTo_eq_iff : callsUpTo ws = callsFor ws ↔ ∀ w ∈ ws, ¬ w.Stuck := by
  induction ws with
  | nil => simp [callsUpTo, callsFor]
  | cons w ws ih =>
      have tail : callsFor (w :: ws) = .stopWatcher w :: callsFor ws := rfl
      rw [tail, callsUpTo, List.cons.injEq, List.forall_mem_cons, ← ih]
      by_cases stuck : w.Stuck
      · simp [stuck, callsFor]
      · simp [stuck]

/-- If a watcher never stops, neither the search engine nor the file system is called. -/
theorem callsUpTo_of_stuck {w : Watcher} (mem : w ∈ ws) (stuck : w.Stuck) :
    ∀ call ∈ callsUpTo ws, ∃ v ∈ ws, call = .stopWatcher v := by
  induction ws with
  | nil => cases mem
  | cons v ws ih =>
      intro call called
      rcases List.mem_cons.mp called with rfl | later
      · exact ⟨v, .head _, rfl⟩
      · by_cases first : v.Stuck
        · simp [first] at later
        · rw [if_neg first] at later
          have behind : w ∈ ws := by
            refine (List.mem_cons.mp mem).resolve_left ?_
            rintro rfl
            exact first stuck
          obtain ⟨x, old, same⟩ := ih behind call later
          exact ⟨x, .tail _ old, same⟩

/-- A teardown does not go on from a watcher that never stops. -/
theorem not_stuck_of_step (stepped : t.step c ended now = some u) {w : Watcher} {since : Duration}
    (stage : t.stage = .stopping w since) : ¬ w.Stuck := by
  intro stuck
  rw [step, stage] at stepped
  dsimp only at stepped
  rw [stuck] at stepped
  cases stepped

/-- The calls made and those still possible stay the same when the next call is made. -/
theorem allowed_next (t : Teardown) (now : Duration) :
    (t.next now).calls ++ (t.next now).allowed = t.calls ++ callsUpTo t.watchers := by
  rcases next_cases t now with ⟨w, rest, watchers, next⟩ | ⟨watchers, next⟩
  · rw [next, watchers]
    exact List.append_assoc ..
  · rw [next, watchers]
    exact List.append_assoc ..

/-- A step makes a call that the teardown could get to, and adds none. -/
theorem allowed_step (stepped : t.step c ended now = some u) :
    u.calls ++ u.allowed = t.calls ++ t.allowed := by
  rcases step_cases stepped with ⟨failures, stage, rfl⟩ | ⟨failures, since, stage, rfl⟩ |
    ⟨failures, since, stage, rfl⟩
  · rw [allowed_next]
    rcases stage with stage | ⟨w, since, stage⟩
    · rw [allowed, stage]
    · rw [allowed, stage]
      exact congrArg (t.calls ++ ·) (if_neg (not_stuck_of_step stepped stage)).symm
  · rw [allowed.eq_def t, stage]
    exact List.append_assoc ..
  · rw [allowed.eq_def t, stage]
    rfl

/-- Neither the calls made nor those still possible go beyond the first watcher that never
stops. -/
theorem Runs.allowed (runs : (new ws).Runs c start t now) :
    t.calls ++ t.allowed = callsUpTo ws := by
  induction runs with
  | refl => rfl
  | wait _ _ ih => exact ih
  | step _ stepped ih => exact (allowed_step stepped).trans ih

theorem Runs.underway (runs : (new ws).Runs c start t now) : t.Underway ws := by
  induction runs with
  | refl => exact underway_new ws
  | wait _ _ ih => exact ih
  | step _ stepped ih => exact (ih.step stepped).1

/-! ### Going on -/

/-- As long as there are calls that it can get to, a teardown goes on after a while. The search
engine has no say in that. -/
theorem exists_step_of_allowed (more : t.allowed ≠ []) (now : Duration) :
    ∃ wait u, t.step c (fun _ => true) (now + wait) = some u := by
  unfold allowed at more
  unfold step
  cases stage : t.stage with
  | ready => exact ⟨0, _, rfl⟩
  | stopping w since =>
      have moves : ¬ w.Stuck := by
        intro stuck
        simp [stage, stuck] at more
      rcases Watcher.answers_of_not_stuck moves with ⟨after, error, stop⟩ | ⟨n, stop⟩
      · refine ⟨since + after, ?_⟩
        simp [stop, answered?_finishes (Nat.le_add_left (since + after) now)]
      · exact ⟨0, by simp [stop]⟩
  | searching since =>
      refine ⟨expiry c.grace since, ?_⟩
      dsimp only
      cases answered? c.search since (now + expiry c.grace since) with
      | some error => exact ⟨_, rfl⟩
      | none => exact ⟨_, if_pos (Nat.le_add_left _ _)⟩
  | closing since | done => simp [stage] at more

/-- A teardown gets to all the calls that it can get to. -/
theorem Runs.exists_all (runs : (new ws).Runs c start t now) :
    ∃ u later, t.Runs c now u later ∧ u.calls = callsUpTo ws := by
  generalize size : t.left = n
  induction n using Nat.strongRecOn generalizing t now with
  | ind n ih =>
      by_cases all : t.allowed = []
      · have calls := runs.allowed
        rw [all, List.append_nil] at calls
        exact ⟨t, now, .refl, calls⟩
      · obtain ⟨wait, u, stepped⟩ := exists_step_of_allowed (c := c) all now
        have next : t.Runs c now u (now + wait) :=
          (Runs.refl.wait (Nat.le_add_right _ _)).step stepped
        obtain ⟨v, later, rest, calls⟩ := ih _ (size ▸ left_step stepped) (runs.trans next) rfl
        exact ⟨v, later, next.trans rest, calls⟩

/-- A teardown comes to its end if all watchers stop and the file system closes. -/
theorem Runs.exists_done (runs : (new ws).Runs c start t now) (stop : ∀ w ∈ ws, ¬ w.Stuck)
    (closes : c.files ≠ .hangs) : ∃ u later, t.Runs c now u later ∧ u.stage = .done := by
  generalize size : t.left = n
  induction n using Nat.strongRecOn generalizing t now with
  | ind n ih =>
      by_cases done : t.stage = .done
      · exact ⟨t, now, .refl, done⟩
      · have current (w : Watcher) (since : Duration) (stage : t.stage = .stopping w since) :
            (∃ after error, w.stop = .behaves (.finishes after error)) ∨
              ∃ n, w.stop = .awaits n ∧ true = true := by
          have moves := stop w (runs.underway.mem stage)
          exact (Watcher.answers_of_not_stuck moves).imp_right fun ⟨n, task⟩ => ⟨n, task, rfl⟩
        obtain ⟨wait, u, stepped⟩ : ∃ wait u, t.step c (fun _ => true) (now + wait) = some u :=
          exists_step done now current (Session.Behaviour.finishes_of_ne closes)
        have next : t.Runs c now u (now + wait) :=
          (Runs.refl.wait (Nat.le_add_right _ _)).step stepped
        obtain ⟨v, later, rest, ended⟩ := ih _ (size ▸ left_step stepped) (runs.trans next) rfl
        exact ⟨v, later, next.trans rest, ended⟩

/-- The last step of a teardown is that the file system has closed. -/
theorem closes_of_step (stepped : t.step c ended now = some u) (done : u.stage = .done) :
    c.files ≠ .hangs := by
  intro hangs
  rcases step_cases stepped with ⟨failures, -, rfl⟩ | ⟨failures, since, -, rfl⟩ |
    ⟨failures, since, stage, -⟩
  · rcases next_cases { t with failures } now with ⟨w, rest, -, next⟩ | ⟨-, next⟩ <;>
      rw [next] at done <;> cases done
  · cases done
  · rw [step, stage] at stepped
    dsimp only at stepped
    rw [hangs] at stepped
    cases stepped

/-- A teardown that is done had no watcher that never stops, and a file system that closes. -/
theorem Runs.answered_of_done (runs : (new ws).Runs c start t now) (done : t.stage = .done) :
    (∀ w ∈ ws, ¬ w.Stuck) ∧ c.files ≠ .hangs := by
  constructor
  · have calls := runs.allowed
    rw [runs.underway.all done, Teardown.allowed, done, List.append_nil] at calls
    exact callsUpTo_eq_iff.mp calls.symm
  · induction runs with
    | refl => cases done
    | wait _ _ ih => exact ih done
    | step _ stepped _ => exact closes_of_step stepped done

end Teardown

/-! ### Sessions -/

namespace Session

variable {s : Session} {c : Config} {moves : List Move} {ending : Ending}

/-- A session is over only if all its watchers have stopped. -/
theorem Fresh.stopped_of_over (fresh : s.Fresh c) (initial : s.CleansUp)
    (ended : (s.run moves).isOver = true) : ∀ w ∈ (s.run moves).registered, ¬ w.Stuck := by
  intro w mem stuck
  have calls := ((fresh.cleansUp initial moves).all_of_over ended).1
  have told : TeardownCall.stopWatcher w ∈ (s.run moves).teardown.calls := by
    rw [calls]
    exact List.mem_append_left _ (List.mem_map_of_mem mem)
  obtain ⟨past, rest, split⟩ := List.append_of_mem told
  have uncalled : s.teardown.calls = [] := (initial.of_serving fresh.phase).2
  rcases fresh.heard uncalled moves split with ⟨-, pending⟩ | ⟨earlier, later, -, -, heard⟩
  · rw [Teardown.pending?, (fresh.cleansUp initial moves).done_of_over ended] at pending
    cases pending
  · cases heard with
    | stopped _ behaves answered =>
        rw [stuck] at behaves
        cases behaves
        cases answered
    | finished _ awaits _ =>
        rw [stuck] at awaits
        cases awaits

/-- In a teardown the broker only goes on with it. -/
theorem Proceeds.of_closing {t : Session} {hs : List Happening} (h : Proceeds s hs t)
    (phase : s.phase = .closing ending) : s.stepTeardown ending = some t := by
  cases h with
  | teardown closing stepped =>
      rw [phase] at closing
      cases closing
      exact stepped
  | cancelled serving | recompile serving | took serving | disconnected serving | acts serving =>
      rw [phase] at serving
      cases serving

/-- A session whose teardown waits for a watcher that never stops goes on to wait, whatever
happens. -/
theorem Fresh.held_up (fresh : s.Fresh c) (phase : (s.run moves).phase = .closing ending)
    {w : Watcher} {since : Duration} (stage : (s.run moves).teardown.stage = .stopping w since)
    (stuck : w.Stuck) (more : List Move) : (s.run (moves ++ more)).phase = .closing ending ∧
      (s.run (moves ++ more)).teardown = (s.run moves).teardown := by
  induction more using List.reverseRecOn with
  | nil =>
      rw [List.append_nil]
      exact ⟨phase, rfl⟩
  | append_singleton more m ih =>
      obtain ⟨closing, same⟩ := ih
      rw [← List.append_assoc, run_concat]
      rcases apply_cases (fresh.orderly_of_run (moves ++ more)).sound m with
        ⟨-, proceeds⟩ | ⟨-, aside⟩
      · obtain ⟨teardown, next, -⟩ := stepTeardown_cases (proceeds.of_closing closing)
        exact absurd stuck (Teardown.not_stuck_of_step next (same ▸ stage))
      · exact ⟨aside.phase.trans closing, aside.teardown.trans same⟩

end Session

/-! ### Main statement -/

open Teardown in
/-- **A watcher that never stops holds up the rest of a teardown; nothing else holds it up but the
file system.** Whatever the search engine does and however long its grace period is, a teardown
gets to all calls up to the first watcher that never stops, and to no other: it makes all its calls
exactly when every watcher stops, calls nothing but watchers when one does not, and can come to its
end exactly when every watcher stops and the file system closes. A session that waits for a watcher
that never stops does so for good, and one that is over had none among its watchers. -/
theorem teardown_held_up_by_stuck_watcher (c : Collaborators) (ws : List Watcher)
    (start : Duration) :
    (∀ t now, (new ws).Runs c start t now →
      t.calls <+: callsUpTo ws ∧
      (∃ u later, t.Runs c now u later ∧ u.calls = callsUpTo ws) ∧
      ((∃ u later, t.Runs c now u later ∧ u.stage = .done) ↔
        (∀ w ∈ ws, ¬ w.Stuck) ∧ c.files ≠ .hangs)) ∧
    (callsUpTo ws = callsFor ws ↔ ∀ w ∈ ws, ¬ w.Stuck) ∧
    (∀ w ∈ ws, w.Stuck → ∀ call ∈ callsUpTo ws, ∃ v ∈ ws, call = .stopWatcher v) ∧
    ∀ config f size s moves, Session.start config f c.search c.files size = .ok s →
      (s.run moves).registered = ws →
        ((s.run moves).isOver = true → ∀ w ∈ ws, ¬ w.Stuck) ∧
        ∀ ending w since, (s.run moves).phase = .closing ending →
          (s.run moves).teardown.stage = .stopping w since → w.Stuck → ∀ more,
            (s.run (moves ++ more)).phase = .closing ending ∧
            (s.run (moves ++ more)).teardown = (s.run moves).teardown := by
  refine ⟨?_, callsUpTo_eq_iff, fun w mem stuck => callsUpTo_of_stuck mem stuck, ?_⟩
  · intro t now runs
    refine ⟨⟨t.allowed, runs.allowed⟩, runs.exists_all, ?_⟩
    constructor
    · rintro ⟨u, later, rest, done⟩
      exact (runs.trans rest).answered_of_done done
    · rintro ⟨stop, closes⟩
      exact runs.exists_done stop closes
  · rintro config f size s moves started rfl
    have fresh := Session.fresh_start started
    have initial := (Session.cleansUp_start started).1
    refine ⟨fresh.stopped_of_over initial, ?_⟩
    intro ending w since phase stage stuck more
    exact fresh.held_up phase stage stuck more

open Teardown Session in
/-- The second of three watchers never stops, and the client asks for the end. -/
theorem teardown_held_up_by_stuck_watcher_of_shutdown :
    ∃ s moves a b, start .default ⟨.mixed, .replicate (some 4)⟩ .hangs (.finishes 0 none) 4 =
        .ok s ∧
      a = ⟨"a", .behaves (.finishes 0 none)⟩ ∧ b = ⟨"b", .behaves .hangs⟩ ∧
      moves = [.send (.watcher a), .send (.watcher b), .send (.watcher a),
        .send (.request ⟨"1", .shutdown ⟨"done", false⟩⟩)] ++
        List.replicate 7 (.step .broker) ∧
      (∃ t later, (new [a, b, a]).Runs ⟨.hangs, .finishes 0 none, 0⟩ 0 t later ∧
        t.calls = [.stopWatcher a, .stopWatcher b]) ∧
      (∀ t now, (new [a, b, a]).Runs ⟨.hangs, .finishes 0 none, 0⟩ 0 t now →
        t.calls <+: [.stopWatcher a, .stopWatcher b]) ∧
      (s.run moves).teardown.calls = [.stopWatcher a, .stopWatcher b] ∧
      ∀ more, (s.run (moves ++ more)).phase = .closing (.exit (.requested ⟨"done", false⟩)) ∧
        (s.run (moves ++ more)).teardown = (s.run moves).teardown := by
  have started : start .default ⟨.mixed, .replicate (some 4)⟩ .hangs (.finishes 0 none) 4 =
      .ok _ := start_of_isSome (by decide +kernel)
  refine ⟨_, _, _, _, started, rfl, rfl, rfl, ?_, ?_, by decide +kernel, fun more => ?_⟩
  · exact ((teardown_held_up_by_stuck_watcher ⟨.hangs, .finishes 0 none, 0⟩
      [⟨"a", .behaves (.finishes 0 none)⟩, ⟨"b", .behaves .hangs⟩,
        ⟨"a", .behaves (.finishes 0 none)⟩] 0).1 _ 0 .refl).2.1
  · intro t now runs
    exact ((teardown_held_up_by_stuck_watcher _ _ 0).1 t now runs).1
  · refine ((teardown_held_up_by_stuck_watcher ⟨.hangs, .finishes 0 none, 0⟩ _ 0).2.2.2 _ _ _ _
      _ started rfl).2 _ ⟨"b", .behaves .hangs⟩ 0 ?_ ?_ rfl more <;> decide +kernel

open Teardown in
/-- Behind a watcher that never stops there are another watcher, a search engine and a file system
that would answer at once: none of them is ever called. -/
theorem collaborators_never_called :
    ∃ c stuck other, c = ⟨.finishes 0 none, .finishes 0 none, Duration.ofMillis 100⟩ ∧
      stuck = ⟨"stuck", .behaves .hangs⟩ ∧ other = ⟨"fs", .behaves (.finishes 0 none)⟩ ∧
      ∀ t now, (new [stuck, other]).Runs c 0 t now →
        .stopWatcher other ∉ t.calls ∧ .shutdownSearch ∉ t.calls ∧ .closeFiles ∉ t.calls ∧
          t.stage ≠ .done := by
  refine ⟨_, _, _, rfl, rfl, rfl, fun t now runs => ?_⟩
  have only {call : TeardownCall} (mem : call ∈ t.calls) :
      call = .stopWatcher ⟨"stuck", .behaves .hangs⟩ := by
    have possible := List.mem_append_left t.allowed mem
    rw [runs.allowed] at possible
    exact List.mem_singleton.mp possible
  refine ⟨fun mem => ?_, fun mem => ?_, fun mem => ?_, fun done => ?_⟩
  · exact absurd (only mem) (by decide)
  · exact absurd (only mem) (by decide)
  · exact absurd (only mem) (by decide)
  · exact (runs.answered_of_done done).1 _ (.head _) rfl

end SessionBroker
