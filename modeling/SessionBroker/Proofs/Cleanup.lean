import SessionBroker.Teardown

/-!
What a teardown does from its first call to its last.

`Teardown.callsFor` are the calls that the watchers ask for, `Teardown.ahead` those of them
that are still to be made. A step makes the next call or is the last one (`step_calls`), so no
call is left out and none is made twice. A teardown waits for nothing but the answer to a call
(`exists_step`), and with every step there is less left to do (`left_step`).
-/

namespace SessionBroker

namespace Teardown

variable {c : Collaborators} {ended : Nat → Bool} {now : Duration} {t u : Teardown}

/-- The calls of a teardown of some watchers: each of them is stopped, then the search engine
is shut down, then the file system is closed. -/
def callsFor (ws : List Watcher) : List TeardownCall :=
  ws.map .stopWatcher ++ [.shutdownSearch, .closeFiles]

def ahead (t : Teardown) : List TeardownCall :=
  match t.stage with
  | .ready | .stopping _ _ => callsFor t.watchers
  | .searching _ => [.closeFiles]
  | .closing _ | .done => []

def left (t : Teardown) : Nat := if t.stage = .done then 0 else t.ahead.length + 1

/-! ### Steps -/

/-- The teardown turns to the next watcher, or else to the search engine. -/
theorem next_cases (t : Teardown) (now : Duration) :
    (∃ w rest, t.watchers = w :: rest ∧
      t.next now = { t with watchers := rest }.call (.stopWatcher w) (.stopping w now)) ∨
    (t.watchers = [] ∧ t.next now = t.call .shutdownSearch (.searching now)) := by
  unfold next
  split
  · exact .inl ⟨_, _, by assumption, rfl⟩
  · exact .inr ⟨by assumption, rfl⟩

/-- What a step of a teardown does, apart from the failures that it notes. -/
theorem step_cases (stepped : t.step c ended now = some u) :
    (∃ failures, (t.stage = .ready ∨ ∃ w since, t.stage = .stopping w since) ∧
      u = { t with failures }.next now) ∨
    (∃ failures since, t.stage = .searching since ∧
      u = { t with failures }.call .closeFiles (.closing now)) ∨
    ∃ failures since, t.stage = .closing since ∧ u = { t with failures, stage := .done } := by
  unfold step at stepped
  split at stepped
  · rename_i stage
    cases stepped
    exact .inl ⟨t.failures, .inl stage, rfl⟩
  · rename_i w since stage
    refine .inl ?_
    split at stepped
    · split at stepped
      · cases stepped
        exact ⟨t.failures, .inr ⟨w, since, stage⟩, rfl⟩
      · cases stepped
    · obtain ⟨error, -, rfl⟩ := Option.map_eq_some_iff.mp stepped
      exact ⟨_, .inr ⟨w, since, stage⟩, rfl⟩
  · rename_i since stage
    refine .inr (.inl ?_)
    split at stepped
    · cases stepped
      exact ⟨_, since, stage, rfl⟩
    · split at stepped
      · cases stepped
        exact ⟨_, since, stage, rfl⟩
      · cases stepped
  · rename_i since stage
    obtain ⟨error, -, rfl⟩ := Option.map_eq_some_iff.mp stepped
    exact .inr (.inr ⟨_, since, stage, rfl⟩)
  · cases stepped

/-- A step makes the next call, or it is the last one and makes none. -/
theorem step_calls (stepped : t.step c ended now = some u) :
    t.stage ≠ .done ∧
      ((∃ call, t.ahead = call :: u.ahead ∧ u.calls = t.calls ++ [call] ∧ u.stage ≠ .done ∧
          ∀ w since, u.stage = .stopping w since → call = .stopWatcher w) ∨
        (t.ahead = [] ∧ u.ahead = [] ∧ u.calls = t.calls ∧ u.stage = .done)) := by
  rcases step_cases stepped with ⟨failures, stage, rfl⟩ | ⟨failures, since, stage, rfl⟩ |
    ⟨failures, since, stage, rfl⟩
  · have all : t.ahead = callsFor t.watchers := by
      rcases stage with stage | ⟨w, since, stage⟩ <;> rw [ahead, stage]
    refine ⟨by rcases stage with stage | ⟨w, since, stage⟩ <;> simp [stage], .inl ?_⟩
    rcases next_cases { t with failures } now with ⟨w, rest, watchers, next⟩ | ⟨watchers, next⟩
    · change t.watchers = w :: rest at watchers
      rw [next, all, watchers]
      exact ⟨.stopWatcher w, rfl, rfl, nofun, by rintro v since ⟨⟩; rfl⟩
    · change t.watchers = [] at watchers
      rw [next, all, watchers]
      exact ⟨.shutdownSearch, rfl, rfl, nofun, nofun⟩
  · refine ⟨by simp [stage], .inl ⟨.closeFiles, ?_, rfl, nofun, nofun⟩⟩
    rw [ahead, stage]
    rfl
  · refine ⟨by simp [stage], .inr ⟨?_, rfl, rfl, rfl⟩⟩
    rw [ahead, stage]

/-- Each step of a teardown brings it nearer to its end. -/
theorem left_step (stepped : t.step c ended now = some u) : u.left < t.left := by
  obtain ⟨going, ⟨call, ahead, -, going', -⟩ | ⟨-, -, -, done⟩⟩ := step_calls stepped
  · rw [left, left, if_neg going, if_neg going', ahead, List.length_cons]
    exact Nat.lt_succ_self _
  · rw [left, left, if_neg going, if_pos done]
    exact Nat.succ_pos _

/-! ### All steps -/

/-- A teardown of some watchers is under way, or done. -/
structure Underway (ws : List Watcher) (t : Teardown) : Prop where
  calls : t.calls ++ t.ahead = callsFor ws
  /-- The watcher that the teardown waits for was told to stop. -/
  told : ∀ w since, t.stage = .stopping w since → .stopWatcher w ∈ t.calls

theorem underway_new (ws : List Watcher) : Underway ws (new ws) := ⟨rfl, nofun⟩

/-- A step of a teardown keeps it under way and takes no call back. -/
theorem Underway.step {ws : List Watcher} (underway : Underway ws t)
    (stepped : t.step c ended now = some u) : Underway ws u ∧ t.calls <+: u.calls := by
  obtain ⟨-, ⟨call, ahead, calls, -, current⟩ | ⟨ahead, ahead', calls, done⟩⟩ := step_calls stepped
  · refine ⟨⟨?_, fun w since stage => ?_⟩, calls ▸ List.prefix_append _ _⟩
    · rw [calls, List.append_assoc, List.singleton_append, ← ahead]
      exact underway.calls
    · rw [calls, current w since stage]
      exact List.mem_append_right _ (.head _)
  · refine ⟨⟨?_, fun w since stage => ?_⟩, calls ▸ List.prefix_rfl⟩
    · rw [calls, ahead', ← ahead]
      exact underway.calls
    · rw [done] at stage
      cases stage

/-- At the end all calls were made. -/
theorem Underway.all {ws : List Watcher} (underway : Underway ws t) (done : t.stage = .done) :
    t.calls = callsFor ws := by
  rw [← underway.calls, ahead, done, List.append_nil]

/-- The watcher that the teardown waits for is one of those to be stopped. -/
theorem Underway.mem {ws : List Watcher} (underway : Underway ws t) {w : Watcher}
    {since : Duration} (stage : t.stage = .stopping w since) : w ∈ ws := by
  have mem : TeardownCall.stopWatcher w ∈ callsFor ws :=
    underway.calls ▸ List.mem_append_left _ (underway.told w since stage)
  simpa [callsFor] using mem

/-! ### Waiting -/

theorem answered?_finishes {after since : Duration} {error : Option ServiceError}
    (late : since + after ≤ now) :
    answered? (.finishes after error) since now = some error :=
  if_pos late

/-- If the watcher that is being stopped and the file system answer, the teardown goes on after
a while. For the search engine there is a time limit. -/
theorem exists_step (going : t.stage ≠ .done) (now : Duration)
    (watcher : ∀ w since, t.stage = .stopping w since →
      (∃ after error, w.stop = .behaves (.finishes after error)) ∨
        ∃ n, w.stop = .awaits n ∧ ended n = true)
    (files : ∃ after error, c.files = .finishes after error) :
    ∃ wait u, t.step c ended (now + wait) = some u := by
  unfold step
  cases stage : t.stage with
  | ready => exact ⟨0, _, rfl⟩
  | stopping w since =>
      rcases watcher w since stage with ⟨after, error, stop⟩ | ⟨n, stop, finished⟩
      · refine ⟨since + after, ?_⟩
        simp [stop, answered?_finishes (Nat.le_add_left (since + after) now)]
      · exact ⟨0, by simp [stop, finished]⟩
  | searching since =>
      refine ⟨expiry c.grace since, ?_⟩
      dsimp only
      cases answered? c.search since (now + expiry c.grace since) with
      | some error => exact ⟨_, rfl⟩
      | none => exact ⟨_, if_pos (Nat.le_add_left _ _)⟩
  | closing since =>
      obtain ⟨after, error, behaves⟩ := files
      refine ⟨since + after, ?_⟩
      simp [behaves, answered?_finishes (Nat.le_add_left (since + after) now)]
  | done => exact absurd stage going

end Teardown

end SessionBroker
