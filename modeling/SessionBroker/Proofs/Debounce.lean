import SessionBroker.Debounce

/-!
What a debouncer makes of the notifications since its last recompile.

`Debouncer.Makes` reads the window off these notifications alone: the first of them opens it, and
the recompile is due after the latest one that leaves it within the bound. There is one such window
(`Makes.unique`), every notification keeps it (`Makes.notify`), and its deadline is neither later
than the delays allow (`Makes.deadline_le`) nor passed over (`Makes.not_overdue`).
-/

namespace SessionBroker

namespace Debouncer

/-- The window that some notifications make, the oldest one first: the recompile follows the
latest one that leaves it within `maxDelay` of the first one. -/
inductive Makes (delay maxDelay : Duration) : List Duration → Window → Prop
  | idle : Makes delay maxDelay [] .idle
  | pending {start n : Duration} {later : List Duration} :
      n ∈ start :: later → n + delay ≤ start + maxDelay →
      (∀ m ∈ start :: later, m + delay ≤ start + maxDelay → m ≤ n) →
      Makes delay maxDelay (start :: later) (.pending (n + delay) start)

variable {d : Debouncer} {now : Duration}

@[simp] theorem notify_delay : (d.notify now).delay = d.delay := by
  unfold notify
  split
  · rfl
  · split <;> rfl

@[simp] theorem notify_maxDelay : (d.notify now).maxDelay = d.maxDelay := by
  unfold notify
  split
  · rfl
  · split <;> rfl

/-- A recompile is due exactly when the window says so. -/
theorem poll_fst : (d.poll now).1 = true ↔
    ∃ fireAt start, d.window = .pending fireAt start ∧ fireAt ≤ now := by
  unfold poll
  split
  · rename_i fireAt start window
    split <;> simp [*]
  · simp [*]

/-- A recompile ends the window. -/
theorem poll_snd (due : (d.poll now).1 = true) : (d.poll now).2 = { d with window := .idle } := by
  obtain ⟨fireAt, start, window, passed⟩ := poll_fst.mp due
  simp only [poll, window, if_pos passed]

/-- A poll that is not answered with a recompile changes nothing. -/
theorem poll_snd_of_early (early : (d.poll now).1 = false) : (d.poll now).2 = d := by
  unfold poll at early ⊢
  split at early
  · split at early
    · cases early
    · rename_i later
      simp only [later, if_false]
  · rfl

namespace Makes

variable {delay maxDelay fireAt start : Duration} {waiting : List Duration} {window other : Window}

/-- Notifications make one window. -/
theorem unique (makes : Makes delay maxDelay waiting window)
    (too : Makes delay maxDelay waiting other) : window = other := by
  cases makes with
  | idle =>
      cases too
      rfl
  | pending mem fits latest =>
      cases too with
      | pending mem' fits' latest' =>
          have same := Nat.le_antisymm (latest' _ mem fits) (latest _ mem' fits')
          rw [same]

/-- Without notifications nothing is pending, and with one something is. -/
theorem window_eq_idle (makes : Makes delay maxDelay waiting window) :
    window = .idle ↔ waiting = [] := by
  cases makes <;> simp

/-- The recompile is due at most the greatest delay after any of the notifications, and at most the
usual delay after the last one. -/
theorem deadline_le (makes : Makes delay maxDelay waiting (.pending fireAt start))
    (ordered : waiting.Pairwise (· ≤ ·)) :
    (∀ t ∈ waiting, fireAt ≤ t + maxDelay) ∧
      ∀ t, waiting.getLast? = some t → fireAt ≤ t + delay := by
  cases makes with
  | @pending start n later mem fits latest =>
      constructor
      · intro t known
        have first : start ≤ t := by
          rcases List.mem_cons.mp known with rfl | after
          · exact Nat.le_refl _
          · exact List.rel_of_pairwise_cons ordered after
        exact Nat.le_trans fits (Nat.add_le_add_right first _)
      · intro t last
        obtain ⟨before, split⟩ := List.getLast?_eq_some_iff.mp last
        rw [split] at mem ordered
        refine Nat.add_le_add_right ?_ _
        rcases List.mem_append.mp mem with old | new
        · exact (List.pairwise_append.mp ordered).2.2 n old t (.head _)
        · exact Nat.le_of_eq (List.mem_singleton.mp new)

/-- One more notification, not earlier than the others. -/
theorem notify (makes : Makes d.delay d.maxDelay waiting d.window) (short : d.delay < d.maxDelay)
    (past : ∀ t ∈ waiting, t ≤ now) :
    Makes d.delay d.maxDelay (waiting ++ [now]) (d.notify now).window := by
  generalize same : d.window = window at makes
  cases makes with
  | idle =>
      have opens : (d.notify now).window = .pending (now + d.delay) now := by
        simp [Debouncer.notify, same]
      rw [opens]
      refine .pending (.head _) (Nat.add_le_add_left (Nat.le_of_lt short) _) fun m mem _ => ?_
      exact Nat.le_of_eq (List.mem_singleton.mp mem)
  | @pending start n later mem fits latest =>
      have split {m : Duration} (known : m ∈ start :: (later ++ [now])) :
          m ∈ start :: later ∨ m = now := by
        simpa [or_assoc] using known
      by_cases exhausted : start + d.maxDelay < now + d.delay
      · -- The recompile stays where it is: the new notification is no candidate.
        have stays : (d.notify now).window = .pending (n + d.delay) start := by
          simp [Debouncer.notify, same, exhausted]
        rw [stays]
        refine .pending (List.mem_append_left [now] mem) fits fun m known within => ?_
        rcases split known with old | rfl
        · exact latest m old within
        · exact absurd within (Nat.not_le_of_lt exhausted)
      · have moved : (d.notify now).window = .pending (now + d.delay) start := by
          simp [Debouncer.notify, same, exhausted]
        rw [moved]
        have last : now ∈ start :: (later ++ [now]) := by simp
        refine .pending last (Nat.le_of_not_lt exhausted) fun m known _ => ?_
        rcases split known with old | rfl
        · exact past m old
        · exact Nat.le_refl _

/-- A recompile that is due follows a notification, by the usual delay at least. -/
theorem of_due (makes : Makes d.delay d.maxDelay waiting d.window) (due : (d.poll now).1 = true) :
    ∃ t ∈ waiting, t + d.delay ≤ now := by
  obtain ⟨fireAt, start, window, passed⟩ := poll_fst.mp due
  rw [window] at makes
  cases makes with
  | pending mem _ _ => exact ⟨_, mem, passed⟩

/-- As long as no recompile is due, no notification has waited for too long, and the deadline that
the notifications make is still to come. -/
theorem not_overdue (makes : Makes d.delay d.maxDelay waiting d.window)
    (ordered : waiting.Pairwise (· ≤ ·)) (early : (d.poll now).1 = false) :
    (∀ t ∈ waiting, now < t + d.maxDelay) ∧
      (∀ t, waiting.getLast? = some t → now < t + d.delay) ∧
      ∀ fireAt start, Makes d.delay d.maxDelay waiting (.pending fireAt start) → now < fireAt := by
  have ahead {fireAt start : Duration}
      (pending : Makes d.delay d.maxDelay waiting (.pending fireAt start)) : now < fireAt := by
    apply Nat.lt_of_not_le
    intro passed
    rw [poll_fst.mpr ⟨fireAt, start, makes.unique pending, passed⟩] at early
    cases early
  have pending (some_ : waiting ≠ []) :
      ∃ fireAt start, Makes d.delay d.maxDelay waiting (.pending fireAt start) := by
    generalize d.window = window at makes
    cases makes with
    | idle => exact absurd rfl some_
    | pending mem fits latest => exact ⟨_, _, .pending mem fits latest⟩
  refine ⟨fun t mem => ?_, fun t last => ?_, fun _ _ => ahead⟩
  · obtain ⟨fireAt, start, pending⟩ := pending (List.ne_nil_of_mem mem)
    exact Nat.lt_of_lt_of_le (ahead pending) ((pending.deadline_le ordered).1 t mem)
  · obtain ⟨fireAt, start, pending⟩ := pending (List.ne_nil_of_mem (List.mem_of_getLast? last))
    exact Nat.lt_of_lt_of_le (ahead pending) ((pending.deadline_le ordered).2 t last)

end Makes

end Debouncer

end SessionBroker
