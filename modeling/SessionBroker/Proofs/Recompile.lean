import SessionBroker.Proofs.Debounce
import SessionBroker.Proofs.Journal

/-!
Changes of the sources are answered with a recompile in time.

The changes that were handled since the last recompile are read off the journal
(`unanswered`); they make the window of the debouncer (`Session.Punctual`), and a turn of the
loop begins with a look at the clock. So whatever the loop does once the deadline of the window has
passed, it is the recompile. Main statement: `changes_recompiled_in_time`.
-/

namespace SessionBroker

/-! ### Unanswered changes -/

/-- The times of the changes without a recompile, one entry later. -/
def noted (waiting : List Duration) (e : Entry) : List Duration :=
  match e.what with
  | .turn true => []
  | .took (.change _) => waiting ++ [e.time]
  | _ => waiting

/-- The times at which changes were handled since the last recompile, the oldest one first. -/
def unanswered (j : List Entry) : List Duration := j.foldl noted []

/-- The unanswered changes are those before, one entry later. -/
theorem unanswered_concat (j : List Entry) (e : Entry) :
    unanswered (j ++ [e]) = noted (unanswered j) e := by
  simp [unanswered]

/-- What the loop does while changes of these times are unanswered is in time. -/
structure Prompt (delay maxDelay : Duration) (waiting : List Duration) (e : Entry) : Prop where
  /-- Nothing but the recompile, or the end, comes once a change has waited for the greatest
  delay. -/
  bounded : ∀ t ∈ waiting, t + maxDelay ≤ e.time → e.what = .turn true ∨ e.what = .cancelled
  /-- The same holds of the usual delay after the last change. -/
  settled : ∀ t, waiting.getLast? = some t → t + delay ≤ e.time →
    e.what = .turn true ∨ e.what = .cancelled
  /-- And of the deadline that the changes make, also one that the last change came too late to
  move. -/
  due : ∀ fireAt start, Debouncer.Makes delay maxDelay waiting (.pending fireAt start) →
    fireAt ≤ e.time → e.what = .turn true ∨ e.what = .cancelled
  /-- A recompile answers a change, and not too early. -/
  needed : e.what = .turn true → ∃ t ∈ waiting, t + delay ≤ e.time

/-! ### What workers are asked -/

namespace Topology

def recompiles (t : Topology) (w : Worker) : Nat := (t.log w).count .recompile

theorem recompiles_dispatch (t : Topology) (r : Request) (w : Worker) :
    (t.dispatch r).1.recompiles w = t.recompiles w := by
  obtain ⟨-, sent, log⟩ := t.log_dispatch r
  simp [recompiles, log, List.count_eq_zero]

end Topology

/-- Acts that are carried out ask nobody to recompile. -/
theorem Outlets.Performs.recompiles {acts left : List Act} {p q : Outlets}
    (h : Performs acts p left q) (w : Worker) :
    q.topology.recompiles w = p.topology.recompiles w := by
  induction h with
  | refl => rfl
  | @step a rest left p q _ _ _ ih =>
      rw [ih]
      cases a with
      | route r => exact p.topology.recompiles_dispatch r w
      | _ => rfl

namespace Session

variable {c : Config} {j : List Entry} {s t u : Session} {hs : List Happening} {acts : List Act}

/-- All analysis workers are asked to recompile, after requests at most: their mailboxes get one
more message if there is room, and the other mailboxes none. -/
def AsksAll (s t : Session) : Prop :=
  ∃ before : Topology, (∀ w, before.recompiles w = s.topology.recompiles w) ∧
    ∀ w, t.topology.mailbox? w =
      if w = .primary ∨ w = .java then (before.mailbox? w).map Mailbox.asked
      else before.mailbox? w

def AsksNobody (s t : Session) : Prop :=
  ∀ w, t.topology.recompiles w = s.topology.recompiles w

/-- A turn with a recompile asks all analysis workers, anything else nobody. -/
theorem GetsOn.asks (h : GetsOn s acts hs t) :
    (.turn true ∈ hs → AsksAll s t) ∧ (.turn true ∉ hs → AsksNobody s t) := by
  have performs := s.outlets.performs_perform acts
  cases h with
  | leaves result | waits result | rests result =>
      rw [result] at performs
      exact ⟨by simp, fun _ => performs.recompiles⟩
  | recompiles result due =>
      rw [result] at performs
      refine ⟨fun _ => ?_, by simp⟩
      obtain ⟨-, rfl⟩ := recompileIfDue_eq due
      exact ⟨_, performs.recompiles, Topology.mailbox?_recompileAll _⟩

/-- A step of the broker asks all analysis workers if it takes a turn with a recompile, and nobody
otherwise. -/
theorem Proceeds.asks (h : Proceeds s hs t) :
    (.turn true ∈ hs → AsksAll s t) ∧ (.turn true ∉ hs → AsksNobody s t) := by
  cases h with
  | cancelled | disconnected => exact ⟨by simp, fun _ _ => rfl⟩
  | recompile _ _ due =>
      obtain ⟨-, rfl⟩ := recompileIfDue_eq due
      exact ⟨fun _ => ⟨_, fun _ => rfl, Topology.mailbox?_recompileAll _⟩, by simp⟩
  | took _ _ _ _ gets =>
      obtain ⟨all, nobody⟩ := gets.asks
      exact ⟨fun mem => all (by simpa using mem), fun none_ => nobody (by simpa using none_)⟩
  | acts _ gets => exact gets.asks
  | teardown _ stepped =>
      refine ⟨by simp, fun _ _ => ?_⟩
      obtain ⟨teardown, rfl | rfl⟩ := stepTeardown_eq_some stepped <;> rfl

/-- Likewise for any move, since only those of the broker leave entries in the journal. -/
theorem asks_apply (sound : s.inbox.Sound) (m : Move) :
    ((∃ e ∈ s.entries m, e.what = .turn true) → AsksAll s (s.apply m)) ∧
      ((∀ e ∈ s.entries m, e.what ≠ .turn true) → AsksNobody s (s.apply m)) := by
  rcases apply_cases sound m with ⟨rfl, proceeds⟩ | ⟨nothing, aside⟩
  · obtain ⟨all, nobody⟩ := proceeds.asks
    refine ⟨fun some_ => all (by simpa [entries, dated] using some_), fun none_ => nobody ?_⟩
    intro mem
    exact none_ _ (List.mem_map_of_mem mem) rfl
  · rw [nothing]
    exact ⟨by simp, fun _ w => congrArg (·.count .recompile) (aside.log w)⟩

/-! ### The debouncer in a run -/

theorem unanswered_dated (j : List Entry) (s : Session) (what : Happening) :
    unanswered (j ++ s.dated [what]) = noted (unanswered j) ⟨s.now, what⟩ := by
  rw [dated, List.map_singleton, unanswered_concat]

/-- So far the loop has been in time, and the unanswered changes make the debouncer's window. -/
structure Punctual (c : WatcherConfig) (j : List Entry) (s : Session) : Prop where
  delay : s.broker.debouncer.delay = c.debounce
  maxDelay : s.broker.debouncer.maxDelay = c.maxDelay
  makes : Debouncer.Makes s.broker.debouncer.delay s.broker.debouncer.maxDelay (unanswered j)
    s.broker.debouncer.window
  ordered : (unanswered j).Pairwise (· ≤ ·)
  past : ∀ t ∈ unanswered j, t ≤ s.now
  prompt : ∀ early e late, j = early ++ e :: late →
    Prompt c.debounce c.maxDelay (unanswered early) e

namespace Punctual

variable {c : WatcherConfig} {e : Entry}

/-- A later time and a broker with the same debouncer leave the loop in time. -/
theorem frame (punctual : Punctual c j s) (same : t.broker.debouncer = s.broker.debouncer)
    (time : s.now ≤ t.now) : Punctual c j t where
  delay := same ▸ punctual.delay
  maxDelay := same ▸ punctual.maxDelay
  makes := same ▸ punctual.makes
  ordered := punctual.ordered
  past := fun u mem => Nat.le_trans (punctual.past u mem) time
  prompt := punctual.prompt

/-- While no recompile is due, no change has waited for too long, and the deadline that the changes
make is still to come. -/
theorem not_overdue (punctual : Punctual c j s) (idle : s.recompileIfDue = none) :
    (∀ t ∈ unanswered j, s.now < t + c.maxDelay) ∧
      (∀ t, (unanswered j).getLast? = some t → s.now < t + c.debounce) ∧
      ∀ fireAt start,
        Debouncer.Makes c.debounce c.maxDelay (unanswered j) (.pending fireAt start) →
          s.now < fireAt := by
  rw [← punctual.delay, ← punctual.maxDelay]
  apply punctual.makes.not_overdue punctual.ordered
  rw [← recompileIfDue_isSome, idle]
  rfl

/-- Whatever the loop does at a time at which no recompile is due is in time. -/
theorem prompt_of_idle (punctual : Punctual c j s) (idle : s.recompileIfDue = none)
    (time : e.time = s.now) (other : e.what ≠ .turn true) :
    Prompt c.debounce c.maxDelay (unanswered j) e := by
  obtain ⟨bounded, settled, due⟩ := punctual.not_overdue idle
  rw [← time] at bounded settled due
  exact ⟨fun t mem late => absurd late (Nat.not_le_of_lt (bounded t mem)),
    fun t last late => absurd late (Nat.not_le_of_lt (settled t last)),
    fun fireAt start makes late => absurd late (Nat.not_le_of_lt (due fireAt start makes)),
    fun h => absurd h other⟩

/-- One more entry of the journal is in time. -/
theorem prompt_concat (punctual : Punctual c j s)
    (last : Prompt c.debounce c.maxDelay (unanswered j) e) (early : List Entry) (f : Entry)
    (late : List Entry) (split : j ++ [e] = early ++ f :: late) :
    Prompt c.debounce c.maxDelay (unanswered early) f := by
  rcases List.eq_nil_or_concat late with rfl | ⟨others, g, rfl⟩
  · obtain ⟨rfl, same⟩ := List.append_inj' split rfl
    cases same
    exact last
  · rw [List.concat_eq_append, ← List.cons_append, ← List.append_assoc] at split
    obtain ⟨rfl, -⟩ := List.append_inj' split rfl
    exact punctual.prompt _ _ _ rfl

/-- The loop does something that is neither a recompile nor the handling of a change. -/
theorem pass (punctual : Punctual c j s) (what : Happening)
    (prompt : Prompt c.debounce c.maxDelay (unanswered j) ⟨s.now, what⟩)
    (same : noted (unanswered j) ⟨s.now, what⟩ = unanswered j) :
    Punctual c (j ++ s.dated [what]) s where
  delay := punctual.delay
  maxDelay := punctual.maxDelay
  makes := by
    rw [unanswered_dated, same]
    exact punctual.makes
  ordered := by
    rw [unanswered_dated, same]
    exact punctual.ordered
  past := by
    rw [unanswered_dated, same]
    exact punctual.past
  prompt := punctual.prompt_concat prompt

/-- A turn begins with a recompile. -/
theorem recompile (punctual : Punctual c j s) (due : s.recompileIfDue = some t) :
    Punctual c (j ++ s.dated [.turn true]) t := by
  obtain ⟨fired, rfl⟩ := recompileIfDue_eq due
  have none_ : unanswered (j ++ s.dated [.turn true]) = [] := unanswered_dated j s _
  have needed := punctual.makes.of_due fired
  rw [punctual.delay] at needed
  refine ⟨?_, ?_, ?_, ?_, ?_, punctual.prompt_concat ⟨fun _ _ _ => .inl rfl,
    fun _ _ _ => .inl rfl, fun _ _ _ _ => .inl rfl, fun _ => needed⟩⟩
  · change (s.broker.debouncer.poll s.now).2.delay = _
    rw [Debouncer.poll_snd fired, ← punctual.delay]
  · change (s.broker.debouncer.poll s.now).2.maxDelay = _
    rw [Debouncer.poll_snd fired, ← punctual.maxDelay]
  · change Debouncer.Makes _ _ _ (s.broker.debouncer.poll s.now).2.window
    rw [none_, Debouncer.poll_snd fired]
    exact .idle
  · rw [none_]
    exact .nil
  · rw [none_]
    simp

/-- A message is handled at a time at which no recompile is due. -/
theorem took (punctual : Punctual c j s) (short : c.debounce < c.maxDelay)
    (idle : s.recompileIfDue = none) (m : BrokerMessage) (inbox : Mailbox BrokerMessage) :
    Punctual c (j ++ s.dated [.took m])
      { s with inbox, broker := (s.broker.handle s.now m).1 } := by
  have prompt : Prompt c.debounce c.maxDelay (unanswered j) ⟨s.now, .took m⟩ :=
    punctual.prompt_of_idle idle rfl (by simp)
  have handles := s.broker.handles_handle s.now m
  by_cases changes : ∃ change, m = .change change
  · obtain ⟨change, rfl⟩ := changes
    have makes := punctual.makes.notify (by rw [punctual.delay, punctual.maxDelay]; exact short)
      punctual.past
    have more : unanswered (j ++ s.dated [.took (.change change)]) = unanswered j ++ [s.now] :=
      unanswered_dated j s _
    refine ⟨?_, ?_, ?_, ?_, ?_, punctual.prompt_concat prompt⟩
    · exact Debouncer.notify_delay.trans punctual.delay
    · exact Debouncer.notify_maxDelay.trans punctual.maxDelay
    · change Debouncer.Makes (s.broker.debouncer.notify s.now).delay
        (s.broker.debouncer.notify s.now).maxDelay _ (s.broker.debouncer.notify s.now).window
      rw [more, Debouncer.notify_delay, Debouncer.notify_maxDelay]
      exact makes
    · rw [more]
      refine List.pairwise_append.mpr ⟨punctual.ordered, List.pairwise_singleton .., ?_⟩
      intro t mem u new
      rw [List.mem_singleton.mp new]
      exact punctual.past t mem
    · rw [more]
      intro t mem
      rcases List.mem_append.mp mem with old | new
      · exact punctual.past t old
      · exact Nat.le_of_eq (List.mem_singleton.mp new)
  · have same : noted (unanswered j) ⟨s.now, .took m⟩ = unanswered j := by
      cases m with
      | change change => exact absurd ⟨change, rfl⟩ changes
      | _ => rfl
    refine (punctual.pass _ prompt same).frame ?_ (Nat.le_refl _)
    change (s.broker.handle s.now m).1.debouncer = _
    generalize (s.broker.handle s.now m).1 = broker at handles
    generalize (s.broker.handle s.now m).2 = acts at handles
    cases handles with
    | change => exact absurd ⟨_, rfl⟩ changes
    | _ => rfl

/-- Going on with its acts the loop is in time. -/
theorem getsOn (punctual : Punctual c j s) (h : GetsOn s acts hs t) :
    Punctual c (j ++ s.dated hs) t := by
  cases h with
  | leaves | waits =>
      rw [dated, List.map_nil, List.append_nil]
      exact punctual.frame rfl (Nat.le_refl _)
  | rests _ idle =>
      exact (punctual.pass _ (punctual.prompt_of_idle idle rfl (by simp)) rfl).frame rfl
        (Nat.le_refl _)
  | @recompiles p _ _ due =>
      have after_ : Punctual c j ((s.withOutlets p).withAgenda []) :=
        punctual.frame rfl (Nat.le_refl _)
      exact after_.recompile due

/-- With every step of the broker the loop is in time. -/
theorem proceeds (punctual : Punctual c j s) (short : c.debounce < c.maxDelay)
    (h : Proceeds s hs t) : Punctual c (j ++ s.dated hs) t := by
  cases h with
  | cancelled =>
      exact (punctual.pass _ ⟨fun _ _ _ => .inr rfl, fun _ _ _ => .inr rfl,
        fun _ _ _ _ => .inr rfl, by simp⟩ rfl).frame rfl
        (Nat.le_refl _)
  | recompile _ _ due => exact punctual.recompile due
  | @took m inbox hs _ _ _ idle _ gets =>
      have handled := (punctual.took short idle m inbox).getsOn gets
      rw [List.append_assoc] at handled
      exact handled
  | disconnected _ _ idle =>
      exact (punctual.pass _ (punctual.prompt_of_idle idle rfl (by simp)) rfl).frame rfl
        (Nat.le_refl _)
  | acts _ gets => exact punctual.getsOn gets
  | teardown _ stepped =>
      rw [dated, List.map_nil, List.append_nil]
      obtain ⟨teardown, rfl | rfl⟩ := stepTeardown_eq_some stepped <;>
        exact punctual.frame rfl (Nat.le_refl _)

end Punctual

/-- The debouncer of a session that starts is the configured one, and its delays are in order. -/
theorem debouncer_start {f : Staffing} {search files : Behaviour} {size : Nat}
    (started : start c f search files size = .ok s) :
    s.broker.debouncer = ⟨c.watcher.debounce, c.watcher.maxDelay, .idle⟩ ∧
      c.watcher.debounce < c.watcher.maxDelay := by
  obtain ⟨broker, made, rfl⟩ := exists_of_start started
  simp only [Broker.ofConfig, Debouncer.ofConfig, Debouncer.new?] at made
  by_cases short : c.watcher.debounce < c.watcher.maxDelay
  · rw [if_pos short] at made
    cases made
    exact ⟨rfl, short⟩
  · rw [if_neg short] at made
    cases made

/-- The loop is in time in every run. -/
theorem punctual_run {f : Staffing} {search files : Behaviour} {size : Nat}
    (started : start c f search files size = .ok s) (moves : List Move) :
    Punctual c.watcher (s.journal moves) (s.run moves) := by
  obtain ⟨debouncer, short⟩ := debouncer_start started
  refine (fresh_start started).run_induction (P := Punctual c.watcher) ?_ ?_ ?_ moves
  · refine ⟨by rw [debouncer], by rw [debouncer], ?_, .nil, by simp [unanswered], by simp⟩
    rw [debouncer]
    exact .idle
  · intro j t u hs _ punctual proceeds
    exact punctual.proceeds short proceeds
  · intro j t u punctual aside
    exact punctual.frame (by rw [aside.broker]) aside.time

end Session

/-! ### Main statement -/

open Session in
/-- **Every change is answered with a recompile in time.** In every run, before and after the
handshake alike, whatever the loop does while changes are unanswered is in time (`Prompt`): once a
change was handled the greatest delay ago, or the last one the usual delay ago, or the deadline
that the changes make has come, the next thing that the loop does, be it the beginning of a turn or
the next message, is the recompile, unless the session is cancelled; and a recompile never comes
without a change since the one before. A loop that waits for something to do does ask for a
recompile that is overdue. Those entries of the journal, and no other moves, ask workers to
recompile. -/
theorem changes_recompiled_in_time {c : Config} {f : Staffing} {search files : Behaviour}
    {size : Nat} {s : Session} (started : start c f search files size = .ok s)
    (moves : List Move) :
    (∀ early e late, s.journal moves = early ++ e :: late →
      Prompt c.watcher.debounce c.watcher.maxDelay (unanswered early) e) ∧
    ((∃ t ∈ unanswered (s.journal moves), t + c.watcher.maxDelay ≤ (s.run moves).now) ∨
        (∃ t, (unanswered (s.journal moves)).getLast? = some t ∧
          t + c.watcher.debounce ≤ (s.run moves).now) ∨
        (∃ fireAt start, Debouncer.Makes c.watcher.debounce c.watcher.maxDelay
          (unanswered (s.journal moves)) (.pending fireAt start) ∧
            fireAt ≤ (s.run moves).now) →
      (s.run moves).phase = .serving [] → (s.run moves).cancelled = false →
      (s.run moves).entries (.step .broker) = [⟨(s.run moves).now, .turn true⟩]) ∧
    ∀ m, ((∃ e ∈ (s.run moves).entries m, e.what = .turn true) →
        AsksAll (s.run moves) ((s.run moves).apply m)) ∧
      ((∀ e ∈ (s.run moves).entries m, e.what ≠ .turn true) →
        AsksNobody (s.run moves) ((s.run moves).apply m)) := by
  have punctual := punctual_run started moves
  refine ⟨punctual.prompt, fun overdue phase cancelled => ?_,
    asks_apply ((fresh_start started).orderly_of_run moves).sound⟩
  have due : (s.run moves).recompileIfDue.isSome = true := by
    cases idle : (s.run moves).recompileIfDue with
    | some t => rfl
    | none =>
        obtain ⟨bounded, settled, due⟩ := punctual.not_overdue idle
        rcases overdue with ⟨t, mem, late⟩ | ⟨t, last, late⟩ | ⟨fireAt, start, makes, late⟩
        · exact absurd late (Nat.not_le_of_lt (bounded t mem))
        · exact absurd late (Nat.not_le_of_lt (settled t last))
        · exact absurd late (Nat.not_le_of_lt (due fireAt start makes))
  rw [entries, happenings_of_idle phase, cancelled, due]
  rfl

open Session in
/-- Two changes come within the usual delay and are answered with one recompile, ahead of a
request that waits by then. A third change is overdue when the loop gets to it. -/
theorem changes_recompiled_in_time_of_burst :
    ∃ s moves t ms a, start .default ⟨.javaOnly, .replicate (some 4)⟩ .hangs .hangs 4 = .ok s ∧
      ms = Duration.ofMillis ∧ a = Change.changed (Path.ofString "A.java") ∧
      moves = [.send (.change a), .step .broker, .advance (ms 300), .send (.change a),
        .step .broker, .advance (ms 500), .send (.request ⟨"1", .search ⟨"x", none⟩⟩),
        .step .broker, .step .broker, .send (.change a), .step .broker, .advance (ms 5000)] ∧
      s.run moves = t ∧
      s.journal moves = [⟨0, .took (.change a)⟩, ⟨0, .turn false⟩, ⟨ms 300, .took (.change a)⟩,
        ⟨ms 300, .turn false⟩, ⟨ms 800, .turn true⟩,
        ⟨ms 800, .took (.request ⟨"1", .search ⟨"x", none⟩⟩)⟩, ⟨ms 800, .turn false⟩,
        ⟨ms 800, .took (.change a)⟩, ⟨ms 800, .turn false⟩] ∧
      (∀ early e late, s.journal moves = early ++ e :: late →
        Prompt (ms 500) (ms 5000) (unanswered early) e) ∧
      (ms 800 ∈ unanswered (s.journal moves) ∧ ms 800 + ms 5000 ≤ t.now ∧
        t.phase = .serving [] ∧ t.cancelled = false ∧
        t.entries (.step .broker) = [⟨ms 5800, .turn true⟩]) ∧
      AsksAll t (t.apply (.step .broker)) := by
  have started : start .default ⟨.javaOnly, .replicate (some 4)⟩ .hangs .hangs 4 = .ok _ :=
    start_of_isSome (by decide +kernel)
  refine ⟨_, _, _, _, _, started, rfl, rfl, rfl, rfl, by decide +kernel,
    (changes_recompiled_in_time started _).1, ⟨?_, ?_, ?_, ?_, ?_⟩, ?_⟩
  · decide +kernel
  · decide +kernel
  · decide +kernel
  · decide +kernel
  · refine ((changes_recompiled_in_time started _).2.1 (.inl ⟨Duration.ofMillis 800, ?_, ?_⟩)
      ?_ ?_).trans ?_ <;> decide +kernel
  · refine ((changes_recompiled_in_time started _).2.2 _).1
      ⟨⟨Duration.ofMillis 5800, .turn true⟩, ?_, rfl⟩
    decide +kernel

end SessionBroker
