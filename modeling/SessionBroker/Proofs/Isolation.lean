import SessionBroker.Proofs.Drain
import SessionBroker.Proofs.Quiet

/-!
A worker cannot disturb the others.

Two sessions are compared that differ in one worker only, and that go through the same moves
but for those of this worker and of the events on their way to the client.
`Session.AgreeBut` says what they have in common. Main statement: `worker_isolated`.
-/

namespace SessionBroker

namespace Staffing

variable {f f' : Staffing} {w : Worker}

theorem hide_topology (layout : f'.layout = f.layout)
    (others : ∀ v, v ≠ w → f'.sizes.get v = f.sizes.get v) :
    f'.topology.hide w = f.topology.hide w := by
  have mailboxes : (f'.topology.hide w).mailboxes = (f.topology.hide w).mailboxes := by
    refine PerWorker.ext_get fun v => ?_
    change (f'.topology.hide w).mailbox? v = (f.topology.hide w).mailbox? v
    by_cases same : v = w
    · rw [same, Topology.mailbox?_hide_self, Topology.mailbox?_hide_self]
    · rw [Topology.mailbox?_hide_of_ne _ same, Topology.mailbox?_hide_of_ne _ same]
      have started : f'.isStarted v = f.isStarted v := by
        rw [isStarted, isStarted, wanted, wanted, layout, others v same]
      simp only [Topology.mailbox?, topology, PerWorker.get_ofFn, started, others v same]
  exact (Topology.mk.injEq ..).mpr ⟨layout, mailboxes⟩

end Staffing

namespace Session

variable {c : Config} {s s' t u : Session} {w : Worker}

/-- Sessions that differ in a worker only are the same without it when they start. -/
theorem alone_start {f f' : Staffing} {search files : Behaviour} {size : Nat}
    (started : start c f search files size = .ok s)
    (started' : start c f' search files size = .ok s') (layout : f'.layout = f.layout)
    (others : ∀ v, v ≠ w → f'.sizes.get v = f.sizes.get v) : s'.alone w = s.alone w := by
  have topology := Staffing.hide_topology layout others
  obtain ⟨broker, made, rfl⟩ := exists_of_start started
  obtain ⟨broker', made', rfl⟩ := exists_of_start started'
  rw [made] at made'
  cases made'
  simp only [alone, topology]

theorem uncalled_start {f : Staffing} {search files : Behaviour} {size : Nat}
    (started : start c f search files size = .ok s) : s.Uncalled := by
  obtain ⟨broker, -, rfl⟩ := exists_of_start started
  exact fun _ _ => rfl

/-- What two sessions have in common that differ in a worker only. -/
structure AgreeBut (w : Worker) (t u : Session) : Prop where
  parked : u.broker.parked = t.broker.parked
  connection : u.broker.connection = t.broker.connection
  ending : u.ending? = t.ending?
  /-- Once each broker is done with its acts, nothing but the worker and what the client is
  told can make a difference. -/
  broker : t.agenda = [] → u.agenda = [] → u.broker = t.broker
  others : t.agenda = [] → u.agenda = [] →
    ∀ v, v ≠ w → u.topology.mailbox? v = t.topology.mailbox? v
  rest : t.agenda = [] → u.agenda = [] → u.alone w = t.alone w

/-- Sessions that are the same with a worker quiet agree about all the others. -/
theorem agreeBut_of_quiet (same : u.quiet w = t.quiet w) : AgreeBut w t u := by
  have frame := u.quiet_frame w
  rw [same] at frame
  obtain ⟨parked, connection, ending⟩ := frame
  obtain ⟨parked', connection', ending'⟩ := t.quiet_frame w
  have alone (idle : t.agenda = []) (idle' : u.agenda = []) : u.alone w = t.alone w := by
    rw [← quiet_of_idle idle, ← quiet_of_idle idle', same]
  refine ⟨parked.symm.trans parked', connection.symm.trans connection', ending.symm.trans ending',
    fun idle idle' => ?_, fun idle idle' v different => ?_, alone⟩
  · have broker := congrArg Session.broker (alone idle idle')
    exact broker
  · have topology := congrArg Session.topology (alone idle idle')
    change u.topology.hide w = t.topology.hide w at topology
    rw [← Topology.mailbox?_hide_of_ne _ different, topology,
      Topology.mailbox?_hide_of_ne _ different]

/-- A broker that goes on with its acts does what it would come to anyway. -/
theorem quiet_of_goesOn {moves : List Move} (turns : s.TakesTurns GoesOn moves) :
    (s.run moves).quiet w = s.quiet w := by
  induction moves generalizing s with
  | nil => rfl
  | cons m moves ih =>
      obtain ⟨first, later⟩ := turns
      have hides : s.hides w m = true := by
        rcases first with ⟨count, rfl⟩ | ⟨task, rfl, rfl | ⟨rfl, busy⟩⟩
        · rfl
        · rfl
        · simpa [hides] using busy
      exact (ih later).trans (quiet_of_hides hides)

/-- As long as the client reads, the broker gets through its acts. -/
theorem Fresh.exists_idle {allowed : Move → Prop} {out : List Event} (fresh : s.Fresh c)
    (room : 0 < s.client.capacity) (reads : ∀ count, allowed (.readClient count))
    (h : Reaches allowed s out t) (there : t.client.isOpen = true) :
    ∃ more, t.TakesTurns GoesOn more ∧ (t.run more).agenda = [] := by
  obtain ⟨more, turns, rest, -⟩ := fresh.goesOn room reads h there
  exact ⟨more, turns, rest.agenda⟩

end Session

/-! ### Main statement -/

open Session in
/-- **A worker cannot disturb the others.** Two sessions start with the same configuration and
layout, and differ in one worker: whether and with which mailbox it starts. They go through the
same moves, except that this worker reads and stops as it likes, that any worker emits what it
likes, and that events take their time on the way to the client. Then after these moves they
have parked the same requests, have the same connection and have come to the same ending if to
any; and when the brokers are done with their acts, every other worker has been given the same
messages, changes are debounced alike, and all the rest is equal as well. The brokers do get
done with their acts if the clients keep reading. -/
theorem worker_isolated {c : Config} {f f' : Staffing} {search files : Behaviour} {size : Nat}
    {s s' : Session} {w : Worker} (started : start c f search files size = .ok s)
    (started' : start c f' search files size = .ok s') (layout : f'.layout = f.layout)
    (others : ∀ v, v ≠ w → f'.sizes.get v = f.sizes.get v) {moves moves' : List Move}
    (keepsUp : s.keepsUp w moves = true) (keepsUp' : s'.keepsUp w moves' = true)
    (common : s'.common w moves' = s.common w moves) :
    AgreeBut w (s.run moves) (s'.run moves') ∧
    (0 < size → (s.run moves).client.isOpen = true → (s'.run moves').client.isOpen = true →
      ∃ more more', (s.run moves).TakesTurns GoesOn more ∧
        (s'.run moves').TakesTurns GoesOn more' ∧
        ((s.run moves).run more).agenda = [] ∧ ((s'.run moves').run more').agenda = [] ∧
        AgreeBut w ((s.run moves).run more) ((s'.run moves').run more')) := by
  obtain ⟨fresh, -, client⟩ := start_eq_ok started
  obtain ⟨fresh', -, client'⟩ := start_eq_ok started'
  have initial : s'.quiet w = s.quiet w := by
    rw [quiet_of_idle fresh.agenda, quiet_of_idle fresh'.agenda,
      alone_start started started' layout others]
  have same : (s'.run moves').quiet w = (s.run moves).quiet w := by
    rw [quiet_run (uncalled_start started') keepsUp', quiet_run (uncalled_start started) keepsUp,
      initial, common]
  refine ⟨agreeBut_of_quiet same, fun room there there' => ?_⟩
  obtain ⟨out, reached⟩ := reaches_run (fun _ => True) s moves fun _ _ _ => trivial
  obtain ⟨out', reached'⟩ := reaches_run (fun _ => True) s' moves' fun _ _ _ => trivial
  obtain ⟨more, turns, idle⟩ := fresh.exists_idle (by rw [client]; exact room)
    (fun _ => trivial) reached there
  obtain ⟨more', turns', idle'⟩ := fresh'.exists_idle (by rw [client']; exact room)
    (fun _ => trivial) reached' there'
  exact ⟨more, more', turns, turns', idle, idle', agreeBut_of_quiet
    ((quiet_of_goesOn turns').trans (same.trans (quiet_of_goesOn turns).symm))⟩

open Session in
/-- The worker for Java files is missing from the second session, so that half of a batch is
not delivered. The other half, a recompile and the end of the session come all the same. -/
theorem worker_isolated_of_batch :
    ∃ s s' moves moves' t t' a b,
      start .default ⟨.mixed, .replicate (some 2)⟩ (.finishes 0 none) (.finishes 0 none) 1 = .ok s ∧
      start .default ⟨.mixed, (PerWorker.replicate (some 2)).set .java none⟩
        (.finishes 0 none) (.finishes 0 none) 1 = .ok s' ∧
      a = SourceFile.mk (Path.ofString "A.java") ∧ b = SourceFile.mk (Path.ofString "b.kt") ∧
      moves = [.send (.request ⟨"1", .handshake ⟨none, none, none⟩⟩), .step .broker,
        .readClient 1, .step .gate,
        .send (.request ⟨"2", .analyzeBatch ⟨.hover, [a, b]⟩⟩), .step .broker,
        .readWorker .java 1, .emit .java (.notification "seen" .null), .step .support,
        .send (.change (.changed (Path.ofString "A.java"))), .step .broker,
        .advance (Duration.ofMillis 500), .step .broker,
        .send (.request ⟨"3", .shutdown ⟨"done", false⟩⟩), .step .broker,
        .step .broker, .step .broker, .step .broker] ∧
      moves' = [.send (.request ⟨"1", .handshake ⟨none, none, none⟩⟩), .step .broker,
        .send (.request ⟨"2", .analyzeBatch ⟨.hover, [a, b]⟩⟩), .step .broker,
        .send (.change (.changed (Path.ofString "A.java"))), .step .broker,
        .advance (Duration.ofMillis 500), .step .broker,
        .readClient 1, .step .gate, .step .gate, .step .gate,
        .send (.request ⟨"3", .shutdown ⟨"done", false⟩⟩), .step .broker,
        .step .broker, .step .broker, .step .broker] ∧
      s.run moves = t ∧ s'.run moves' = t' ∧
      s.keepsUp .java moves = true ∧ s'.keepsUp .java moves' = true ∧
      s'.common .java moves' = s.common .java moves ∧
      t.topology.log .primary = [.request ⟨"2", .analyzeBatch ⟨.hover, [b]⟩⟩, .recompile] ∧
      t.topology.log .java = [.request ⟨"2", .analyzeBatch ⟨.hover, [a]⟩⟩, .recompile] ∧
      t'.topology.log .java = [] ∧
      t.ending? = some (.exit (.requested ⟨"done", false⟩)) ∧
      AgreeBut .java t t' ∧
      (0 < 1 → t.client.isOpen = true → t'.client.isOpen = true →
        ∃ more more', t.TakesTurns GoesOn more ∧ t'.TakesTurns GoesOn more' ∧
          (t.run more).agenda = [] ∧ (t'.run more').agenda = [] ∧
          AgreeBut .java (t.run more) (t'.run more')) := by
  have started : start .default ⟨.mixed, .replicate (some 2)⟩ (.finishes 0 none)
      (.finishes 0 none) 1 = .ok _ := start_of_isSome (by decide +kernel)
  have started' : start .default ⟨.mixed, (PerWorker.replicate (some 2)).set .java none⟩
      (.finishes 0 none) (.finishes 0 none) 1 = .ok _ := start_of_isSome (by decide +kernel)
  have others : ∀ v, v ≠ Worker.java →
      ((PerWorker.replicate (some 2)).set .java none).get v =
        (PerWorker.replicate (some 2)).get v :=
    fun v => PerWorker.get_set_of_ne _ _
  have told {s : Session} {moves : List Move} (hidden : List Bool)
      (same : s.hidden .java moves = hidden) : s.common .java moves =
        (moves.zip hidden).filterMap fun p => if p.2 then none else some p.1 := by
    rw [common, same]
  refine ⟨_, _, _, _, _, _, _, _, started, started', rfl, rfl, rfl, rfl, rfl, rfl, ?up, ?up',
    ?common, by decide +kernel, by decide +kernel, by decide +kernel, by decide +kernel,
    worker_isolated started started' rfl others ?up ?up' ?common⟩
  case up => decide +kernel
  case up' => decide +kernel
  case common =>
    rw [told (List.replicate 8 false ++ List.replicate 4 true ++ List.replicate 5 false)
      (by decide +kernel), told ([false, false, true, true, false, false, true, true, true] ++
        List.replicate 9 false) (by decide +kernel)]
    rfl

end SessionBroker
