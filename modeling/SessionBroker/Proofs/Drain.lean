import SessionBroker.Proofs.History

/-!
A session comes to rest.

While the client reads, whatever the broker and the gate are busy with gets done: each of
their moves makes the burden smaller. `exists_turns` is the argument for any tasks and any
measure. Main statement: `Fresh.drain`, from everything that can be reached some moves of
broker, gate and client lead to a session at rest.
-/

namespace SessionBroker

/-- How much an act can bring about: routing makes up to two others. -/
def Act.weight : Act → Nat
  | .route _ => 3
  | _ => 1

/-- How much some acts can bring about together. -/
def weights (acts : List Act) : Nat := acts.foldr (·.weight + ·) 0

@[simp] theorem weights_nil : weights [] = 0 := rfl

@[simp] theorem weights_cons (a : Act) (acts : List Act) :
    weights (a :: acts) = a.weight + weights acts := rfl

theorem weights_append (acts more : List Act) :
    weights (acts ++ more) = weights acts + weights more := by
  induction acts with
  | nil => exact (Nat.zero_add _).symm
  | cons a acts ih => rw [List.cons_append, weights_cons, weights_cons, ih, Nat.add_assoc]

/-- Whether a move is one by which broker, gate and client go on by themselves. -/
def Move.isWork : Move → Bool
  | .step .broker | .step .gate | .readClient _ => true
  | _ => false

namespace Outlets

/-- What is left to do for acts, counting the messages that they leave to the gate. -/
def burden (acts : List Act) (p : Outlets) : Nat :=
  3 * weights acts + 2 * p.gate.waiting.length

theorem length_waiting_tell {α : Type} (m : Mailbox α) (a : α) :
    (tell m a).waiting.length ≤ m.waiting.length + 1 := by
  unfold tell
  split
  · rename_i n offered
    obtain ⟨-, -, rfl⟩ := Mailbox.offer_eq_ok.mp offered
    exact Mailbox.length_waiting_put
  · exact Nat.le_succ _

/-- What takes the place of a request is two acts at most. -/
theorem weight_followUp (id : String) (fate : Except DispatchError Routed) :
    weights (followUp id fate) ≤ 2 := by
  rcases fate with e | (_ | params | parts)
  case ok.partly =>
    rw [followUp]
    cases partialBatchNotification id parts <;> simp [Except.toOption, Act.weight]
  all_goals simp [followUp, Act.weight]

/-- Carrying out an act makes the burden smaller. -/
theorem burden_performOne (p : Outlets) (a : Act) (rest : List Act)
    (unfinished : ∀ ending, a ≠ .finish ending) :
    burden ((p.performOne a).1 ++ rest) (p.performOne a).2 < burden (a :: rest) p := by
  cases a with
  | reply e =>
      simp only [burden, performOne, Act.weight, List.nil_append, weights_cons]
      omega
  | emit e =>
      have one := length_waiting_tell p.gate (.event (.ofBroker e))
      simp only [burden, performOne, Act.weight, List.nil_append, weights_cons]
      omega
  | route r =>
      have two := weight_followUp r.id (p.topology.dispatch r).2
      simp only [burden, performOne, Act.weight, weights_append, weights_cons]
      omega
  | activate =>
      have one := length_waiting_tell p.gate .activate
      simp only [burden, performOne, Act.weight, List.nil_append, weights_cons]
      omega
  | finish ending => exact absurd rfl (unfinished ending)

/-- The more is carried out the less is left. -/
theorem Performs.burden_le {acts left : List Act} {p q : Outlets}
    (h : Performs acts p left q) : burden left q ≤ burden acts p := by
  induction h with
  | refl => exact Nat.le_refl _
  | step _ unfinished _ ih => exact Nat.le_of_lt (Nat.lt_of_le_of_lt ih
      (burden_performOne _ _ _ unfinished))

/-- Carrying out acts does not make the client go. -/
theorem Performs.client_isOpen {acts left : List Act} {p q : Outlets}
    (h : Performs acts p left q) : q.client.isOpen = p.client.isOpen := by
  induction h with
  | refl => rfl
  | @step a rest left p q _ _ _ ih =>
      rw [ih]
      cases a with
      | reply e => exact (tell_frame p.client (.ofBroker e)).2
      | _ => rfl

end Outlets

namespace Session

variable {allowed : Move → Prop} {c : Config} {s t : Session} {out : List Event}

/-- Nothing is on its way to the client. -/
structure AtRest (s : Session) : Prop where
  agenda : s.agenda = []
  leaving : s.gate.leaving = []
  gate : s.gate.inbox.waiting = []
  client : s.client.waiting = []

/-- What is left to do for broker and gate. -/
def burden (s : Session) : Nat := 3 * weights s.agenda + s.gate.burden

def readAll (s : Session) : Session := s.apply (.readClient s.client.waiting.length)

theorem waiting_readAll (s : Session) : s.readAll.client.waiting = [] :=
  s.client.waiting_take_all

/-- What is left after the broker has carried out some acts. -/
theorem burden_act (s : Session) (acts : List Act) :
    (s.act acts).burden ≤ Outlets.burden (s.outlets.perform acts).1 (s.outlets.perform acts).2 +
      s.gate.held.length + s.gate.leaving.length ∧ (s.act acts).inbox = s.inbox ∧
      (s.act acts).client.isOpen = s.client.isOpen := by
  have left (acts : List Act) (p : Outlets) : ((s.withOutlets p).withAgenda acts).burden =
      Outlets.burden acts p + s.gate.held.length + s.gate.leaving.length := by
    simp only [burden, Outlets.burden, Gate.burden, agenda_withAgenda]
    simp only [withAgenda, withOutlets]
    omega
  have client := (s.outlets.performs_perform acts).client_isOpen
  have actsTo := s.actsTo_act acts
  generalize (s.outlets.perform acts).1 = rest at client actsTo ⊢
  generalize (s.outlets.perform acts).2 = p at client actsTo ⊢
  generalize s.act acts = t at actsTo ⊢
  rw [← left rest p]
  cases actsTo with
  | finish =>
      refine ⟨?_, rfl, client⟩
      simp only [burden, Session.agenda, beginTeardown, weights_nil, withAgenda]
      omega
  | left => exact ⟨Nat.le_refl _, rfl, client⟩
  | recompile due =>
      obtain ⟨debouncer, rfl⟩ := recompileIfDue_eq_some due
      exact ⟨Nat.le_refl _, rfl, client⟩

/-- The broker carries out what need not wait. -/
theorem burden_stepBroker {a : Act} {rest : List Act} (phase : s.phase = .serving (a :: rest))
    (ready : s.outlets.canPerform a = true) :
    ∃ t, s.step .broker = some t ∧ t.burden < s.burden ∧ t.inbox = s.inbox ∧
      t.client.isOpen = s.client.isOpen := by
  refine ⟨s.act (a :: rest), by simp [step, stepBroker, phase, ready], ?_⟩
  have total : s.burden = Outlets.burden (a :: rest) s.outlets + s.gate.held.length +
      s.gate.leaving.length := by
    simp only [burden, Outlets.burden, Gate.burden, agenda_of_phase phase, outlets]
    omega
  by_cases finished : ∃ ending, a = .finish ending
  · obtain ⟨ending, rfl⟩ := finished
    refine ⟨?_, rfl, rfl⟩
    have ended : (s.act (.finish ending :: rest)).burden = s.gate.burden := by
      simp [act, Outlets.perform, burden, Session.agenda, beginTeardown, withOutlets, outlets]
    rw [ended, burden, agenda_of_phase phase]
    simp only [weights_cons, Act.weight]
    omega
  · have unfinished : ∀ ending, a ≠ .finish ending := fun e h => finished ⟨e, h⟩
    obtain ⟨after_, frame⟩ := s.burden_act (a :: rest)
    have others := (Outlets.performs_perform_cons rest ready unfinished).burden_le
    have first := s.outlets.burden_performOne a rest unfinished
    exact ⟨by omega, frame⟩

/-- Whether a task goes on with what has begun: the gate, or the broker with its acts. -/
def GoesOn (s : Session) (task : Task) : Prop := task = .gate ∨ task = .broker ∧ s.agenda ≠ []

/-- A task has something to do for the client; nothing is handled by that. -/
def CanWork (s : Session) : Prop :=
  ∃ task t, s.GoesOn task ∧ s.step task = some t ∧ t.burden < s.burden ∧
    t.inbox = s.inbox ∧ t.client.isOpen = s.client.isOpen

/-- Whoever is waited for can move, once the client has read everything. -/
theorem Fresh.work (fresh : s.Fresh c) (room : 0 < s.client.capacity)
    (h : Reaches allowed s out t) (there : t.client.isOpen = true)
    (read : t.client.waiting = []) : t.AtRest ∨ t.CanWork := by
  have told := fresh.told_of_reaches h
  have attended := (fresh.output_of_reaches h).attended
  have grown := fresh.orderly.grown h
  have empty : t.client.isFull = false :=
    Mailbox.isFull_of_waiting (by rw [grown.clientSize]; exact room) read
  -- The gate can move if anything is left for it.
  have gate (work : t.gate.leaving ≠ [] ∨ t.gate.inbox.waiting ≠ [])
      (isOpen : t.gate.inbox.isOpen = true) : t.CanWork := by
    obtain ⟨g, client, stepped, less⟩ := Gate.step_of_work (!t.gateInUse)
      (told.flow.running.trans isOpen) there empty work
    refine ⟨.gate, { t with gate := g, client }, .inl rfl, ?_, ?_, rfl,
      (Gate.step_frame stepped).2.2⟩
    · simp [step, stepGate, stepped]
    · simpa only [burden, Session.agenda] using Nat.add_lt_add_left less _
  have gateWork (isOpen : t.gate.inbox.isOpen = true) (idle : t.agenda = []) :
      t.AtRest ∨ t.CanWork := by
    by_cases leaving : t.gate.leaving = []
    · by_cases waiting : t.gate.inbox.waiting = []
      · exact .inl ⟨idle, leaving, waiting, read⟩
      · exact .inr (gate (.inr waiting) isOpen)
    · exact .inr (gate (.inl leaving) isOpen)
  cases agenda : t.agenda with
  | nil =>
      rcases attended there with isOpen | ⟨-, idle, drained⟩
      · exact gateWork isOpen agenda
      · refine .inl ⟨agenda, idle, ?_, read⟩
        rw [Mailbox.waiting, drained, List.drop_length, ite_self]
  | cons a rest =>
      have phase := phase_of_agenda agenda
      have isOpen := attended.isOpen phase there
      right
      cases ready : t.outlets.canPerform a with
      | true =>
          obtain ⟨u, stepped, less, frame⟩ := burden_stepBroker phase ready
          exact ⟨.broker, u, .inr ⟨rfl, by simp [agenda]⟩, stepped, less, frame⟩
      | false =>
          -- The broker waits for the gate, so the gate has a message to read.
          refine gate (.inr ?_) isOpen
          intro waiting
          have size : 0 < t.gate.inbox.capacity := by
            rw [grown.gateSize, fresh.gate]
            exact (by decide : 0 < Gate.mailboxSize)
          have gateRoom : t.gate.inbox.isReady = true := by
            simp [Mailbox.isReady, Mailbox.isFull_of_waiting size waiting]
          have clientRoom : t.client.isReady = true := by simp [Mailbox.isReady, empty]
          cases a <;> simp [Outlets.canPerform, outlets, gateRoom, clientRoom] at ready

/-- In some moves the client reads and tasks take their turns, each of them one that may. -/
def TakesTurns (may : Session → Task → Prop) (s : Session) : List Move → Prop
  | [] => True
  | m :: moves =>
    ((∃ count, m = .readClient count) ∨ ∃ task, m = .step task ∧ may s task) ∧
      (s.apply m).TakesTurns may moves

/-- Whatever holds of reading and of the steps of those who may move holds of all moves of a
schedule. -/
theorem TakesTurns.forall_mem {may : Session → Task → Prop} {moves : List Move} {P : Move → Prop}
    (turns : s.TakesTurns may moves) (reads : ∀ count, P (.readClient count))
    (steps : ∀ {t : Session} {task : Task}, may t task → P (.step task)) : ∀ m ∈ moves, P m := by
  induction moves generalizing s with
  | nil => exact fun m mem => (List.not_mem_nil mem).elim
  | cons m moves ih =>
      obtain ⟨first, later⟩ := turns
      intro m' mem
      rcases List.mem_cons.mp mem with rfl | mem
      · rcases first with ⟨count, rfl⟩ | ⟨task, rfl, allowed⟩
        · exact reads count
        · exact steps allowed
      · exact ih later m' mem

/-- If a task can bring a measure down as long as there is something to do and the client has
read everything, then all gets done. -/
theorem exists_turns (may : Session → Task → Prop) {P done : Session → Prop}
    (measure : Session → Nat)
    (progress : ∀ {t : Session} {out : List Event}, Reaches allowed s out t → P t →
      t.client.waiting = [] →
      done t ∨ ∃ task u, may t task ∧ t.step task = some u ∧ measure u < measure t ∧ P u)
    (reads : ∀ count, allowed (.readClient count)) (read : ∀ {t : Session}, P t → P t.readAll)
    (lasting : ∀ t : Session, measure t.readAll = measure t)
    (h : Reaches allowed s out t) (holds : P t) :
    ∃ moves, t.TakesTurns may moves ∧ done (t.run moves) ∧ P (t.run moves) := by
  generalize size : measure t = n
  induction n using Nat.strongRecOn generalizing t out with
  | ind n ih =>
      obtain ⟨more, reading⟩ := reaches_run allowed t [.readClient t.client.waiting.length]
        fun m mem _ => by
          rw [List.mem_singleton.mp mem]
          exact reads _
      have h : Reaches allowed s _ t.readAll := h.trans reading
      rcases progress h (read holds) t.waiting_readAll with
        finished | ⟨task, u, allowed, stepped, less, holds⟩
      · exact ⟨[.readClient t.client.waiting.length], ⟨.inl ⟨_, rfl⟩, trivial⟩, finished,
          read holds⟩
      · obtain ⟨more, next⟩ := reaches_step stepped
        obtain ⟨moves, turns, finished, holds⟩ :=
          ih (measure u) (size ▸ lasting t ▸ less) (h.trans next) holds rfl
        have after_ : t.readAll.apply (.step task) = u := by
          change (t.readAll.step task).getD t.readAll = u
          rw [stepped]
          rfl
        have run : t.run (.readClient t.client.waiting.length :: .step task :: moves) =
            u.run moves := by
          change (t.readAll.apply (.step task)).run moves = _
          rw [after_]
        refine ⟨.readClient t.client.waiting.length :: .step task :: moves, ?_, ?_⟩
        · refine ⟨.inl ⟨_, rfl⟩, .inr ⟨task, rfl, allowed⟩, ?_⟩
          change (t.readAll.apply (.step task)).TakesTurns may moves
          rw [after_]
          exact turns
        · rw [run]
          exact ⟨finished, holds⟩

/-- Whatever the broker and the gate have begun gets done. -/
theorem Fresh.goesOn (fresh : s.Fresh c) (room : 0 < s.client.capacity)
    (reads : ∀ count, allowed (.readClient count)) (h : Reaches allowed s out t)
    (there : t.client.isOpen = true) :
    ∃ moves, t.TakesTurns GoesOn moves ∧ (t.run moves).AtRest ∧
      (t.run moves).client.isOpen = true ∧ (t.run moves).inbox = t.inbox := by
  refine exists_turns GoesOn (P := fun u => u.client.isOpen = true ∧ u.inbox = t.inbox) burden ?_
    reads id (fun _ => rfl) h ⟨there, rfl⟩
  rintro u out h ⟨there, same⟩ read
  refine (fresh.work room h there read).imp id ?_
  rintro ⟨task, v, goesOn, stepped, less, inbox, client⟩
  exact ⟨task, v, goesOn, stepped, less, client.trans there, inbox.trans same⟩

/-- Everything that is on its way gets to the client. -/
theorem Fresh.drain (fresh : s.Fresh c) (room : 0 < s.client.capacity)
    (reads : ∀ count, allowed (.readClient count)) (h : Reaches allowed s out t)
    (there : t.client.isOpen = true) :
    ∃ moves, (∀ m ∈ moves, m.isWork = true) ∧ (t.run moves).AtRest ∧
      (t.run moves).inbox = t.inbox ∧ (t.run moves).client.isOpen = true := by
  obtain ⟨moves, turns, rest, client, inbox⟩ := fresh.goesOn room reads h there
  refine ⟨moves, turns.forall_mem (fun _ => rfl) ?_, rest, inbox, client⟩
  rintro u task (rfl | ⟨rfl, -⟩) <;> rfl

end Session

end SessionBroker
