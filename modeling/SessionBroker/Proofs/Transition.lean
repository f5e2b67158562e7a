import SessionBroker.Proofs.Mailbox
import SessionBroker.Session.Move

/-!
The smallest steps of a session.

A move of the broker carries out as many acts as it can without waiting. `Transition` cuts
it into single acts, and labels each with the events that the broker writes by it; every
other move is one transition. Main statement: `reaches_run`, every run is a sequence of
transitions. So a property that all transitions keep holds after every run.
-/

namespace SessionBroker

namespace Session

/-- The acts that the broker still has to carry out. -/
def agenda (s : Session) : List Act :=
  match s.phase with
  | .serving acts => acts
  | _ => []

def withAgenda (s : Session) (acts : List Act) : Session := { s with phase := .serving acts }

@[simp] theorem agenda_withAgenda (s : Session) (acts : List Act) :
    (s.withAgenda acts).agenda = acts := rfl

/-! ### What a move of a task changes -/

section Steps

variable {s t : Session}

/-- A recompile changes the debouncer and asks the workers. -/
theorem recompileIfDue_eq_some (due : s.recompileIfDue = some t) :
    ∃ debouncer, t = { s with
      broker := { s.broker with debouncer }, topology := s.topology.recompileAll } := by
  unfold recompileIfDue at due
  split at due
  · cases due
    exact ⟨_, rfl⟩
  · cases due

/-- A step of the teardown changes the teardown, and may conclude the session. -/
theorem stepTeardown_eq_some {ending : Ending} (stepped : s.stepTeardown ending = some t) :
    ∃ teardown, t = { s with teardown } ∨ t = conclude { s with teardown } ending := by
  obtain ⟨teardown, -, rfl⟩ := Option.map_eq_some_iff.mp stepped
  dsimp only
  split
  · exact ⟨teardown, .inr rfl⟩
  · exact ⟨teardown, .inl rfl⟩

/-- A step of the index task changes the task, and may tell the broker how it went. -/
theorem stepIndex_eq_some (stepped : s.stepIndex = some t) :
    (∃ index, t = { s with index }) ∨ ∃ outcome inbox index,
      s.inbox.offer (.indexed outcome) = .ok inbox ∧ t = { s with inbox, index } := by
  unfold stepIndex at stepped
  split at stepped
  · split at stepped
    · cases stepped
      exact .inl ⟨_, rfl⟩
    · split at stepped
      · rename_i inbox offered
        cases stepped
        exact .inr ⟨_, _, _, offered, rfl⟩
      · cases stepped
        exact .inl ⟨_, rfl⟩
      · split at stepped
        · cases stepped
        · cases stepped
          exact .inl ⟨_, rfl⟩
  · cases stepped

/-- A step of a watch changes the watches, and may tell the broker of a change. -/
theorem stepWatch_eq_some {number : Nat} (stepped : s.stepWatch number = some t) :
    (∃ watches, t = { s with watches }) ∨ ∃ change inbox watches,
      s.inbox.offer (.change change) = .ok inbox ∧ t = { s with inbox, watches } := by
  obtain ⟨w, -, looked⟩ := Option.bind_eq_some_iff.mp stepped
  split at looked
  · cases looked
  · split at looked
    · split at looked
      · cases looked
        exact .inl ⟨_, rfl⟩
      · split at looked
        · rename_i inbox offered
          cases looked
          exact .inr ⟨_, _, _, offered, rfl⟩
        · cases looked
          exact .inl ⟨_, rfl⟩
        · split at looked
          · cases looked
          · cases looked
            exact .inl ⟨_, rfl⟩
    · split at looked
      · cases looked
        exact .inl ⟨_, rfl⟩
      · obtain ⟨v, -, rfl⟩ := Option.map_eq_some_iff.mp looked
        exact .inl ⟨_, rfl⟩

/-- Where acts of the broker lead that leave some acts and mailboxes: to the teardown, to the
acts that are left, or to a recompile when none is left. -/
inductive ActsTo (s : Session) : List Act → Outlets → Session → Prop
  | finish {ending : Ending} {rest : List Act} {p : Outlets} :
      ActsTo s (.finish ending :: rest) p ((s.withOutlets p).beginTeardown ending)
  | left {acts : List Act} {p : Outlets} : ActsTo s acts p ((s.withOutlets p).withAgenda acts)
  | recompile {p : Outlets} {t : Session} :
      ((s.withOutlets p).withAgenda []).recompileIfDue = some t → ActsTo s [] p t

/-- Carrying out acts makes of a session what becomes of its mailboxes and the acts left. -/
theorem actsTo_act (s : Session) (acts : List Act) :
    ActsTo s (s.outlets.perform acts).1 (s.outlets.perform acts).2 (s.act acts) := by
  unfold act
  split
  · rename_i result
    rw [result]
    exact .finish
  · rename_i p result
    rw [result]
    change ActsTo s [] p (((s.withOutlets p).withAgenda []).recompileIfDue.getD
      ((s.withOutlets p).withAgenda []))
    cases due : ((s.withOutlets p).withAgenda []).recompileIfDue with
    | none => exact .left
    | some t => exact .recompile due
  · rename_i result
    rw [result]
    exact .left

end Steps

/-! ### Transitions -/

/-- A transition that is neither an act of the broker nor the handling of a message. Moves
from outside are taken from `allowed` only. -/
inductive Background (allowed : Move → Prop) : Session → Session → Prop
  | cancelled {s : Session} :
      s.phase = .serving [] → s.cancelled = true →
      Background allowed s (s.beginTeardown (.exit .cancelled))
  | recompile {s t : Session} :
      s.phase = .serving [] → s.recompileIfDue = some t → Background allowed s t
  | disconnected {s : Session} :
      s.phase = .serving [] → s.cancelled = false → s.recompileIfDue = none →
      s.inbox.next? = none → s.hasSender = false →
      Background allowed s (s.beginTeardown (.exit .disconnected))
  | teardown {s t : Session} {ending : Ending} :
      s.phase = .closing ending → s.stepTeardown ending = some t → Background allowed s t
  | gate {s t : Session} : s.stepGate = some t → Background allowed s t
  | support {s t : Session} : s.stepSupport = some t → Background allowed s t
  | analysis {s t : Session} : s.stepAnalysis = some t → Background allowed s t
  | index {s t : Session} : s.stepIndex = some t → Background allowed s t
  | watch {s t : Session} {number : Nat} : s.stepWatch number = some t → Background allowed s t
  | outside {s : Session} {m : Move} :
      allowed m → (∀ task, m ≠ .step task) → Background allowed s (s.apply m)

/-- One transition, with the events that the broker writes by it. -/
inductive Transition (allowed : Move → Prop) : Session → List Event → Session → Prop
  | reply {s : Session} {e : Event} {rest : List Act} :
      s.phase = .serving (.reply e :: rest) → s.client.isReady = true →
      Transition allowed s [e]
        ({ s with client := Outlets.tell s.client (.ofBroker e) }.withAgenda rest)
  | emit {s : Session} {e : Event} {rest : List Act} :
      s.phase = .serving (.emit e :: rest) → s.gate.inbox.isReady = true →
      Transition allowed s [e]
        ({ s with gate := { s.gate with
            inbox := Outlets.tell s.gate.inbox (.event (.ofBroker e)) } }.withAgenda rest)
  | activate {s : Session} {rest : List Act} :
      s.phase = .serving (.activate :: rest) → s.gate.inbox.isReady = true →
      Transition allowed s []
        ({ s with gate := { s.gate with
            inbox := Outlets.tell s.gate.inbox .activate } }.withAgenda rest)
  | route {s : Session} {r : Request} {rest : List Act} :
      s.phase = .serving (.route r :: rest) →
      Transition allowed s []
        ({ s with topology := (s.topology.dispatch r).1 }.withAgenda
          (Outlets.followUp r.id (s.topology.dispatch r).2 ++ rest))
  | finish {s : Session} {ending : Ending} {rest : List Act} :
      s.phase = .serving (.finish ending :: rest) →
      Transition allowed s [] (s.beginTeardown ending)
  | receive {s : Session} {m : BrokerMessage} {inbox : Mailbox BrokerMessage} :
      s.phase = .serving [] → s.cancelled = false → s.recompileIfDue = none →
      s.inbox.next? = some (m, inbox) →
      Transition allowed s []
        ({ s with inbox, broker := (s.broker.handle s.now m).1 }.withAgenda
          (s.broker.handle s.now m).2)
  | background {s t : Session} : Background allowed s t → Transition allowed s [] t

/-- Some transitions, with all that the broker writes by them. -/
inductive Reaches (allowed : Move → Prop) (s : Session) : List Event → Session → Prop
  | refl : Reaches allowed s [] s
  | tail {t u : Session} {out more : List Event} :
      Reaches allowed s out t → Transition allowed t more u → Reaches allowed s (out ++ more) u

variable {allowed : Move → Prop}

theorem Transition.reaches {s t : Session} {out : List Event} (h : Transition allowed s out t) :
    Reaches allowed s out t := by
  simpa using Reaches.refl.tail h

theorem Reaches.trans {s t u : Session} {out more : List Event}
    (first : Reaches allowed s out t) (second : Reaches allowed t more u) :
    Reaches allowed s (out ++ more) u := by
  induction second with
  | refl => simpa using first
  | tail _ last ih => simpa only [List.append_assoc] using ih.tail last

/-- What every transition keeps holds of everything that can be reached. -/
theorem Reaches.invariant {P : Session → Prop} {s t : Session} {out : List Event}
    (h : Reaches allowed s out t) (initial : P s)
    (kept : ∀ {t u : Session} {more : List Event}, P t → Transition allowed t more u → P u) :
    P t := by
  induction h with
  | refl => exact initial
  | tail _ last ih => exact kept ih last

/-- Two invariants, the second of which needs the first. -/
theorem Reaches.invariant_of {P Q : Session → Prop} {s t : Session} {out : List Event}
    (h : Reaches allowed s out t) (always : ∀ {t : Session} {out : List Event},
      Reaches allowed s out t → P t) (initial : Q s)
    (kept : ∀ {t u : Session} {more : List Event},
      P t → P u → Q t → Transition allowed t more u → Q u) : Q t := by
  induction h with
  | refl => exact initial
  | tail first last ih => exact kept (always first) (always (first.tail last)) ih last

end Session

/-! ### A move of the broker, act by act -/

namespace Outlets

/-- Acts are carried out one by one; those on the left have become those on the right. -/
inductive Performs : List Act → Outlets → List Act → Outlets → Prop
  | refl {acts : List Act} {p : Outlets} : Performs acts p acts p
  | step {a : Act} {rest left : List Act} {p q : Outlets} :
      p.canPerform a = true → (∀ ending, a ≠ .finish ending) →
      Performs ((p.performOne a).1 ++ rest) (p.performOne a).2 left q →
      Performs (a :: rest) p left q

/-- Only a routed request brings other acts with it. -/
theorem performOne_of_not_route {p : Outlets} {a : Act} (plain : ∀ r, a ≠ .route r) :
    (p.performOne a).1 = [] := by
  cases a with
  | route r => exact absurd rfl (plain r)
  | _ => rfl

/-- What takes the place of a routed request. -/
theorem followUp_cases {id : String} {fate : Except DispatchError Routed} {a : Act}
    (mem : a ∈ followUp id fate) : (∃ e, a = .emit e) ∨ ∃ ending, a = .finish ending := by
  rcases fate with e | (_ | params | parts)
  · exact .inl ⟨_, List.mem_singleton.mp mem⟩
  · cases mem
  · rcases List.mem_cons.mp mem with rfl | mem
    · exact .inl ⟨_, rfl⟩
    · exact .inr ⟨_, List.mem_singleton.mp mem⟩
  · obtain ⟨e, -, rfl⟩ := List.mem_map.mp mem
    exact .inl ⟨e, rfl⟩

/-- No act brings the routing of a request with it. -/
theorem performOne_not_route (p : Outlets) (a : Act) (r : Request) :
    Act.route r ∉ (p.performOne a).1 := by
  cases a with
  | route _ =>
      intro mem
      rcases followUp_cases mem with ⟨_, same⟩ | ⟨_, same⟩ <;> cases same
  | _ => exact List.not_mem_nil

/-! ### How many acts are carried out -/

def carriedPlain (p : Outlets) : List Act → Nat
  | [] => 0
  | .finish _ :: _ => 0
  | a :: rest => if p.canPerform a then (p.performOne a).2.carriedPlain rest + 1 else 0

def carried (p : Outlets) : List Act → Nat
  | [] => 0
  | .finish _ :: _ => 0
  | a :: rest =>
    if p.canPerform a then
      let (more, p) := p.performOne a
      match p.performPlain more with
      | ([], q) => p.carriedPlain more + q.carried rest + 1
      | _ => p.carriedPlain more + 1
    else 0

/-- Acts are carried out one by one, and so many of them. -/
inductive PerformsIn : Nat → List Act → Outlets → List Act → Outlets → Prop
  | refl {acts : List Act} {p : Outlets} : PerformsIn 0 acts p acts p
  | step {n : Nat} {a : Act} {rest left : List Act} {p q : Outlets} :
      p.canPerform a = true → (∀ ending, a ≠ .finish ending) →
      PerformsIn n ((p.performOne a).1 ++ rest) (p.performOne a).2 left q →
      PerformsIn (n + 1) (a :: rest) p left q

theorem PerformsIn.performs {n : Nat} {acts left : List Act} {p q : Outlets}
    (h : PerformsIn n acts p left q) : Performs acts p left q := by
  induction h with
  | refl => exact .refl
  | step ready unfinished _ ih => exact .step ready unfinished ih

theorem PerformsIn.trans {n k : Nat} {acts more left : List Act} {p q r : Outlets}
    (first : PerformsIn n acts p more q) (second : PerformsIn k more q left r) :
    PerformsIn (n + k) acts p left r := by
  induction first with
  | refl => rwa [Nat.zero_add]
  | step ready unfinished _ ih =>
      rw [Nat.add_right_comm]
      exact .step ready unfinished (ih second)

/-- Acts without routing are carried out one by one until one has to wait. -/
theorem performsIn_performPlain (p : Outlets) (acts rest : List Act)
    (plain : ∀ r, Act.route r ∉ acts) :
    PerformsIn (p.carriedPlain acts) (acts ++ rest) p ((p.performPlain acts).1 ++ rest)
      (p.performPlain acts).2 := by
  induction acts generalizing p with
  | nil => exact .refl
  | cons a acts ih =>
      have others : ∀ r, Act.route r ∉ acts := fun r mem => plain r (.tail _ mem)
      by_cases finished : ∃ ending, a = .finish ending
      · obtain ⟨ending, rfl⟩ := finished
        exact .refl
      · have unfinished : ∀ ending, a ≠ .finish ending := fun e h => finished ⟨e, h⟩
        have unfold_ : p.performPlain (a :: acts) =
              (if p.canPerform a then (p.performOne a).2.performPlain acts else (a :: acts, p)) ∧
            p.carriedPlain (a :: acts) =
              if p.canPerform a then (p.performOne a).2.carriedPlain acts + 1 else 0 := by
          cases a with
          | finish ending => exact absurd rfl (unfinished ending)
          | _ => exact ⟨rfl, rfl⟩
        rw [unfold_.1, unfold_.2]
        split
        · rename_i ready
          refine .step ready unfinished ?_
          rw [performOne_of_not_route fun r h => plain r (h ▸ .head _)]
          exact ih _ others
        · exact .refl

/-- The first act is carried out together with those that it brings with it. -/
theorem perform_cons (p : Outlets) {a : Act} (acts : List Act)
    (unfinished : ∀ ending, a ≠ .finish ending) :
    p.perform (a :: acts) =
      if p.canPerform a then
        match (p.performOne a).2.performPlain (p.performOne a).1 with
        | ([], p) => p.perform acts
        | (left, p) => (left ++ acts, p)
      else (a :: acts, p) := by
  cases a with
  | finish ending => exact absurd rfl (unfinished ending)
  | _ => rfl

theorem carried_cons (p : Outlets) {a : Act} (acts : List Act)
    (unfinished : ∀ ending, a ≠ .finish ending) (ready : p.canPerform a = true) :
    p.carried (a :: acts) =
      match (p.performOne a).2.performPlain (p.performOne a).1 with
      | ([], q) => (p.performOne a).2.carriedPlain (p.performOne a).1 + q.carried acts + 1
      | _ => (p.performOne a).2.carriedPlain (p.performOne a).1 + 1 := by
  cases a with
  | finish ending => exact absurd rfl (unfinished ending)
  | _ => exact if_pos ready

/-- The first act is carried out if it need not wait, then as many of the others as can be. -/
theorem performsIn_perform_cons {p : Outlets} {a : Act} (acts : List Act)
    (ready : p.canPerform a = true) (unfinished : ∀ ending, a ≠ .finish ending)
    (others : ∀ q : Outlets,
      PerformsIn (q.carried acts) acts q (q.perform acts).1 (q.perform acts).2) :
    ∃ n, p.carried (a :: acts) = n + 1 ∧
      PerformsIn n ((p.performOne a).1 ++ acts) (p.performOne a).2 (p.perform (a :: acts)).1
        (p.perform (a :: acts)).2 := by
  have plain := performsIn_performPlain (p.performOne a).2 (p.performOne a).1 acts
    (performOne_not_route p a)
  rw [perform_cons p acts unfinished, if_pos ready, carried_cons p acts unfinished ready]
  rcases done : (p.performOne a).2.performPlain (p.performOne a).1 with ⟨_ | ⟨b, left⟩, q⟩ <;>
    rw [done] at plain
  · exact ⟨_, rfl, plain.trans (others q)⟩
  · exact ⟨_, rfl, plain⟩

/-- Acts are carried out one by one by `perform`. -/
theorem performsIn_perform (p : Outlets) (acts : List Act) :
    PerformsIn (p.carried acts) acts p (p.perform acts).1 (p.perform acts).2 := by
  induction acts generalizing p with
  | nil => exact .refl
  | cons a acts ih =>
      by_cases finished : ∃ ending, a = .finish ending
      · obtain ⟨ending, rfl⟩ := finished
        exact .refl
      · have unfinished : ∀ ending, a ≠ .finish ending := fun e h => finished ⟨e, h⟩
        cases ready : p.canPerform a with
        | true =>
            obtain ⟨n, count, performs⟩ := performsIn_perform_cons acts ready unfinished ih
            rw [count]
            exact .step ready unfinished performs
        | false =>
            have none_ : p.carried (a :: acts) = 0 := by
              cases a with
              | finish ending => exact absurd rfl (unfinished ending)
              | _ => simp [carried, ready]
            rw [perform_cons p acts unfinished, ready, if_neg Bool.false_ne_true, none_]
            exact .refl

/-- After the first act the others are carried out one by one. -/
theorem performs_perform_cons {p : Outlets} {a : Act} (acts : List Act)
    (ready : p.canPerform a = true) (unfinished : ∀ ending, a ≠ .finish ending) :
    Performs ((p.performOne a).1 ++ acts) (p.performOne a).2 (p.perform (a :: acts)).1
      (p.perform (a :: acts)).2 := by
  obtain ⟨n, -, performs⟩ :=
    performsIn_perform_cons acts ready unfinished fun q => q.performsIn_perform acts
  exact performs.performs

theorem performs_perform (p : Outlets) (acts : List Act) :
    Performs acts p (p.perform acts).1 (p.perform acts).2 :=
  (p.performsIn_perform acts).performs

end Outlets

namespace Session

variable {allowed : Move → Prop}

/-- Each act that is carried out is a transition. -/
theorem reaches_performs (allowed : Move → Prop) {acts left : List Act} {p q : Outlets}
    (h : Outlets.Performs acts p left q) (s : Session) (same : s.outlets = p) :
    ∃ out, Reaches allowed (s.withAgenda acts) out ((s.withOutlets q).withAgenda left) := by
  induction h generalizing s with
  | refl =>
      subst same
      exact ⟨[], .refl⟩
  | @step a rest left p q ready unfinished _ ih =>
      subst same
      obtain ⟨more, others⟩ := ih (s.withOutlets (s.outlets.performOne a).2) rfl
      have first : ∃ out, Reaches allowed (s.withAgenda (a :: rest)) out
          ((s.withOutlets (s.outlets.performOne a).2).withAgenda
            ((s.outlets.performOne a).1 ++ rest)) := by
        cases a with
        | reply e =>
            exact ⟨_, (Transition.reply (s := s.withAgenda (.reply e :: rest)) rfl ready).reaches⟩
        | emit e =>
            exact ⟨_, (Transition.emit (s := s.withAgenda (.emit e :: rest)) rfl ready).reaches⟩
        | route r =>
            exact ⟨_, (Transition.route (s := s.withAgenda (.route r :: rest)) rfl).reaches⟩
        | activate =>
            exact ⟨_, (Transition.activate (s := s.withAgenda (.activate :: rest)) rfl
              ready).reaches⟩
        | finish ending => exact absurd rfl (unfinished ending)
      obtain ⟨out, first⟩ := first
      exact ⟨_, first.trans others⟩

/-- What the broker does with some acts in one move. -/
theorem reaches_act (allowed : Move → Prop) (s : Session) (acts : List Act) :
    ∃ out, Reaches allowed (s.withAgenda acts) out (s.act acts) := by
  obtain ⟨out, performed⟩ := reaches_performs allowed (s.outlets.performs_perform acts) s rfl
  have actsTo := s.actsTo_act acts
  generalize (s.outlets.perform acts).1 = left at performed actsTo
  generalize (s.outlets.perform acts).2 = p at performed actsTo
  generalize s.act acts = t at actsTo
  cases actsTo with
  | finish => exact ⟨_, performed.tail (.finish rfl)⟩
  | left => exact ⟨_, performed⟩
  | recompile due => exact ⟨_, performed.tail (.background (.recompile rfl due))⟩

theorem reaches_stepBroker {s t : Session} (h : s.stepBroker = some t) :
    ∃ out, Reaches allowed s out t := by
  unfold stepBroker at h
  split at h
  · rename_i a rest phase
    split at h
    · cases h
      have same : s = s.withAgenda (a :: rest) := by rw [withAgenda, ← phase]
      rw [same]
      exact reaches_act allowed s (a :: rest)
    · cases h
  · rename_i phase
    split at h
    · rename_i cancelled
      cases h
      exact ⟨_, (Transition.background (.cancelled phase cancelled)).reaches⟩
    · rename_i cancelled
      have calm : s.cancelled = false := by simpa using cancelled
      cases due : s.recompileIfDue with
      | some u =>
          simp only [due, Option.some_or, Option.some.injEq] at h
          subst h
          exact ⟨_, (Transition.background (.recompile phase due)).reaches⟩
      | none =>
          simp only [due, Option.none_or, receive] at h
          split at h
          · rename_i m inbox taken
            cases h
            obtain ⟨out, acted⟩ := reaches_act allowed
              { s with inbox, broker := (s.broker.handle s.now m).1 } (s.broker.handle s.now m).2
            exact ⟨_, (Transition.receive phase calm due taken).reaches.trans acted⟩
          · rename_i empty
            split at h
            · cases h
            · rename_i alone
              cases h
              have unused : s.hasSender = false := by simpa using alone
              exact ⟨_, (Transition.background
                (.disconnected phase calm due empty unused)).reaches⟩
  · rename_i ending phase
    exact ⟨_, (Transition.background (.teardown phase h)).reaches⟩
  · cases h

theorem reaches_step {s t : Session} {task : Task} (h : s.step task = some t) :
    ∃ out, Reaches allowed s out t := by
  cases task with
  | gate => exact ⟨_, (Transition.background (.gate h)).reaches⟩
  | support => exact ⟨_, (Transition.background (.support h)).reaches⟩
  | analysis => exact ⟨_, (Transition.background (.analysis h)).reaches⟩
  | broker => exact reaches_stepBroker h
  | index => exact ⟨_, (Transition.background (.index h)).reaches⟩
  | watch number => exact ⟨_, (Transition.background (.watch h)).reaches⟩

theorem run_append (s : Session) (moves more : List Move) :
    s.run (moves ++ more) = (s.run moves).run more :=
  List.foldl_append

theorem run_concat (s : Session) (moves : List Move) (m : Move) :
    s.run (moves ++ [m]) = (s.run moves).apply m :=
  s.run_append moves [m]

/-- Every run is a sequence of transitions, whose moves from outside are those of the run. -/
theorem reaches_run (allowed : Move → Prop) (s : Session) (moves : List Move)
    (only : ∀ m ∈ moves, (∀ task, m ≠ .step task) → allowed m) :
    ∃ out, Reaches allowed s out (s.run moves) := by
  induction moves generalizing s with
  | nil => exact ⟨[], .refl⟩
  | cons m moves ih =>
      obtain ⟨more, rest⟩ := ih (s.apply m) fun n mem => only n (.tail _ mem)
      have first : ∃ out, Reaches allowed s out (s.apply m) := by
        by_cases own : ∃ task, m = .step task
        · obtain ⟨task, rfl⟩ := own
          cases stepped : s.step task with
          | none => exact ⟨[], by simpa [apply, stepped] using Reaches.refl⟩
          | some t => simpa [apply, stepped] using reaches_step stepped
        · have foreign : ∀ task, m ≠ .step task := fun task h => own ⟨task, h⟩
          exact ⟨_, (Transition.background (.outside (only m (.head _) foreign) foreign)).reaches⟩
      obtain ⟨out, reached⟩ := first
      exact ⟨_, reached.trans rest⟩

end Session

end SessionBroker
