import Mathlib.Data.List.Induction
import SessionBroker.Proofs.Handshake

/-!
What the loop of the broker does in the course of a run.

The loop goes in turns. A turn begins with a look at the clock, so that a recompile that is
due is asked for; then the loop takes what comes first, a message as a rule, and carries out
what follows from it. `Session.journal` lists what the loop does in some moves.

Main statements: `proceeds_of_stepBroker`, a move of the broker is one of six kinds, each
with what it adds to the journal, and `aside_apply`, no other move touches what the broker
has in hand. `apply_cases` puts the two together for a move, and `Fresh.run_induction` for a
run.
-/

namespace SessionBroker

/-- Something that the loop of the broker does. -/
inductive Happening where
  /-- A turn begins with a look at the clock; whether a recompile is asked for. -/
  | turn (recompiles : Bool)
  /-- A message is taken out of the mailbox and handled. -/
  | took (message : BrokerMessage)
  /-- The loop is left, as the session was cancelled. -/
  | cancelled
  /-- The loop is left, as nobody can send to the broker any more. -/
  | disconnected
  deriving DecidableEq, Repr

/-- The message that is handled by something the loop does. -/
def Happening.message? : Happening → Option BrokerMessage
  | .took m => some m
  | _ => none

/-- Something that the loop of the broker does, and when. -/
structure Entry where
  time : Duration
  what : Happening
  deriving DecidableEq, Repr

namespace Session

variable {c : Config} {s t u : Session} {hs : List Happening} {acts : List Act}

/-! ### The journal -/

/-- The broker carries out some acts. When none is left a turn begins. -/
def begins (s : Session) (acts : List Act) : List Happening :=
  if (s.outlets.perform acts).1 = [] then [.turn s.recompileIfDue.isSome] else []

/-- What the loop does in the next move of the broker. -/
def happenings (s : Session) : List Happening :=
  match s.phase with
  | .serving (a :: rest) => if s.outlets.canPerform a then s.begins (a :: rest) else []
  | .serving [] =>
    if s.cancelled then [.cancelled]
    else if s.recompileIfDue.isSome then [.turn true]
    else
      match s.inbox.next? with
      | some (m, inbox) =>
        .took m :: { s with inbox, broker := (s.broker.handle s.now m).1 }.begins
          (s.broker.handle s.now m).2
      | none => if s.hasSender then [] else [.disconnected]
  | _ => []

/-- Some doings of the loop, at the present time. -/
def dated (s : Session) (hs : List Happening) : List Entry := hs.map (⟨s.now, ·⟩)

def entries (s : Session) : Move → List Entry
  | .step .broker => s.dated s.happenings
  | _ => []

theorem happenings_of_busy {a : Act} {rest : List Act} (phase : s.phase = .serving (a :: rest)) :
    s.happenings = if s.outlets.canPerform a then s.begins (a :: rest) else [] := by
  rw [happenings, phase]

theorem happenings_of_idle (phase : s.phase = .serving []) :
    s.happenings =
      if s.cancelled then [.cancelled]
      else if s.recompileIfDue.isSome then [.turn true]
      else
        match s.inbox.next? with
        | some (m, inbox) =>
          .took m :: { s with inbox, broker := (s.broker.handle s.now m).1 }.begins
            (s.broker.handle s.now m).2
        | none => if s.hasSender then [] else [.disconnected] := by
  rw [happenings, phase]

def journal (s : Session) : List Move → List Entry
  | [] => []
  | m :: moves => s.entries m ++ (s.apply m).journal moves

theorem journal_append (s : Session) (moves more : List Move) :
    s.journal (moves ++ more) = s.journal moves ++ (s.run moves).journal more := by
  induction moves generalizing s with
  | nil => rfl
  | cons m moves ih =>
      simp only [List.cons_append, journal, ih, List.append_assoc]
      rfl

theorem journal_concat (s : Session) (moves : List Move) (m : Move) :
    s.journal (moves ++ [m]) = s.journal moves ++ (s.run moves).entries m := by
  rw [journal_append]
  exact congrArg (s.journal moves ++ ·) (List.append_nil _)

/-! ### Moves of the broker -/

/-- A recompile is due exactly when the debouncer says so. -/
theorem recompileIfDue_isSome (s : Session) :
    s.recompileIfDue.isSome = (s.broker.debouncer.poll s.now).1 := by
  unfold recompileIfDue
  split <;> simp [*]

/-- What asking for a recompile does. -/
theorem recompileIfDue_eq (due : s.recompileIfDue = some t) :
    (s.broker.debouncer.poll s.now).1 = true ∧
      t = { s with
        broker := { s.broker with debouncer := (s.broker.debouncer.poll s.now).2 }
        topology := s.topology.recompileAll } := by
  have some_ := s.recompileIfDue_isSome
  rw [due] at some_
  refine ⟨some_.symm, ?_⟩
  unfold recompileIfDue at due
  split at due
  · rename_i polled
    cases due
    rw [polled]
  · cases due

/-- How the broker gets on with some acts, and what that is to its loop. -/
inductive GetsOn (s : Session) (acts : List Act) : List Happening → Session → Prop
  /-- It is done for good. -/
  | leaves {ending : Ending} {rest : List Act} {p : Outlets} :
      s.outlets.perform acts = (.finish ending :: rest, p) →
      GetsOn s acts [] ((s.withOutlets p).beginTeardown ending)
  /-- It has to wait for room. -/
  | waits {a : Act} {rest : List Act} {p : Outlets} :
      s.outlets.perform acts = (a :: rest, p) → (∀ ending, a ≠ .finish ending) →
      GetsOn s acts [] ((s.withOutlets p).withAgenda (a :: rest))
  /-- It begins a turn in which no recompile is due. -/
  | rests {p : Outlets} :
      s.outlets.perform acts = ([], p) → s.recompileIfDue = none →
      GetsOn s acts [.turn false] ((s.withOutlets p).withAgenda [])
  /-- It begins a turn with a recompile. -/
  | recompiles {p : Outlets} {t : Session} :
      s.outlets.perform acts = ([], p) →
      ((s.withOutlets p).withAgenda []).recompileIfDue = some t →
      GetsOn s acts [.turn true] t

/-- Carrying out acts is getting on with them, as the journal says. -/
theorem getsOn_act (s : Session) (acts : List Act) : GetsOn s acts (s.begins acts) (s.act acts) := by
  unfold begins act
  rcases result : s.outlets.perform acts with ⟨_ | ⟨a, rest⟩, p⟩
  · have same : ((s.withOutlets p).withAgenda []).recompileIfDue.isSome =
        s.recompileIfDue.isSome := by
      rw [recompileIfDue_isSome, recompileIfDue_isSome]
      rfl
    change GetsOn s acts [.turn s.recompileIfDue.isSome]
      (((s.withOutlets p).withAgenda []).recompileIfDue.getD ((s.withOutlets p).withAgenda []))
    cases due : ((s.withOutlets p).withAgenda []).recompileIfDue with
    | none =>
        rw [due, Option.isSome_none, eq_comm] at same
        rw [same]
        exact .rests result (Option.isSome_eq_false_iff.mp same |> Option.isNone_iff_eq_none.mp)
    | some t =>
        rw [due, Option.isSome_some] at same
        rw [← same]
        exact .recompiles result due
  · cases a with
    | finish ending => exact .leaves result
    | _ => exact .waits result (by simp)

/-- Getting on with acts the broker takes no message. -/
theorem GetsOn.inbox (h : GetsOn s acts hs t) : t.inbox = s.inbox := by
  cases h with
  | leaves | waits | rests => rfl
  | recompiles _ due =>
      obtain ⟨-, rfl⟩ := recompileIfDue_eq due
      rfl

/-- By carrying out acts the loop takes nothing, it begins a turn at most. -/
theorem GetsOn.turns (h : GetsOn s acts hs t) : ∀ h ∈ hs, ∃ recompiles, h = .turn recompiles := by
  cases h <;> simp

/-- A move of the broker, and what it is to its loop. -/
inductive Proceeds (s : Session) : List Happening → Session → Prop
  | cancelled :
      s.phase = .serving [] → s.cancelled = true →
      Proceeds s [.cancelled] (s.beginTeardown (.exit .cancelled))
  | recompile {t : Session} :
      s.phase = .serving [] → s.cancelled = false → s.recompileIfDue = some t →
      Proceeds s [.turn true] t
  | took {m : BrokerMessage} {inbox : Mailbox BrokerMessage} {hs : List Happening} {t : Session} :
      s.phase = .serving [] → s.cancelled = false → s.recompileIfDue = none →
      s.inbox.next? = some (m, inbox) →
      GetsOn { s with inbox, broker := (s.broker.handle s.now m).1 } (s.broker.handle s.now m).2
        hs t →
      Proceeds s (.took m :: hs) t
  | disconnected :
      s.phase = .serving [] → s.cancelled = false → s.recompileIfDue = none →
      s.inbox.next? = none → s.hasSender = false →
      Proceeds s [.disconnected] (s.beginTeardown (.exit .disconnected))
  | acts {a : Act} {rest : List Act} {hs : List Happening} {t : Session} :
      s.phase = .serving (a :: rest) → GetsOn s (a :: rest) hs t → Proceeds s hs t
  | teardown {ending : Ending} {t : Session} :
      s.phase = .closing ending → s.stepTeardown ending = some t → Proceeds s [] t

/-- A step of the broker proceeds as the journal says. -/
theorem proceeds_of_stepBroker (stepped : s.stepBroker = some t) : Proceeds s s.happenings t := by
  unfold stepBroker at stepped
  split at stepped
  · rename_i a rest phase
    split at stepped
    · rename_i ready
      cases stepped
      rw [happenings_of_busy phase, if_pos ready]
      exact .acts phase (s.getsOn_act _)
    · cases stepped
  · rename_i phase
    rw [happenings_of_idle phase]
    split at stepped
    · rename_i cancelled
      cases stepped
      rw [if_pos cancelled]
      exact .cancelled phase cancelled
    · rename_i cancelled
      have calm : s.cancelled = false := by simpa using cancelled
      rw [if_neg cancelled]
      cases due : s.recompileIfDue with
      | some u =>
          simp only [due, Option.some_or, Option.some.injEq] at stepped
          subst stepped
          exact .recompile phase calm due
      | none =>
          simp only [due, Option.none_or, receive] at stepped
          simp only [Option.isSome_none, Bool.false_eq_true, if_false]
          cases next : s.inbox.next? with
          | some taken =>
              rw [next] at stepped
              cases stepped
              exact .took phase calm due next (getsOn_act _ _)
          | none =>
              rw [next] at stepped
              dsimp only at stepped ⊢
              split at stepped
              · cases stepped
              · rename_i alone
                cases stepped
                rw [if_neg alone]
                exact .disconnected phase calm due next (by simpa using alone)
  · rename_i ending phase
    rw [happenings, phase]
    exact .teardown phase stepped
  · cases stepped

/-- While the broker cannot move its loop does nothing. -/
theorem happenings_of_none (stuck : s.stepBroker = none) : s.happenings = [] := by
  unfold stepBroker at stuck
  split at stuck
  · rename_i phase
    split at stuck
    · cases stuck
    · rename_i waits
      rw [happenings_of_busy phase, if_neg waits]
  · rename_i phase
    split at stuck
    · cases stuck
    · rename_i calm
      obtain ⟨due, received⟩ := Option.or_eq_none_iff.mp stuck
      unfold receive at received
      split at received
      · cases received
      · rename_i empty
        split at received
        · rename_i someone
          rw [happenings_of_idle phase, if_neg calm, due, empty]
          exact if_pos someone
        · cases received
  · rename_i phase
    rw [happenings, phase]
  · rename_i phase
    rw [happenings, phase]

/-- The broker's move in a run: it proceeds or waits. -/
theorem apply_broker (s : Session) :
    Proceeds s s.happenings (s.apply (.step .broker)) ∨
      s.happenings = [] ∧ s.apply (.step .broker) = s := by
  simp only [apply, step]
  cases stepped : s.stepBroker with
  | some t => exact .inl (proceeds_of_stepBroker stepped)
  | none => exact .inr ⟨happenings_of_none stepped, rfl⟩

/-! ### Moves of others -/

/-- What no move of another task or from outside touches: all that the broker has in hand. -/
structure Aside (s t : Session) : Prop where
  broker : t.broker = s.broker
  phase : t.phase = s.phase
  teardown : t.teardown = s.teardown
  released : t.released = s.released
  collaborators : t.collaborators = s.collaborators
  isOpen : t.inbox.isOpen = s.inbox.isOpen
  handled : t.handled = s.handled
  log : ∀ w, t.topology.log w = s.topology.log w
  time : s.now ≤ t.now

theorem Aside.refl (s : Session) : Aside s s :=
  ⟨rfl, rfl, rfl, rfl, rfl, rfl, rfl, fun _ => rfl, Nat.le_refl _⟩

/-- Someone sends to the broker. -/
theorem aside_offer (sound : s.inbox.Sound) {m : BrokerMessage} {inbox : Mailbox BrokerMessage}
    (offered : s.inbox.offer m = .ok inbox) : Aside s { s with inbox } := by
  obtain ⟨-, -, rfl⟩ := Mailbox.offer_eq_ok.mp offered
  exact { Aside.refl s with handled := sound.read_put }

/-- A step of another task touches nothing that the broker has in hand. -/
theorem aside_step (sound : s.inbox.Sound) {task : Task} (other : task ≠ .broker)
    (stepped : s.step task = some t) : Aside s t := by
  cases task with
  | broker => exact absurd rfl other
  | gate =>
      obtain ⟨_, -, rfl⟩ := Option.map_eq_some_iff.mp stepped
      exact { Aside.refl s with }
  | support =>
      obtain ⟨_, -, rfl⟩ := Option.map_eq_some_iff.mp stepped
      exact { Aside.refl s with }
  | analysis =>
      obtain ⟨relay, -, stepped⟩ := Option.bind_eq_some_iff.mp stepped
      obtain ⟨_, -, rfl⟩ := Option.map_eq_some_iff.mp stepped
      exact { Aside.refl s with }
  | index =>
      rcases stepIndex_eq_some stepped with ⟨index, rfl⟩ | ⟨outcome, inbox, index, offered, rfl⟩
      · exact { Aside.refl s with }
      · exact { aside_offer sound offered with }
  | watch number =>
      rcases stepWatch_eq_some stepped with ⟨watches, rfl⟩ | ⟨change, inbox, watches, offered, rfl⟩
      · exact { Aside.refl s with }
      · exact { aside_offer sound offered with }

theorem aside_apply (sound : s.inbox.Sound) {m : Move} (other : m ≠ .step .broker) :
    Aside s (s.apply m) := by
  cases m with
  | step task =>
      simp only [apply]
      cases stepped : s.step task with
      | none => exact Aside.refl s
      | some t => exact aside_step sound (fun same => other (by rw [same])) stepped
  | send m =>
      simp only [apply]
      cases sent : s.send m with
      | error refusal => exact Aside.refl s
      | ok t =>
          obtain ⟨inbox, offered, rfl⟩ := send_eq_ok sent
          exact aside_offer sound offered
  | emit w e =>
      simp only [apply]
      cases emitted : s.emit w e with
      | error refusal => exact Aside.refl s
      | ok t =>
          rcases emit_eq_ok emitted with ⟨relay, inbox, -, -, rfl⟩ | ⟨inbox, -, rfl⟩ <;>
            exact { Aside.refl s with }
  | stopWorker w => exact { Aside.refl s with log := Topology.log_close _ _ }
  | readWorker w count =>
      exact { Aside.refl s with log := fun v => Topology.log_take _ _ v _ }
  | finishIndex outcome =>
      simp only [apply, finishIndex]
      split <;> exact { Aside.refl s with }
  | advance by_ => exact { Aside.refl s with time := Nat.le_add_right _ _ }
  | _ => exact { Aside.refl s with }

/-- Only the broker writes into the journal. -/
theorem entries_of_ne {m : Move} (other : m ≠ .step .broker) : s.entries m = [] := by
  unfold entries
  split
  · exact absurd rfl other
  · rfl

/-- A move of any kind: the broker proceeds, or all that it has in hand stays as it is. -/
theorem apply_cases (sound : s.inbox.Sound) (m : Move) :
    (m = .step .broker ∧ Proceeds s s.happenings (s.apply m)) ∨
      (s.entries m = [] ∧ Aside s (s.apply m)) := by
  by_cases own : m = .step .broker
  · subst own
    rcases s.apply_broker with proceeds | ⟨nothing, same⟩
    · left
      exact ⟨rfl, proceeds⟩
    · right
      rw [entries, nothing, same]
      exact ⟨rfl, .refl s⟩
  · right
    exact ⟨entries_of_ne own, aside_apply sound own⟩

/-! ### Runs -/

theorem Fresh.orderly_of_run (fresh : s.Fresh c) (moves : List Move) : (s.run moves).Orderly :=
  let ⟨_, reached⟩ := reaches_run (fun _ => True) s moves fun _ _ _ => trivial
  fresh.orderly_of_reaches reached

/-- What holds of a journal and a session at the start, and is kept by each move of the broker
and by all that is aside of it, holds of every run. -/
theorem Fresh.run_induction (fresh : s.Fresh c) {P : List Entry → Session → Prop}
    (initial : P [] s)
    (own : ∀ {j : List Entry} {t u : Session} {hs : List Happening}, t.Orderly → P j t →
      Proceeds t hs u → P (j ++ t.dated hs) u)
    (others : ∀ {j : List Entry} {t u : Session}, P j t → Aside t u → P j u)
    (moves : List Move) : P (s.journal moves) (s.run moves) := by
  induction moves using List.reverseRecOn with
  | nil => exact initial
  | append_singleton moves m ih =>
      have orderly := fresh.orderly_of_run moves
      rw [journal_concat, run_concat]
      rcases apply_cases orderly.sound m with ⟨rfl, proceeds⟩ | ⟨nothing, aside⟩
      · exact own orderly ih proceeds
      · rw [nothing, List.append_nil]
        exact others ih aside

/-- The journal tells of every message that was handled, in order. -/
theorem Fresh.handled_eq (fresh : s.Fresh c) (moves : List Move) :
    (s.run moves).handled = (s.journal moves).filterMap (·.what.message?) := by
  have none_ {t : Session} {hs : List Happening} (nothing : ∀ h ∈ hs, h.message? = none) :
      (t.dated hs).filterMap (·.what.message?) = [] := by
    rw [List.filterMap_eq_nil_iff]
    intro e mem
    obtain ⟨h, happened, rfl⟩ := List.mem_map.mp mem
    exact nothing h happened
  refine fresh.run_induction (P := fun j t => t.handled = j.filterMap (·.what.message?))
    fresh.handled ?_ ?_ moves
  · intro j t u hs _ same proceeds
    rw [List.filterMap_append, ← same]
    have turns {hs : List Happening} (turns : ∀ h ∈ hs, ∃ b, h = Happening.turn b) :
        ∀ h ∈ hs, h.message? = none := by
      intro h mem
      obtain ⟨b, rfl⟩ := turns h mem
      rfl
    cases proceeds with
    | cancelled | disconnected => exact (List.append_nil _).symm
    | recompile _ _ due =>
        obtain ⟨-, rfl⟩ := recompileIfDue_eq due
        exact (List.append_nil _).symm
    | @took m inbox hs _ _ _ _ taken gets =>
        change u.inbox.read = t.inbox.read ++ m :: (t.dated hs).filterMap (·.what.message?)
        rw [gets.inbox, none_ (turns gets.turns)]
        exact Mailbox.read_next taken
    | acts _ gets =>
        rw [none_ (turns gets.turns), List.append_nil]
        exact congrArg Mailbox.read gets.inbox
    | teardown _ stepped =>
        obtain ⟨teardown, rfl | rfl⟩ := stepTeardown_eq_some stepped <;>
          exact (List.append_nil _).symm
  · intro j t u same aside
    exact aside.handled.trans same

end Session

end SessionBroker
