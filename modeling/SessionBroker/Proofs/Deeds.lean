import SessionBroker.Proofs.Transition

/-!
What the broker does, act by act.

`Transition` tells which events an act writes. `Does` tells which acts a broker has carried
out, each with the workers as they were at that time, so that the order of acts can be spoken
about. Main statement: `reaches_iff_does`, the two describe the same sequences of transitions.
-/

namespace SessionBroker

/-- An act that was carried out, and the workers as they were then. -/
structure Deed where
  act : Act
  workers : Topology

namespace Session

variable {allowed : Move → Prop} {s t u : Session} {deeds : List Deed}

/-- The broker carries out the first act of its agenda. -/
inductive Carries (s : Session) : Act → Session → Prop
  | finish {ending : Ending} {rest : List Act} :
      s.phase = .serving (.finish ending :: rest) →
      Carries s (.finish ending) (s.beginTeardown ending)
  | act {a : Act} {rest : List Act} :
      s.phase = .serving (a :: rest) → (∀ ending, a ≠ .finish ending) →
      s.outlets.canPerform a = true →
      Carries s a ((s.withOutlets (s.outlets.performOne a).2).withAgenda
        ((s.outlets.performOne a).1 ++ rest))

/-- Some transitions, with all that the broker does in them. -/
inductive Does (allowed : Move → Prop) (s : Session) : List Deed → Session → Prop
  | refl : Does allowed s [] s
  | carry {t u : Session} {a : Act} {deeds : List Deed} :
      Does allowed s deeds t → Carries t a u → Does allowed s (deeds ++ [⟨a, t.topology⟩]) u
  | receive {t : Session} {m : BrokerMessage} {inbox : Mailbox BrokerMessage}
      {deeds : List Deed} :
      Does allowed s deeds t → t.phase = .serving [] → t.cancelled = false →
      t.recompileIfDue = none → t.inbox.next? = some (m, inbox) →
      Does allowed s deeds ({ t with inbox, broker := (t.broker.handle t.now m).1 }.withAgenda
        (t.broker.handle t.now m).2)
  | background {t u : Session} {deeds : List Deed} :
      Does allowed s deeds t → Background allowed t u → Does allowed s deeds u

/-- An act that is carried out is a transition. -/
theorem Carries.transition {a : Act} (h : Carries s a t) : ∃ out, Transition allowed s out t := by
  cases h with
  | finish phase => exact ⟨_, .finish phase⟩
  | @act a rest phase unfinished ready =>
      cases a with
      | reply e => exact ⟨_, .reply phase ready⟩
      | emit e => exact ⟨_, .emit phase ready⟩
      | route r => exact ⟨_, .route phase⟩
      | activate => exact ⟨_, .activate phase ready⟩
      | finish ending => exact absurd rfl (unfinished ending)

/-- A transition is an act that is carried out, the handling of a message, or background. -/
theorem Does.tail {out : List Event} (first : Does allowed s deeds t)
    (last : Transition allowed t out u) : ∃ more, Does allowed s (deeds ++ more) u := by
  have act {a : Act} (carries : Carries t a u) : ∃ more, Does allowed s (deeds ++ more) u :=
    ⟨_, first.carry carries⟩
  have still (h : Does allowed s deeds u) : ∃ more, Does allowed s (deeds ++ more) u :=
    ⟨[], by rwa [List.append_nil]⟩
  cases last with
  | reply phase ready => exact act (.act phase (by simp) ready)
  | emit phase ready => exact act (.act phase (by simp) ready)
  | activate phase ready => exact act (.act phase (by simp) ready)
  | route phase => exact act (.act phase (by simp) rfl)
  | finish phase => exact act (.finish phase)
  | receive phase cancelled due taken => exact still (first.receive phase cancelled due taken)
  | background background => exact still (first.background background)

theorem Does.reaches (h : Does allowed s deeds t) : ∃ out, Reaches allowed s out t := by
  induction h with
  | refl => exact ⟨[], .refl⟩
  | carry _ carries ih =>
      obtain ⟨out, reached⟩ := ih
      obtain ⟨more, last⟩ := carries.transition
      exact ⟨_, reached.tail last⟩
  | receive _ phase cancelled due taken ih =>
      obtain ⟨out, reached⟩ := ih
      exact ⟨_, reached.tail (.receive phase cancelled due taken)⟩
  | background _ background ih =>
      obtain ⟨out, reached⟩ := ih
      exact ⟨_, reached.tail (.background background)⟩

/-- Every sequence of transitions tells what the broker does in it. -/
theorem reaches_iff_does :
    (∃ out, Reaches allowed s out t) ↔ ∃ deeds, Does allowed s deeds t := by
  constructor
  · rintro ⟨out, reached⟩
    induction reached with
    | refl => exact ⟨[], .refl⟩
    | tail _ last ih =>
        obtain ⟨deeds, first⟩ := ih
        obtain ⟨more, both⟩ := first.tail last
        exact ⟨_, both⟩
  · rintro ⟨deeds, done⟩
    exact done.reaches

end Session

end SessionBroker
