import Mathlib.Data.List.Count
import SessionBroker.Proofs.Endings

/-!
Which of the registered watchers are stopped.

A registration that the mailbox of the broker accepts counts as done for whoever made it
(`Session.enrolled`), but only one that the broker gets to handle has an effect. What ends a
session may be ahead of it in the mailbox: then nobody stops the watcher (`Session.missed`,
`registration_missed`). Main statement: `handled_registrations_stopped`.
-/

namespace SessionBroker

namespace Session

variable {c : Config} {s t : Session} {hs : List Happening}

/-- The watchers whose registration was accepted, in order. -/
def enrolled (s : Session) : List Watcher := s.inbox.accepted.filterMap BrokerMessage.watcher?

/-- The watchers whose registration was accepted and not handled. -/
def missed (s : Session) : List Watcher :=
  (s.inbox.accepted.drop s.inbox.taken).filterMap BrokerMessage.watcher?

/-- The watchers enrolled are those whose registration was handled and those that were missed. -/
theorem enrolled_eq (s : Session) : s.enrolled = s.registered ++ s.missed := by
  rw [enrolled, registered, missed, handled, Mailbox.read, ← List.filterMap_append,
    List.take_append_drop]

theorem enrolled_congr (same : t.inbox.accepted = s.inbox.accepted) : t.enrolled = s.enrolled :=
  congrArg (List.filterMap BrokerMessage.watcher?) same

/-- Only registrations add to what is registered. -/
theorem enrolled_offer {m : BrokerMessage} {inbox : Mailbox BrokerMessage}
    (offered : s.inbox.offer m = .ok inbox) (other : m.watcher? = none) :
    enrolled { s with inbox } = s.enrolled := by
  obtain ⟨-, -, rfl⟩ := Mailbox.offer_eq_ok.mp offered
  simp [enrolled, other]

/-- A step of the broker neither gives the handle up nor adds a message. -/
theorem Proceeds.senders (h : Proceeds s hs t) :
    t.handleHeld = s.handleHeld ∧ t.inbox.accepted = s.inbox.accepted := by
  cases h with
  | cancelled | disconnected => exact ⟨rfl, rfl⟩
  | recompile _ _ due =>
      obtain ⟨-, rfl⟩ := recompileIfDue_eq due
      exact ⟨rfl, rfl⟩
  | took _ _ _ taken gets =>
      have same := gets.intake
      refine ⟨congrArg Intake.handleHeld same, ?_⟩
      exact (congrArg (·.inbox.accepted) same).trans (Mailbox.accepted_next taken)
  | acts _ gets =>
      have same := gets.intake
      exact ⟨congrArg Intake.handleHeld same, congrArg (·.inbox.accepted) same⟩
  | teardown _ stepped =>
      obtain ⟨teardown, rfl | rfl⟩ := stepTeardown_eq_some stepped <;> exact ⟨rfl, rfl⟩

/-- Once the client has given up its handle nobody can register a watcher any more. -/
theorem enrolled_apply (gone : s.handleHeld = false) (m : Move) :
    (s.apply m).handleHeld = false ∧ (s.apply m).enrolled = s.enrolled := by
  cases m with
  | step task =>
      simp only [apply]
      cases stepped : s.step task with
      | none => exact ⟨gone, rfl⟩
      | some t =>
          cases task with
          | broker =>
              obtain ⟨held, same⟩ := (proceeds_of_stepBroker stepped).senders
              exact ⟨held.trans gone, enrolled_congr same⟩
          | gate | support =>
              obtain ⟨_, -, rfl⟩ := Option.map_eq_some_iff.mp stepped
              exact ⟨gone, rfl⟩
          | analysis =>
              obtain ⟨relay, -, stepped⟩ := Option.bind_eq_some_iff.mp stepped
              obtain ⟨_, -, rfl⟩ := Option.map_eq_some_iff.mp stepped
              exact ⟨gone, rfl⟩
          | index =>
              rcases stepIndex_eq_some stepped with
                ⟨index, rfl⟩ | ⟨outcome, inbox, index, offered, rfl⟩
              · exact ⟨gone, rfl⟩
              · exact ⟨gone, enrolled_offer offered rfl⟩
          | watch number =>
              rcases stepWatch_eq_some stepped with
                ⟨watches, rfl⟩ | ⟨change, inbox, watches, offered, rfl⟩
              · exact ⟨gone, rfl⟩
              · exact ⟨gone, enrolled_offer offered rfl⟩
  | send m =>
      have refused : s.send m = .error .gone := by simp [send, gone]
      simp only [apply, refused]
      exact ⟨gone, rfl⟩
  | emit w e =>
      simp only [apply]
      cases emitted : s.emit w e with
      | error refusal => exact ⟨gone, rfl⟩
      | ok t =>
          rcases emit_eq_ok emitted with ⟨relay, inbox, -, -, rfl⟩ | ⟨inbox, -, rfl⟩ <;>
            exact ⟨gone, rfl⟩
  | dropHandle => exact ⟨rfl, rfl⟩
  | finishIndex outcome =>
      simp only [apply, finishIndex]
      split <;> exact ⟨gone, rfl⟩
  | _ => exact ⟨gone, rfl⟩

/-- Once the handle is given up no watcher is enrolled. -/
theorem enrolled_run (gone : s.handleHeld = false) (moves : List Move) :
    (s.run moves).enrolled = s.enrolled := by
  induction moves generalizing s with
  | nil => rfl
  | cons m moves ih =>
      obtain ⟨still, same⟩ := enrolled_apply gone m
      exact (ih still).trans same

/-! ### What is handled -/

/-- No registration ends a session. -/
theorem watcher?_of_ending {exits : Bool} {what : Happening} {ending : Ending}
    (ends : what.ending? exits = some ending) :
    what.message?.toList.filterMap BrokerMessage.watcher? = [] := by
  cases what with
  | took m =>
      cases m with
      | watcher w => cases ends
      | _ => rfl
  | _ => rfl

/-- What ends a session also ends the handling of registrations. -/
theorem StopsAfter.registered_eq {exits : Bool} {moves earlier later : List Move}
    {what : Happening} {ending : Ending} (fresh : s.Fresh c)
    (stopped : StopsAfter exits s moves earlier later what ending) :
    (s.run moves).registered = (s.run earlier).registered := by
  have nothing := watcher?_of_ending stopped.stops.ending
  rw [registered, registered, fresh.handled_eq, fresh.handled_eq, stopped.last,
    List.filterMap_append, List.filterMap_append]
  have last : [(⟨(s.run earlier).now, what⟩ : Entry)].filterMap (·.what.message?) =
      what.message?.toList := by
    cases message : what.message? <;> simp [message]
  rw [last, nothing, List.append_nil]

end Session

/-! ### Main statement -/

open Session in
/-- **Exactly the registrations that were handled lead to a stop.** When a session is over, the
watchers whose registration was accepted are those that were registered, and those that were
missed as they came behind what ended the session. The former were each stopped once, in order
and before the search engine was shut down, and the latter never, so a watcher was stopped as
often as it was registered less the times it was missed. Nothing is missed if the session ended
because nobody could send to the broker any more. -/
theorem handled_registrations_stopped {c : Config} {f : Staffing} {search files : Behaviour}
    {size : Nat} {s : Session} (started : start c f search files size = .ok s)
    (moves : List Move) (ended : (s.run moves).isOver = true) :
    (s.run moves).enrolled = (s.run moves).registered ++ (s.run moves).missed ∧
    (s.run moves).teardown.calls =
      (s.run moves).registered.map .stopWatcher ++ [.shutdownSearch, .closeFiles] ∧
    (∀ w, (s.run moves).teardown.calls.count (.stopWatcher w) + (s.run moves).missed.count w =
      (s.run moves).enrolled.count w) ∧
    ∃ earlier later what ending,
      StopsAfter c.index.exitAfterIndex s moves earlier later what ending ∧
      (s.run moves).registered = (s.run earlier).registered ∧
      (ending = .exit .disconnected → (s.run moves).missed = []) := by
  have fresh := fresh_start started
  obtain ⟨initial, exits⟩ := cleansUp_start started
  have split := (s.run moves).enrolled_eq
  have calls : (s.run moves).teardown.calls =
      (s.run moves).registered.map .stopWatcher ++ [.shutdownSearch, .closeFiles] :=
    ((fresh.cleansUp initial moves).all_of_over ended).1
  refine ⟨split, calls, ?_, ?_⟩
  · intro w
    have injective : Function.Injective TeardownCall.stopWatcher := by
      rintro v w ⟨⟩
      rfl
    rw [calls, split, List.count_append, List.count_append,
      List.count_map_of_injective _ _ injective]
    rfl
  · obtain ⟨ending, certain⟩ : ∃ ending, (s.run moves).decided = some ending := by
      cases phase : (s.run moves).phase with
      | ended ending => exact ⟨ending, by rw [decided, phase]⟩
      | _ => simp [isOver, ending?, phase] at ended
    obtain ⟨earlier, later, what, stopped⟩ := fresh.exists_stop certain
    rw [exits] at stopped
    have registered := stopped.registered_eq fresh
    refine ⟨earlier, later, what, ending, stopped, registered, ?_⟩
    rintro rfl
    have disconnected := Happening.eq_disconnected stopped.stops.ending
    obtain ⟨all, alone⟩ := stopped.stops.disconnected disconnected
    have gone : (s.run earlier).handleHeld = false := by
      simp only [hasSender, Bool.or_eq_false_iff] at alone
      exact alone.1.1
    have nobody : (s.run moves).enrolled = (s.run earlier).registered := by
      rw [stopped.moves_eq, run_append, enrolled_run gone, enrolled, ← all]
      rfl
    rw [nobody, registered] at split
    exact List.self_eq_append_right.mp split

open Session in
/-- A watcher is registered before the client asks for the end, and another one after it. -/
theorem handled_registrations_stopped_of_shutdown :
    ∃ s moves t v w, start .default ⟨.mixed, .replicate (some 4)⟩ .hangs (.finishes 0 none) 4 =
        .ok s ∧
      v = ⟨"fs", .behaves (.finishes 5 none)⟩ ∧ w = ⟨"late", .behaves (.finishes 0 none)⟩ ∧
      moves = [.send (.watcher v), .send (.request ⟨"1", .shutdown ⟨"done", false⟩⟩),
        .send (.watcher w), .step .broker, .step .broker, .step .broker, .advance 5, .step .broker,
        .advance (Duration.ofMillis 60000), .step .broker, .step .broker] ∧
      s.run moves = t ∧ t.isOver = true ∧ t.registered = [v] ∧ t.missed = [w] ∧
      t.enrolled = [v, w] ∧ t.teardown.calls = [.stopWatcher v, .shutdownSearch, .closeFiles] ∧
      t.teardown.calls.count (.stopWatcher w) + t.missed.count w = t.enrolled.count w ∧
      ∃ earlier later what ending, StopsAfter false s moves earlier later what ending ∧
        t.registered = (s.run earlier).registered ∧
        (ending = .exit .disconnected → t.missed = []) := by
  have started : start .default ⟨.mixed, .replicate (some 4)⟩ .hangs (.finishes 0 none) 4 =
      .ok _ := start_of_isSome (by decide +kernel)
  refine ⟨_, _, _, _, _, started, rfl, rfl, rfl, rfl, by decide +kernel, by decide +kernel,
    by decide +kernel, ?_, ?_, ?_, ?_⟩
  · refine (handled_registrations_stopped started _ (by decide +kernel)).1.trans ?_
    decide +kernel
  · refine (handled_registrations_stopped started _ (by decide +kernel)).2.1.trans ?_
    decide +kernel
  · exact (handled_registrations_stopped started _ (by decide +kernel)).2.2.1 _
  · exact (handled_registrations_stopped started _ (by decide +kernel)).2.2.2

open Session in
/-- A registration is accepted right behind a request for the end of the session. Nobody ever
stops the watcher. -/
theorem registration_missed :
    ∃ s moves t w, start .default ⟨.mixed, .replicate (some 4)⟩ (.finishes 0 none)
        (.finishes 0 none) 4 = .ok s ∧
      w = ⟨"fs", .behaves (.finishes 0 none)⟩ ∧
      moves = [.send (.request ⟨"bye", .shutdown ⟨"done", false⟩⟩), .send (.watcher w),
        .step .broker, .step .broker, .step .broker, .step .broker] ∧
      s.run moves = t ∧ t.phase = .ended (.exit (.requested ⟨"done", false⟩)) ∧
      w ∈ t.enrolled ∧ t.teardown.calls = [.shutdownSearch, .closeFiles] ∧
      t.teardown.calls.count (.stopWatcher w) ≠ 1 := by
  refine ⟨_, _, _, _, start_of_isSome (by decide +kernel), rfl, rfl, rfl, ?_⟩
  decide +kernel

end SessionBroker
