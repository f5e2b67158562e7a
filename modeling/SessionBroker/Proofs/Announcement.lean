import Mathlib.Data.List.Induction
import SessionBroker.Proofs.EventOrder

/-!
How the readiness of the analysis workers is told.

`Announces` says what two analysis workers have told once their signals are merged. The
registry for two keeps to it (`Relay.passed_pair`), and a relay has that registry exactly when
both workers were started (`readiness?_start`). Main statement: `readiness_announced_once`.
-/

namespace SessionBroker

/-! ### The registry for two workers -/

namespace Readiness

def both (p : Worker → Bool) : Bool := p .primary && p .java

/-- The registry for two analysis workers after the signals of those that satisfy `p`. -/
def pair (p : Worker → Bool) : Readiness :=
  ⟨2, inOrder fun w => w.isAnalysis && p w, both p⟩

/-- Without a signal the registry for two is new. -/
theorem pair_none : pair (fun _ => false) = .new 2 := by decide

/-- A signal is answered if no worker is missing any more that was missing before. -/
theorem observe_pair (p : Worker → Bool) {w : Worker} (analysis : w.isAnalysis = true) :
    (pair p).observe w =
      (if both p = false ∧ both (fun v => v == w || p v) = true
        then some [.primary, .java] else none, pair fun v => v == w || p v) := by
  cases first : p .primary <;> cases second : p .java <;> cases w with
  | primary | java =>
      simp [pair, both, observe, inOrder, Worker.all, Worker.isAnalysis, first, second]
  | _ => cases analysis

end Readiness

/-! ### Merging the signals of two workers -/

/-- Whether a worker's signal is among some events. -/
def signalled (os : List Outgoing) (w : Worker) : Bool := os.any (·.event = .ready w)

theorem signalled_concat (os : List Outgoing) (o : Outgoing) (w : Worker) :
    signalled (os ++ [o]) w = (decide (o.event = .ready w) || signalled os w) := by
  rw [signalled, List.any_append, Bool.or_comm]
  simp [signalled]

/-- A signal is not taken back. -/
theorem both_signalled_append {os : List Outgoing} (whole : Readiness.both (signalled os) = true)
    (ps : List Outgoing) : Readiness.both (signalled (os ++ ps)) = true := by
  simp only [Readiness.both, signalled, List.any_append, Bool.and_eq_true,
    Bool.or_eq_true] at whole ⊢
  exact whole.imp .inl .inl

/-- The events that do not tell of readiness. -/
def others (os : List Outgoing) : List Outgoing := os.filter (!·.event.isReadiness)

theorem others_append (os ps : List Outgoing) : others (os ++ ps) = others os ++ others ps :=
  List.filter_append ..

/-- What is told of what two analysis workers emit: their signals are kept back, and one event
takes the place of the signal after which neither of them is missing. -/
inductive Announces : (emitted told : List Outgoing) → Prop
  | waiting {os : List Outgoing} :
      Readiness.both (signalled os) = false → Announces os (others os)
  | complete {os ps : List Outgoing} {o : Outgoing} :
      Readiness.both (signalled os) = false → Readiness.both (signalled (os ++ [o])) = true →
      Announces (os ++ o :: ps)
        (others os ++ ⟨o.origin, .analysisReady [.primary, .java]⟩ :: others ps)

namespace Announces

variable {os told : List Outgoing} {o : Outgoing}

/-- One more event that completes nothing. -/
theorem concat (announces : Announces os told)
    (same : Readiness.both (signalled (os ++ [o])) = Readiness.both (signalled os)) :
    Announces (os ++ [o]) (told ++ others [o]) := by
  cases announces with
  | waiting missing =>
      rw [← others_append]
      exact .waiting (same.trans missing)
  | @complete os ps p missing whole =>
      rw [List.append_assoc, List.cons_append, List.append_assoc, List.cons_append,
        ← others_append]
      exact .complete missing whole

/-- Nothing is announced as long as a worker is missing. -/
theorem eq_others (announces : Announces os told)
    (missing : Readiness.both (signalled os) = false) : told = others os := by
  cases announces with
  | waiting => rfl
  | @complete os ps p _ whole =>
      have later := both_signalled_append whole ps
      rw [List.append_assoc, List.singleton_append, missing] at later
      cases later

/-- The only event that tells of readiness is the announcement, and there is one at most. -/
theorem readiness (announces : Announces os told) :
    told.filter (·.event.isReadiness) = [] ∨
      ∃ origin, told.filter (·.event.isReadiness) =
        [⟨origin, .analysisReady [.primary, .java]⟩] := by
  have none_ (os : List Outgoing) : (others os).filter (·.event.isReadiness) = [] := by
    simp [others]
  cases announces with
  | waiting => exact .inl (none_ _)
  | @complete os ps o =>
      refine .inr ⟨o.origin, ?_⟩
      rw [List.filter_append, none_, List.filter_cons, none_]
      rfl

/-- When two workers have signalled, readiness is told. -/
theorem told_of_both (announces : Announces os told)
    (whole : Readiness.both (signalled os) = true) : ∃ o ∈ told, o.event.isReadiness = true := by
  cases announces with
  | waiting missing =>
      rw [missing] at whole
      cases whole
  | complete => exact ⟨_, List.mem_append_right _ (.head _), rfl⟩

end Announces

namespace Relay

/-- Analysis workers that signal for themselves, and do not announce what is for the registry to
announce. -/
def Plain (o : Outgoing) : Prop :=
  (∀ w, o.event = .ready w → w.isAnalysis = true) ∧ ∀ ws, o.event ≠ .analysisReady ws

/-- What comes of an event that tells of readiness or does not. -/
theorem pass_pair (p : Worker → Bool) {o : Outgoing} (plain : Plain o) :
    pass (some (.pair p)) o =
      if o.event.isReadiness then
        (if Readiness.both p = false ∧
            Readiness.both (fun v => decide (o.event = .ready v) || p v) = true
          then some ⟨o.origin, .analysisReady [.primary, .java]⟩ else none,
          some (.pair fun v => decide (o.event = .ready v) || p v))
      else (some o, some (.pair p)) := by
  obtain ⟨origin, e⟩ := o
  cases e with
  | ready w =>
      have analysis := plain.1 w rfl
      have same : (fun v => decide (Event.ready w = .ready v) || p v) = fun v => v == w || p v := by
        funext v
        by_cases own : w = v
        · simp [own]
        · simp [own, Ne.symm own]
      simp only [pass, Readiness.merge, Event.isReadiness, analysis, if_true,
        Readiness.observe_pair p analysis, same]
      split <;> rfl
  | analysisReady ws => exact absurd rfl (plain.2 ws)
  | _ => rfl

/-- An event that is not about readiness is no signal. -/
theorem signalled_concat_of_other {os : List Outgoing} {o : Outgoing} (plain : Plain o)
    (other : o.event.isReadiness = false) : signalled (os ++ [o]) = signalled os := by
  funext v
  rw [signalled_concat, Bool.or_eq_right_iff_imp, decide_eq_true_iff]
  intro signal
  simp [signal, Event.isReadiness, plain.1 v signal] at other

/-- The registry for two workers answers the signal that completes them, and no other. -/
theorem passed_pair {os : List Outgoing} (plain : ∀ o ∈ os, Plain o) :
    registryAfter (some (.new 2)) os = some (.pair (signalled os)) ∧
      Announces os (passed (some (.new 2)) os) := by
  induction os using List.reverseRecOn with
  | nil => exact ⟨congrArg some Readiness.pair_none.symm, .waiting rfl⟩
  | append_singleton os o ih =>
      obtain ⟨registry, announces⟩ := ih fun p mem => plain p (List.mem_append_left _ mem)
      have next : (fun v => decide (o.event = .ready v) || signalled os v) =
          signalled (os ++ [o]) := funext fun v => (signalled_concat os o v).symm
      rw [registryAfter_concat, passed_concat, registry,
        pass_pair _ (plain o (List.mem_append_right _ (.head _))), next]
      cases tells : o.event.isReadiness with
      | false =>
          have same : signalled (os ++ [o]) = signalled os :=
            signalled_concat_of_other (plain o (List.mem_append_right _ (.head _))) tells
          refine ⟨by rw [same]; rfl, ?_⟩
          have kept : others [o] = [o] := by simp [others, tells]
          have more := announces.concat (o := o) (by rw [same])
          rwa [kept] at more
      | true =>
          refine ⟨rfl, ?_⟩
          have still (same : Readiness.both (signalled (os ++ [o])) =
              Readiness.both (signalled os)) :
              Announces (os ++ [o]) (passed (some (.new 2)) os) := by
            have dropped : others [o] = [] := by simp [others, tells]
            have more := announces.concat same
            rwa [dropped, List.append_nil] at more
          cases whole : Readiness.both (signalled (os ++ [o])) with
          | false =>
              have missing : Readiness.both (signalled os) = false :=
                Bool.eq_false_iff.mpr fun before => by
                  rw [both_signalled_append before] at whole
                  cases whole
              simpa using still (whole.trans missing.symm)
          | true =>
              cases missing : Readiness.both (signalled os) with
              | false =>
                  rw [announces.eq_others missing]
                  exact .complete missing whole
              | true =>
                  simpa using still (whole.trans missing.symm)

end Relay

/-! ### The broker -/

/-- An act that tells nobody of readiness. -/
def Act.IsSilent (a : Act) : Prop := ∀ e, a = .emit e → e.isReadiness = false

namespace Session

variable {allowed : Move → Prop} {c : Config} {f : Staffing} {search files : Behaviour}
  {size : Nat} {s t : Session} {out : List Event} {moves : List Move}

/-- The broker tells nobody of readiness when it handles a message. -/
theorem silent_handles {b b' : Broker} {m : BrokerMessage} {acts : List Act}
    (handles : b.Handles m b' acts) : ∀ a ∈ acts, a.IsSilent := by
  rintro a mem e rfl
  cases handles with
  | greet | park | route | change | watcher | leave | indexFailed => simp at mem
  | _ =>
      simp only [List.mem_cons, Act.emit.injEq, reduceCtorEq, List.not_mem_nil, or_false] at mem
      subst mem
      rfl

/-- The broker tells nobody of readiness when it routes a request. -/
theorem silent_followUp (id : String) (fate : Except DispatchError Routed) :
    ∀ a ∈ Outlets.followUp id fate, a.IsSilent := by
  rintro a mem e rfl
  rcases fate with error | (_ | params | parts)
  case ok.partly =>
    obtain ⟨n, built, same⟩ := List.mem_map.mp mem
    cases same
    cases done : partialBatchNotification id parts with
    | error fault => simp [done, Except.toOption] at built
    | ok notification =>
        obtain ⟨params, rfl⟩ := exists_of_notification_ok done
        obtain rfl : e = .notification partialBatchMethod params := by
          simpa [done, Except.toOption] using built
        rfl
  all_goals
    simp only [Outlets.followUp, List.mem_cons, Act.emit.injEq, reduceCtorEq, List.not_mem_nil,
      or_false] at mem
  all_goals
    subst mem
    rfl

/-- The broker does not tell the gate of readiness, and is not about to. -/
structure Reserved (s : Session) : Prop where
  agenda : ∀ a ∈ s.agenda, a.IsSilent
  gate : ∀ e ∈ brokerEvents s.gate.inbox.accepted, e.isReadiness = false

/-- What the broker tells the gate is not about readiness. -/
theorem Reserved.tell (reserved : s.Reserved) {a : Act} {rest : List Act}
    {m : GateMessage Outgoing} (phase : s.phase = .serving (a :: rest))
    (quiet : ∀ e ∈ brokerEvents [m], e.isReadiness = false) :
    ({ s with gate := { s.gate with
        inbox := Outlets.tell s.gate.inbox m } }.withAgenda rest).Reserved := by
  refine ⟨fun a mem => reserved.agenda a (agenda_of_phase phase ▸ .tail _ mem), ?_⟩
  change ∀ e ∈ brokerEvents (Outlets.tell s.gate.inbox m).accepted, _
  unfold Outlets.tell
  split
  · rename_i offered
    obtain ⟨-, -, rfl⟩ := Mailbox.offer_eq_ok.mp offered
    rw [Mailbox.put_accepted, brokerEvents_append]
    exact List.forall_mem_append.mpr ⟨reserved.gate, quiet⟩
  · exact reserved.gate

/-- Every transition keeps the broker from telling the gate of readiness. -/
theorem Reserved.kept (reserved : s.Reserved) (orderly : s.Orderly) (foreign : s.Foreign)
    (h : Transition allowed s out t) : t.Reserved := by
  have rest {a : Act} {acts : List Act} (phase : s.phase = .serving (a :: acts)) :
      ∀ a ∈ acts, a.IsSilent :=
    fun a mem => reserved.agenda a (agenda_of_phase phase ▸ .tail _ mem)
  cases h with
  | reply phase => exact ⟨rest phase, reserved.gate⟩
  | @emit e acts phase =>
      refine reserved.tell phase fun e' mem => ?_
      rw [List.mem_singleton.mp mem]
      exact reserved.agenda _ (agenda_of_phase phase ▸ .head _) e rfl
  | activate phase => exact reserved.tell phase fun e mem => (List.not_mem_nil mem).elim
  | @route r acts phase =>
      exact ⟨List.forall_mem_append.mpr ⟨silent_followUp _ _, rest phase⟩, reserved.gate⟩
  | finish => exact ⟨fun a mem => (List.not_mem_nil mem).elim, reserved.gate⟩
  | receive => exact ⟨silent_handles (s.broker.handles_handle s.now _), reserved.gate⟩
  | background background =>
      refine ⟨?_, ?_⟩
      · rw [(background.still orderly.sound).agenda]
        exact reserved.agenda
      · rw [brokerEvents_of_carried foreign background.carried]
        exact reserved.gate

theorem Fresh.reserved_of_reaches (fresh : s.Fresh c) (h : Reaches allowed s out t) :
    t.Reserved := by
  induction h with
  | refl =>
      refine ⟨fun a mem => ?_, fun e mem => ?_⟩
      · rw [fresh.agenda] at mem
        cases mem
      · rw [fresh.gate] at mem
        cases mem
  | tail first last ih =>
      exact ih.kept (fresh.orderly_of_reaches first) (fresh.output_of_reaches first).foreign last

/-! ### The start -/

/-- A session starts with the relay that its staffing asks for. -/
theorem analysis_of_start (started : start c f search files size = .ok s) :
    s.analysis = f.analysisRelay := by
  obtain ⟨broker, -, rfl⟩ := exists_of_start started
  rfl

/-- The relay of the analysis workers waits for two signals exactly when two can come. -/
theorem readiness?_start (started : start c f search files size = .ok s) (way : Bool) :
    s.readiness? way =
      if way && f.isStarted .primary && f.isStarted .java then some (.new 2) else none := by
  have fresh := fresh_start started
  cases way with
  | false =>
      rw [readiness?, relay?, fresh.support]
      rfl
  | true =>
      rw [readiness?, relay?, analysis_of_start started, Staffing.analysisRelay, Bool.true_and]
      cases layout : f.layout with
      | javaOnly =>
          have absent : f.isStarted .primary = false := by
            simp [Staffing.isStarted, Staffing.wanted, layout, Layout.analysis]
          rw [absent]
          rfl
      | mixed =>
          simp only [Staffing.analysisCount, layout, Layout.analysis, Option.bind_some,
            List.filter_cons, List.filter_nil, Relay.start]
          cases f.isStarted .primary <;> cases f.isStarted .java <;> rfl

theorem analysis_of_readiness? {registry : Readiness} (merges : s.readiness? true = some registry) :
    s.analysis.isSome = true := by
  cases found : s.analysis with
  | none => simp [readiness?, relay?, found] at merges
  | some r => rfl

/-! ### What workers emit -/

/-- Workers signal for themselves only, and leave the announcement to the session. -/
def Honest (moves : List Move) : Prop :=
  ∀ w e, .emit w e ∈ moves → (∀ v, e = .ready v → v = w) ∧ ∀ ws, e ≠ .analysisReady ws

theorem mem_of_mem_emissions {o : Outgoing} (mem : o ∈ s.emissions moves) :
    ∃ w e, .emit w e ∈ moves ∧ o = ⟨.worker w, e⟩ := by
  induction moves generalizing s with
  | nil => cases mem
  | cons m moves ih =>
      rw [emissions, inputs, List.filterMap_append, List.mem_append] at mem
      rcases mem with first | later
      · obtain ⟨n, came, emission⟩ := List.mem_filterMap.mp first
        unfold input at came
        split at came
        · rw [List.mem_singleton.mp came] at emission
          cases m with
          | emit w e =>
              cases emission
              exact ⟨w, e, .head _, rfl⟩
          | _ => cases emission
        · cases came
      · obtain ⟨w, e, old, same⟩ := ih later
        exact ⟨w, e, .tail _ old, same⟩

/-- What comes of a worker by the way of the analysis workers is for their registry. -/
theorem Honest.plain (honest : Honest moves) {o : Outgoing}
    (mem : o ∈ (s.emissions moves).filter (s.takesWay true)) : Relay.Plain o := by
  obtain ⟨emitted, takes⟩ := List.mem_filter.mp mem
  obtain ⟨w, e, move, rfl⟩ := mem_of_mem_emissions emitted
  obtain ⟨own, other⟩ := honest w e move
  simp only [takesWay, usesAnalysisRelay, beq_true, Bool.and_eq_true] at takes
  exact ⟨fun v signal => own v signal ▸ takes.2, other⟩

/-- By the other way nobody tells of readiness, if there are two. -/
theorem Honest.not_readiness (honest : Honest moves) (two : s.analysis.isSome = true)
    {o : Outgoing} (mem : o ∈ (s.emissions moves).filter (s.takesWay false)) :
    o.event.isReadiness = false := by
  obtain ⟨emitted, takes⟩ := List.mem_filter.mp mem
  obtain ⟨w, e, move, rfl⟩ := mem_of_mem_emissions emitted
  obtain ⟨own, other⟩ := honest w e move
  simp only [takesWay, usesAnalysisRelay, two, Bool.true_and, beq_false, Bool.not_eq_true'] at takes
  cases e with
  | ready v => exact (own v rfl).symm ▸ takes
  | analysisReady ws => exact absurd rfl (other ws)
  | _ => rfl

/-! ### What the gate gets -/

/-- The gate gets some events by a way: a beginning of them, and all of them once nothing is
left on its way to a client that reads. -/
structure Gets (t : Session) (way : Bool) (told : List Outgoing) : Prop where
  first : t.gated.filter (t.takesWay way) <+: told
  whole : t.client.isOpen = true → t.isDrained = true → t.gated.filter (t.takesWay way) = told

/-- What a relay is given of the emissions has reached the gate, or is still on its way. -/
theorem Fresh.gets (fresh : s.Fresh c) (reached : Reaches allowed s out (s.run moves))
    (way : Bool) :
    (s.run moves).Gets way
      (Relay.passed (s.readiness? way) ((s.emissions moves).filter (s.takesWay way))) := by
  have flowing := fresh.flowing_of_reaches reached
  have takes := takesWay_congr (fed_run s moves).ways
  cases found : (s.run moves).relay? way with
  | some r =>
      obtain ⟨first, whole⟩ := fresh.gated_way flowing found
      refine ⟨by rwa [takes], fun there drained => ?_⟩
      obtain ⟨all, idle⟩ := (fresh.attending_of_reaches reached).drained flowing there drained found
      rw [takes]
      exact whole all idle
  | none =>
      -- Nothing takes a way that there is not.
      have nothing (os : List Outgoing) : os.filter (s.takesWay way) = [] := by
        cases way with
        | false => cases found
        | true =>
            have alone : s.analysis.isSome = false := by
              rw [← (fed_run s moves).ways, show (s.run moves).analysis = none from found]
              rfl
            rw [List.filter_eq_nil_iff]
            rintro ⟨_ | w, e⟩ mem <;> simp [takesWay, usesAnalysisRelay, alone]
      rw [nothing]
      constructor <;> simp [takes, nothing, Relay.passed]

/-- Without a registry everything is passed on as it was emitted. -/
theorem Fresh.gets_same (fresh : s.Fresh c) (reached : Reaches allowed s out (s.run moves))
    (way : Bool) (alone : s.readiness? way = none) :
    (s.run moves).Gets way ((s.emissions moves).filter (s.takesWay way)) := by
  have gets := fresh.gets reached way
  rwa [alone, Relay.passed_none] at gets

/-- What has reached the gate is the broker's, or has come by one of the ways. -/
theorem Reserved.cases_gated (reserved : t.Reserved) {o : Outgoing} (mem : o ∈ t.gated) :
    o.event.isReadiness = false ∨ ∃ way, o ∈ t.gated.filter (t.takesWay way) := by
  obtain ⟨origin, e⟩ := o
  cases origin with
  | broker =>
      exact .inl (reserved.gate e (List.mem_filterMap.mpr ⟨_, mem, rfl⟩))
  | worker w => exact .inr ⟨_, List.mem_filter.mpr ⟨mem, takesWay_worker rfl rfl⟩⟩

/-- Passing on brings in nothing from outside. -/
theorem emissions_passage {more : List Move} (passage : ∀ m ∈ more, m.isPassage = true) :
    s.emissions (moves ++ more) = s.emissions moves := by
  induction moves generalizing s with
  | nil =>
      induction more generalizing s with
      | nil => rfl
      | cons m more ih =>
          have none_ : s.input m = [] := by
            have passes := passage m (.head _)
            cases m with
            | send | emit => cases passes
            | _ => rfl
          have rest : (s.apply m).emissions ([] ++ more) = [] :=
            ih fun n mem => passage n (.tail _ mem)
          rw [emissions, List.nil_append] at rest
          rw [emissions, List.nil_append, inputs, none_, List.nil_append, rest]
          rfl
  | cons m moves ih =>
      have rest := ih (s := s.apply m)
      rw [emissions, emissions] at rest
      rw [emissions, emissions, List.cons_append, inputs, inputs, List.filterMap_append,
        List.filterMap_append, rest]

/-- How a session `t` after some moves tells that the analysis workers are ready, which were
started as `f` says. -/
structure Announced (f : Staffing) (s : Session) (moves : List Move) (t : Session) : Prop where
  /-- Two workers: the gate gets no signal of them and at most one announcement. It takes the
  place of the signal that completes them; all else is passed on as it is. -/
  two : f.isStarted .primary = true → f.isStarted .java = true →
    (∀ o ∈ t.gated, o.event.isReadiness = true →
      o.event = .analysisReady [.primary, .java]) ∧
    (t.gated.filter (·.event.isReadiness)).length ≤ 1 ∧
    ∃ told, Announces ((s.emissions moves).filter (s.takesWay true)) told ∧ t.Gets true told
  /-- One worker or none: there is no announcement, and all that comes by the way of the analysis
  workers is passed on as it is, signals included. -/
  one : ¬ (f.isStarted .primary = true ∧ f.isStarted .java = true) →
    (∀ o ∈ t.gated, ∀ ws, o.event ≠ .analysisReady ws) ∧
    t.Gets true ((s.emissions moves).filter (s.takesWay true))
  /-- What comes by the other way is passed on as it is. All workers take it when the layout has
  but one analysis worker. -/
  support : t.Gets false ((s.emissions moves).filter (s.takesWay false))
  /-- When all analysis workers that there are have signalled, readiness is told. -/
  told : (∃ w, w.isAnalysis = true ∧ f.isStarted w = true) →
    (∀ w, w.isAnalysis = true → f.isStarted w = true →
      ⟨.worker w, .ready w⟩ ∈ s.emissions moves) →
    t.client.isOpen = true → t.isDrained = true → ∃ o ∈ t.gated, o.event.isReadiness = true
  /-- A client that reads sees to it that nothing remains on its way. -/
  drains : t.client.isOpen = true → 0 < s.client.capacity →
    ∃ more, (∀ m ∈ more, m.isPassage = true) ∧ s.emissions (moves ++ more) = s.emissions moves ∧
      (s.run (moves ++ more)).isDrained = true ∧ (s.run (moves ++ more)).client.isOpen = true

/-- With two workers readiness is told by one announcement at most. -/
theorem announced_two (fresh : s.Fresh c) (reached : Reaches allowed s out (s.run moves))
    (two : s.readiness? true = some (.new 2)) (one : s.readiness? false = none)
    (honest : Honest moves) :
    (∀ o ∈ (s.run moves).gated, o.event.isReadiness = true →
      o.event = .analysisReady [.primary, .java]) ∧
    ((s.run moves).gated.filter (·.event.isReadiness)).length ≤ 1 ∧
    ∃ told, Announces ((s.emissions moves).filter (s.takesWay true)) told ∧
      (s.run moves).Gets true told := by
  have relay := analysis_of_readiness? two
  have support := fresh.gets_same reached false one
  have gets := fresh.gets reached true
  rw [two] at gets
  have announces := (Relay.passed_pair fun o
    (mem : o ∈ (s.emissions moves).filter (s.takesWay true)) => honest.plain mem).2
  generalize Relay.passed (some (.new 2)) _ = told at gets announces
  -- Whatever tells of readiness has come by the way of the analysis workers.
  have way (o : Outgoing) (mem : o ∈ (s.run moves).gated) (tells : o.event.isReadiness = true) :
      (s.run moves).takesWay true o = true := by
    rcases (fresh.reserved_of_reaches reached).cases_gated mem with silent | ⟨_ | _, own⟩
    · rw [silent] at tells
      cases tells
    · have silent := honest.not_readiness relay (support.first.subset own)
      rw [silent] at tells
      cases tells
    · exact (List.mem_filter.mp own).2
  have sublist : ((s.run moves).gated.filter (·.event.isReadiness)).Sublist
      (told.filter (·.event.isReadiness)) := by
    have same : (s.run moves).gated.filter (·.event.isReadiness) =
        ((s.run moves).gated.filter ((s.run moves).takesWay true)).filter
          (·.event.isReadiness) := by
      rw [List.filter_filter]
      refine List.filter_congr fun o mem => ?_
      cases tells : o.event.isReadiness with
      | false => rfl
      | true => rw [way o mem tells, Bool.true_and]
    rw [same]
    exact gets.first.sublist.filter _
  have few : (told.filter (·.event.isReadiness)).length ≤ 1 := by
    rcases announces.readiness with none_ | ⟨origin, one_⟩
    · simp [none_]
    · simp [one_]
  refine ⟨fun o mem tells => ?_, Nat.le_trans sublist.length_le few, told, announces, gets⟩
  have among := sublist.subset (List.mem_filter.mpr ⟨mem, tells⟩)
  rcases announces.readiness with none_ | ⟨origin, one_⟩
  · rw [none_] at among
    cases among
  · rw [one_, List.mem_singleton] at among
    rw [among]

/-- Once two workers have signalled and everything has been passed on, readiness is told. -/
theorem told_of_two {told : List Outgoing}
    (announces : Announces ((s.emissions moves).filter (s.takesWay true)) told)
    (gets : t.Gets true told) (relay : s.analysis.isSome = true)
    (signals : ∀ w, w.isAnalysis = true → ⟨.worker w, .ready w⟩ ∈ s.emissions moves)
    (there : t.client.isOpen = true) (drained : t.isDrained = true) :
    ∃ o ∈ t.gated, o.event.isReadiness = true := by
  have signal {w : Worker} (analysis : w.isAnalysis = true) :
      signalled ((s.emissions moves).filter (s.takesWay true)) w = true := by
    refine List.any_eq_true.mpr ⟨_, List.mem_filter.mpr ⟨signals w analysis, ?_⟩, by simp⟩
    exact takesWay_worker (by rw [usesAnalysisRelay, relay, analysis]; rfl) rfl
  obtain ⟨o, mem, tells⟩ := announces.told_of_both
    (by rw [Readiness.both, signal rfl, signal rfl]; rfl)
  rw [← gets.whole there drained] at mem
  exact ⟨o, (List.mem_filter.mp mem).1, tells⟩

/-- Once a worker that is alone has signalled and everything has been passed on, readiness is
told. -/
theorem told_of_one {w : Worker} (analysis : w.isAnalysis = true)
    (gets : t.Gets (s.usesAnalysisRelay w)
      ((s.emissions moves).filter (s.takesWay (s.usesAnalysisRelay w))))
    (signals : ⟨.worker w, .ready w⟩ ∈ s.emissions moves)
    (there : t.client.isOpen = true) (drained : t.isDrained = true) :
    ∃ o ∈ t.gated, o.event.isReadiness = true := by
  have mem := List.mem_filter.mpr ⟨signals, takesWay_worker (s := s) rfl rfl⟩
  rw [← gets.whole there drained] at mem
  exact ⟨_, (List.mem_filter.mp mem).1, analysis⟩

end Session

open Session in
/-- **Readiness is told once, when it is complete, and it is not held back.** However workers were
started, and whatever they emit in any order, as long as each signals for itself only: of two
analysis workers the gate gets no signal but one announcement, in the place of the signal after
which neither is missing; of one it gets the signals as they are and no announcement. Everything
else passes unchanged. Once all analysis workers that there are have signalled, and everything on
its way to a client that reads has got there, the gate has got readiness; the relays, the gate and
the client see to that by themselves. -/
theorem readiness_announced_once {c : Config} {f : Staffing} {search files : Behaviour}
    {size : Nat} {s : Session} (started : start c f search files size = .ok s)
    {moves : List Move} (honest : Honest moves) : Announced f s moves (s.run moves) := by
  have fresh := fresh_start started
  have registry := readiness?_start started
  obtain ⟨out, reached⟩ := reaches_run (fun _ => True) s moves fun _ _ _ => trivial
  have support := fresh.gets_same reached false (registry false)
  have two (primary : f.isStarted .primary = true) (java : f.isStarted .java = true) :
      s.readiness? true = some (.new 2) := by
    simp [registry, primary, java]
  have one (not_two : ¬ (f.isStarted .primary = true ∧ f.isStarted .java = true)) (way : Bool) :
      s.readiness? way = none := by
    rw [registry, Bool.and_assoc, if_neg (by simpa using fun _ => not_and.mp not_two)]
  refine ⟨fun primary java => announced_two fresh reached (two primary java) (registry false)
    honest, fun not_two => ⟨?_, fresh.gets_same reached true (one not_two true)⟩, support, ?_, ?_⟩
  · intro o mem ws announcement
    rcases (fresh.reserved_of_reaches reached).cases_gated mem with silent | ⟨way, own⟩
    · rw [announcement] at silent
      cases silent
    · have gets := fresh.gets_same reached way (one not_two way)
      obtain ⟨emitted, -⟩ := List.mem_filter.mp (gets.first.subset own)
      obtain ⟨w, e, move, rfl⟩ := mem_of_mem_emissions emitted
      exact (honest w e move).2 ws announcement
  · rintro ⟨w, analysis, isStarted⟩ signals there drained
    by_cases both : f.isStarted .primary = true ∧ f.isStarted .java = true
    · obtain ⟨-, -, told, announces, gets⟩ :=
        announced_two fresh reached (two both.1 both.2) (registry false) honest
      refine told_of_two announces gets (analysis_of_readiness? (two both.1 both.2))
        (fun v own => signals v own ?_) there drained
      cases v with
      | primary => exact both.1
      | java => exact both.2
      | _ => cases own
    · exact told_of_one analysis (fresh.gets_same reached _ (one both _))
        (signals w analysis isStarted) there drained
  · intro there room
    obtain ⟨more, passage, drained, open_⟩ :=
      fresh.passage room (fun _ => trivial) reached there
    exact ⟨more, passage, emissions_passage passage, run_append .. ▸ drained,
      run_append .. ▸ open_⟩

open Session in
/-- Java signals twice and writes something before the main analysis worker signals; then that
signals once more. In the second session the main analysis worker could not be started. -/
theorem readiness_announced_once_of_two_and_one :
    ∃ s s' moves t t', start .default ⟨.mixed, .replicate (some 1)⟩ .hangs .hangs 8 = .ok s ∧
      start .default ⟨.mixed, (PerWorker.replicate (some 1)).set .primary none⟩ .hangs .hangs 8 =
        .ok s' ∧
      moves = [.emit .java (.ready .java), .emit .java (.ready .java),
        .emit .java (.notification "a" .null), .emit .primary (.ready .primary),
        .emit .primary (.ready .primary), .emit .docs (.ready .docs)] ++
        List.replicate 9 (.step .analysis) ++ List.replicate 2 (.step .support) ++
        List.replicate 5 (.step .gate) ∧
      s.run moves = t ∧ s'.run moves = t' ∧ Honest moves ∧
      Announced ⟨.mixed, .replicate (some 1)⟩ s moves t ∧
      Announced ⟨.mixed, (PerWorker.replicate (some 1)).set .primary none⟩ s' moves t' ∧
      (∃ o ∈ t.gated, o.event.isReadiness = true) ∧ (∃ o ∈ t'.gated, o.event.isReadiness = true) ∧
      t.gated = [⟨.worker .java, .notification "a" .null⟩,
        ⟨.worker .primary, .analysisReady [.primary, .java]⟩, ⟨.worker .docs, .ready .docs⟩] ∧
      t'.gated = [⟨.worker .java, .ready .java⟩, ⟨.worker .java, .ready .java⟩,
        ⟨.worker .java, .notification "a" .null⟩, ⟨.worker .docs, .ready .docs⟩] := by
  have started : start .default ⟨.mixed, .replicate (some 1)⟩ .hangs .hangs 8 = .ok _ :=
    start_of_isSome (by decide +kernel)
  have started' : start .default ⟨.mixed, (PerWorker.replicate (some 1)).set .primary none⟩
      .hangs .hangs 8 = .ok _ := start_of_isSome (by decide +kernel)
  refine ⟨_, _, _, _, _, started, started', rfl, rfl, rfl, ?_⟩
  suffices honest : Honest _ by
    have two := readiness_announced_once started honest
    have one := readiness_announced_once started' honest
    refine ⟨honest, two, one, ?_, ?_, by decide +kernel, by decide +kernel⟩
    · exact two.told ⟨.java, rfl, by decide⟩ (fun w => by cases w <;> decide +kernel)
        (by decide +kernel) (by decide +kernel)
    · exact one.told ⟨.java, rfl, by decide⟩ (fun w => by cases w <;> decide +kernel)
        (by decide +kernel) (by decide +kernel)
  intro w e mem
  simp only [List.append_assoc, List.cons_append, List.mem_cons, List.mem_append,
    List.mem_replicate, Move.emit.injEq, reduceCtorEq, and_false, or_false,
    List.nil_append] at mem
  rcases mem with ⟨rfl, rfl⟩ | ⟨rfl, rfl⟩ | ⟨rfl, rfl⟩ | ⟨rfl, rfl⟩ | ⟨rfl, rfl⟩ | ⟨rfl, rfl⟩ <;>
    simp

end SessionBroker
