import Mathlib.Data.List.Induction
import SessionBroker.Proofs.Readiness
import SessionBroker.Proofs.RelayFlow

/-!
What becomes of events in a relay.

Without a registry the gate is due the events as they are; with one the signals of the analysis
workers are merged into one event, in the place of the signal that meets the target
(`Relay.Relayed`). What a relay passes on keeps to that (`Relay.relayed_passed`), and so does the
gate's mailbox at every stage of the relay, before its start and after it (`Relay.Stage`).
-/

namespace SessionBroker

open Readiness (Complete distinct)

namespace Relay

/-! ### Signals among events -/

/-- The analysis worker that an event says is ready. -/
def signal? (o : Outgoing) : Option Worker :=
  match o.event with
  | .ready w => if w.isAnalysis then some w else none
  | _ => none

/-- The analysis workers that some events say are ready. -/
def signals (os : List Outgoing) : List Worker := os.filterMap signal?

/-- The events that are not such signals. -/
def unmerged (os : List Outgoing) : List Outgoing := os.filter fun o => (signal? o).isNone

/-- The signal `o` as the one event that all signals so far are merged into. -/
def merging (os : List Outgoing) (o : Outgoing) : Outgoing :=
  { o with event := .analysisReady (distinct (signals (os ++ [o]))) }

/-- What becomes of some events in a relay with a registry of this target, or without one. -/
inductive Relayed : (target : Option Nat) → (emitted told : List Outgoing) → Prop
  | plain (os : List Outgoing) : Relayed none os os
  /-- The target is not met. -/
  | waiting {n : Nat} {os : List Outgoing} :
      ¬ Complete n (signals os) → Relayed (some n) os (unmerged os)
  /-- The target is met by `o` and by nothing before. -/
  | complete {n : Nat} {early late : List Outgoing} {o : Outgoing} :
      ¬ Complete n (signals early) → Complete n (signals (early ++ [o])) →
      Relayed (some n) (early ++ o :: late) (unmerged early ++ merging early o :: unmerged late)

variable {n : Nat} {os early early' late late' : List Outgoing} {o o' : Outgoing} {w : Worker}

theorem signals_append (os ps : List Outgoing) : signals (os ++ ps) = signals os ++ signals ps :=
  List.filterMap_append

theorem complete_signals_append (complete : Complete n (signals os)) (ps : List Outgoing) :
    Complete n (signals (os ++ ps)) :=
  signals_append os ps ▸ complete.append (signals ps)

theorem complete_of_met (met : Complete n (signals (early ++ [o]))) (late : List Outgoing) :
    Complete n (signals (early ++ o :: late)) := by
  simpa using complete_signals_append met late

/-- No place where a target is met is behind another one. -/
theorem length_early_le (same : early ++ o :: late = early' ++ o' :: late')
    (missing : ¬ Complete n (signals early')) (met : Complete n (signals (early ++ [o]))) :
    early'.length ≤ early.length := by
  by_contra longer
  have whole : early ++ [o] <+: early' ++ o' :: late' := ⟨late, by simp [← same]⟩
  have earlier : early ++ [o] <+: early' := by
    refine List.prefix_of_prefix_length_le whole (List.prefix_append _ _) ?_
    rw [List.length_append, List.length_singleton]
    omega
  obtain ⟨rest, rfl⟩ := earlier
  exact missing (complete_signals_append met rest)

/-- Events are relayed in one way only. -/
theorem Relayed.unique {target : Option Nat} {told told' : List Outgoing}
    (relayed : Relayed target os told) (relayed' : Relayed target os told') : told = told' := by
  cases relayed with
  | plain =>
      cases relayed'
      rfl
  | waiting missing =>
      cases relayed' with
      | waiting => rfl
      | complete _ met => exact absurd (complete_of_met met _) missing
  | @complete _ early late o missing met =>
      generalize same : early ++ o :: late = whole at relayed'
      cases relayed' with
      | waiting missing' => exact absurd (same ▸ complete_of_met met late) missing'
      | @complete _ early' late' o' missing' met' =>
          have equal := Nat.le_antisymm (length_early_le same.symm missing met')
            (length_early_le same missing' met)
          obtain ⟨rfl, rest⟩ := List.append_inj same equal
          cases rest
          rfl

/-! ### What a relay with a registry does -/

/-- An event that is no signal is passed on and leaves the registry as it is. -/
theorem pass_of_other (r : Readiness) (other : signal? o = none) :
    pass (some r) o = (some o, some r) := by
  obtain ⟨origin, e⟩ := o
  cases e with
  | ready w =>
      have analysis : w.isAnalysis = false := by simpa [signal?] using other
      simp [pass, Readiness.merge, analysis]
  | _ => rfl

/-- A signal is passed on with what the registry makes of it, if anything. -/
theorem pass_of_signal (r : Readiness) (signal : signal? o = some w) :
    pass (some r) o =
      ((r.observe w).1.map fun ws => { o with event := .analysisReady ws },
        some (r.observe w).2) := by
  obtain ⟨origin, e⟩ := o
  cases e with
  | ready v =>
      obtain ⟨analysis, rfl⟩ : v.isAnalysis = true ∧ v = w := by simpa [signal?] using signal
      simp [pass, Readiness.merge, analysis, Function.comp_def]
  | _ => cases signal

/-- The registry of a relay has noted the signals among the events. -/
theorem noted_registryAfter (n : Nat) (os : List Outgoing) :
    ∃ r, registryAfter (some (.new n)) os = some r ∧ r.Noted n (signals os) := by
  induction os using List.reverseRecOn with
  | nil => exact ⟨.new n, rfl, Readiness.noted_new n⟩
  | append_singleton os o ih =>
      obtain ⟨r, same, noted⟩ := ih
      rw [registryAfter_concat, same, signals_append]
      cases signal : signal? o with
      | none =>
          rw [pass_of_other r signal]
          exact ⟨r, rfl, by simpa [signals, signal] using noted⟩
      | some w =>
          rw [pass_of_signal r signal]
          exact ⟨(r.observe w).2, rfl, by simpa [signals, signal] using (noted.observe w).2⟩

/-- What is passed on of the event behind some events: itself if it is no signal, otherwise the
merged event if it meets the target. -/
theorem pass_registryAfter (n : Nat) (os : List Outgoing) (o : Outgoing) :
    (pass (registryAfter (some (.new n)) os) o).1.toList =
      if ¬ Complete n (signals os) ∧ Complete n (signals (os ++ [o])) then [merging os o]
      else unmerged [o] := by
  obtain ⟨r, same, noted⟩ := noted_registryAfter n os
  rw [same]
  cases signal : signal? o with
  | none =>
      have as_before : signals (os ++ [o]) = signals os := by simp [signals, signal]
      rw [pass_of_other r signal, as_before, if_neg fun both => both.1 both.2]
      simp [unmerged, signal]
  | some w =>
      have one_more : signals (os ++ [o]) = signals os ++ [w] := by simp [signals, signal]
      rw [pass_of_signal r signal, (noted.observe w).1, merging, one_more]
      split
      · rfl
      · simp [unmerged, signal]

/-- Passing events on one by one is relaying them. -/
theorem relayed_passed (target : Option Nat) (os : List Outgoing) :
    Relayed target os (passed (target.map .new) os) := by
  cases target with
  | none =>
      rw [Option.map_none, passed_none]
      exact .plain os
  | some n =>
      rw [Option.map_some]
      induction os using List.reverseRecOn with
      | nil => exact .waiting (Readiness.not_complete_nil n)
      | append_singleton os o ih =>
          rw [passed_concat, pass_registryAfter]
          generalize passed (some (.new n)) os = told at ih
          cases ih with
          | waiting missing =>
              by_cases met : Complete n (signals (os ++ [o]))
              · rw [if_pos ⟨missing, met⟩]
                exact .complete missing met
              · rw [if_neg fun both => met both.2]
                simpa [unmerged] using Relayed.waiting met
          | @complete _ early late p missing met =>
              rw [if_neg fun both => both.1 (complete_of_met met late)]
              have longer : Relayed (some n) (early ++ p :: (late ++ [o])) _ :=
                .complete missing met
              simpa [unmerged] using longer

/-! ### Steps of a relay -/

variable {r r' : Relay} {gate gate' : Mailbox (GateMessage Outgoing)} {orphaned : Bool}

/-- A step of a relay changes neither whether it has started nor the size of a mailbox. -/
theorem step_frame (stepped : r.step gate orphaned = some (r', gate')) :
    r'.started = r.started ∧ r'.inbox.capacity = r.inbox.capacity ∧
      gate'.capacity = gate.capacity ∧ gate'.isOpen = gate.isOpen := by
  obtain ⟨-, steps⟩ := steps_of_step stepped
  cases steps with
  | hand _ offered =>
      obtain ⟨-, -, rfl⟩ := Mailbox.offer_eq_ok.mp offered
      exact ⟨rfl, rfl, rfl, rfl⟩
  | read _ taken =>
      obtain ⟨-, -, rfl⟩ := Mailbox.next?_eq_some taken
      rw [receive_eq]
      exact ⟨rfl, rfl, rfl, rfl⟩
  | _ => exact ⟨rfl, rfl, rfl, rfl⟩

/-- What is left to do for a relay, its end included. -/
def effort (r : Relay) : Nat :=
  4 * r.inbox.waiting.length + 3 * r.leaving.toList.length + if r.running then 1 else 0

/-- A relay that ends has less left to do. -/
theorem effort_stop (running : r.running = true) : r.stop.effort < r.effort := by
  have none_ : r.stop.inbox.waiting = [] := rfl
  simp only [effort, none_, List.length_nil, running, if_true]
  simp only [stop, Bool.false_eq_true, if_false]
  omega

/-- Every move of a relay leaves less to do, also if it leaves a message to the gate. -/
theorem effort_step (stepped : r.step gate orphaned = some (r', gate')) :
    r'.effort + 2 * gate'.waiting.length < r.effort + 2 * gate.waiting.length := by
  obtain ⟨running, steps⟩ := steps_of_step stepped
  cases steps with
  | @hand o _ leaving offered =>
      obtain ⟨-, -, rfl⟩ := Mailbox.offer_eq_ok.mp offered
      have more := Mailbox.length_waiting_put (m := gate) (a := GateMessage.event o)
      simp only [effort, leaving, Option.toList_none, Option.toList_some, List.length_nil,
        List.length_singleton]
      omega
  | @read o inbox idle taken =>
      have less := congrArg List.length (Mailbox.waiting_next taken)
      have one := Option.length_toList_le (o := (pass r.registry o).1)
      rw [receive_eq]
      simp only [effort, idle, Option.toList_none, List.length_nil, List.length_cons] at less ⊢
      omega
  | lose | leave =>
      have less := effort_stop running
      omega

/-- A relay that cannot move although the gate has room has nothing to do. -/
theorem idle_of_step (rests : r.step gate orphaned = none) (started : r.started = true)
    (running : r.running = true) (ready : gate.isReady = true) :
    r.leaving = none ∧ r.inbox.next? = none := by
  cases leaving : r.leaving with
  | some o =>
      have settled : gate.offer (.event o) ≠ .error .full := by
        rw [ne_eq, Mailbox.offer_eq_full]
        rintro ⟨there, isFull⟩
        simp [Mailbox.isReady, there, isFull] at ready
      cases offered : gate.offer (.event o) with
      | ok rest => simp [step, started, running, leaving, offered] at rests
      | error refusal =>
          cases refusal with
          | gone => simp [step, started, running, leaving, offered] at rests
          | full => exact absurd offered settled
  | none =>
      cases taken : r.inbox.next? with
      | some next => simp [step, started, running, leaving, taken] at rests
      | none => exact ⟨rfl, rfl⟩

/-! ### Before and after the start -/

/-- A relay that has not been started: everything waits in its mailbox, and the gate has got
nothing. -/
structure Collects (log : List (GateMessage Outgoing)) (r : Relay) : Prop where
  sound : r.inbox.Sound
  started : r.started = false
  running : r.running = true
  isOpen : r.inbox.isOpen = true
  unread : r.inbox.taken = 0
  leaving : r.leaving = none
  silent : Gate.events log = []

/-- A relay that is to be started with a registry of this target, or without one, before its start
or after it. -/
def Stage (target : Option Nat) (log : List (GateMessage Outgoing)) (r : Relay) : Prop :=
  r.Collects log ∨ r.Flow (fun _ => true) (target.map .new) log

variable {target : Option Nat} {log : List (GateMessage Outgoing)}

theorem stage_new (target : Option Nat) : new.Stage target [] :=
  .inl ⟨Nat.le_refl 0, rfl, rfl, rfl, rfl, rfl, rfl⟩

/-- A relay that starts makes of what it has collected what it would have made of it before. -/
theorem Collects.start (collects : r.Collects log) :
    (r.start (target.map .new)).Flow (fun _ => true) (target.map .new) log := by
  obtain ⟨sound, -, running, isOpen, unread, leaving, silent⟩ := collects
  have read : r.inbox.read = [] := by rw [Mailbox.read, unread, List.take_zero]
  refine ⟨sound, rfl, running.trans isOpen.symm, fun _ _ => rfl, ?_, ?_⟩
  · change target.map .new = registryAfter (target.map .new) r.inbox.read
    rw [read]
    rfl
  · change (Gate.events log).filter _ ++ r.leaving.toList = passed _ r.inbox.read
    rw [read, silent, leaving]
    rfl

/-- An event that is accepted is one more that the relay has been sent. -/
theorem Stage.offer (stage : r.Stage target log) {inbox : Mailbox Outgoing}
    (offered : r.inbox.offer o = .ok inbox) : Stage target log { r with inbox } := by
  refine stage.imp (fun collects => ?_) fun flow => flow.offer rfl offered
  obtain ⟨-, -, rfl⟩ := Mailbox.offer_eq_ok.mp offered
  obtain ⟨sound, started, running, isOpen, unread, leaving, silent⟩ := collects
  exact ⟨sound.put, started, running, isOpen, unread, leaving, silent⟩

/-- The gate is sent an activation. -/
theorem Stage.activate (stage : r.Stage target log) : r.Stage target (log ++ [.activate]) := by
  have same : Gate.events (log ++ [.activate]) = Gate.events log := by
    simp [Gate.events, GateMessage.event?]
  rcases stage with ⟨sound, started, running, isOpen, unread, leaving, silent⟩ | flow
  · exact .inl ⟨sound, started, running, isOpen, unread, leaving, same.trans silent⟩
  · exact .inr (flow.others fun _ mem => (List.not_mem_nil mem).elim)

/-- Only a relay that has been started moves. -/
theorem Stage.step (stage : r.Stage target gate.accepted)
    (stepped : r.step gate orphaned = some (r', gate')) : r'.Stage target gate'.accepted := by
  rcases stage with collects | flow
  · simp [Relay.step, collects.started] at stepped
  · exact .inr (flow.step (fun _ _ _ => rfl) stepped)

/-- The gate has got a beginning of what becomes of the events, -/
theorem Stage.events_prefix (stage : r.Stage target log) :
    Gate.events log <+: passed (target.map .new) r.inbox.accepted := by
  rcases stage with collects | flow
  · rw [collects.silent]
    exact List.nil_prefix
  · have handed := flow.handed
    rw [List.filter_true] at handed
    exact List.IsPrefix.trans ⟨_, handed⟩ <| passed_prefix _ r.inbox.read_prefix

/-- and all of it once nothing is left to read or to hand on. -/
theorem Stage.events_eq (stage : r.Stage target log) (started : r.started = true)
    (idle : r.leaving = none) (drained : r.inbox.Drained) :
    Gate.events log = passed (target.map .new) r.inbox.accepted := by
  rcases stage with collects | flow
  · rw [collects.started] at started
    cases started
  · simpa [idle, drained.read_eq] using flow.handed

/-- A relay with its mailbox open is running. -/
theorem Stage.running (stage : r.Stage target log) : r.running = r.inbox.isOpen :=
  stage.elim (fun collects => collects.running.trans collects.isOpen.symm) (·.running)

theorem Stage.sound (stage : r.Stage target log) : r.inbox.Sound :=
  stage.elim (·.sound) (·.sound)

end Relay

end SessionBroker
