import SessionBroker.Outbound.Relay
import SessionBroker.Proofs.GateFlow

/-!
What a relay passes on.

The events that a relay has read say what it has passed on: `Relay.passed` is that function,
with readiness merged on the way. `Relay.Flow` ties it to the state of a relay and to the
messages of the gate, and every step of the relay keeps it (`Relay.Flow.step`).
-/

namespace SessionBroker

/-- Whether an event tells that analysis workers are ready. -/
def Event.isReadiness : Event → Bool
  | .ready w => w.isAnalysis
  | .analysisReady _ => true
  | _ => false

namespace Relay

/-! ### Merging along a sequence -/

/-- What becomes of an event, and the registry after it. Without a registry nothing is
merged. -/
def pass : Option Readiness → Outgoing → Option Outgoing × Option Readiness
  | none, o => (some o, none)
  | some registry, o =>
    ((registry.merge o.event).1.map fun event => { o with event },
      some (registry.merge o.event).2)

def passed (registry : Option Readiness) : List Outgoing → List Outgoing
  | [] => []
  | o :: os => (pass registry o).1.toList ++ passed (pass registry o).2 os

def registryAfter (registry : Option Readiness) (os : List Outgoing) : Option Readiness :=
  os.foldl (fun registry o => (pass registry o).2) registry

/-- What becomes of events is decided one after the other. -/
theorem passed_concat (registry : Option Readiness) (os : List Outgoing) (o : Outgoing) :
    passed registry (os ++ [o]) =
      passed registry os ++ (pass (registryAfter registry os) o).1.toList := by
  induction os generalizing registry with
  | nil => simp [passed, registryAfter]
  | cons p os ih =>
      simp only [List.cons_append, passed, ih, List.append_assoc]
      rfl

/-- What has become of events does not change with those that follow. -/
theorem passed_prefix (registry : Option Readiness) {os ps : List Outgoing} (h : os <+: ps) :
    passed registry os <+: passed registry ps := by
  obtain ⟨rest, rfl⟩ := h
  induction os generalizing registry with
  | nil => exact List.nil_prefix
  | cons o os ih => exact (List.prefix_append_right_inj _).mpr (ih _)

theorem registryAfter_concat (registry : Option Readiness) (os : List Outgoing) (o : Outgoing) :
    registryAfter registry (os ++ [o]) = (pass (registryAfter registry os) o).2 := by
  simp only [registryAfter, List.foldl_append, List.foldl_cons, List.foldl_nil]

/-- Without a registry everything is passed on as it is. -/
theorem passed_none (os : List Outgoing) : passed none os = os := by
  induction os with
  | nil => rfl
  | cons o os ih => exact congrArg (o :: ·) ih

/-- An event that is passed on comes from where it came from. -/
theorem origin_pass {registry : Option Readiness} {o p : Outgoing}
    (h : (pass registry o).1 = some p) : p.origin = o.origin := by
  cases registry with
  | none =>
      cases h
      rfl
  | some registry =>
      obtain ⟨event, -, rfl⟩ := Option.map_eq_some_iff.mp h
      rfl

/-- Merging changes nothing about where events come from. -/
theorem origin_of_mem_passed {registry : Option Readiness} {os : List Outgoing} {p : Outgoing}
    (mem : p ∈ passed registry os) : ∃ o ∈ os, p.origin = o.origin := by
  induction os generalizing registry with
  | nil => cases mem
  | cons o os ih =>
      rcases List.mem_append.mp mem with first | later
      · exact ⟨o, .head _, origin_pass (Option.mem_toList.mp first)⟩
      · obtain ⟨q, old, same⟩ := ih later
        exact ⟨q, .tail _ old, same⟩

variable {r r' : Relay} {gate gate' : Mailbox (GateMessage Outgoing)} {orphaned : Bool}

theorem receive_eq (r : Relay) (o : Outgoing) :
    r.receive o =
      { r with leaving := (pass r.registry o).1, registry := (pass r.registry o).2 } := by
  obtain ⟨inbox, registry, leaving, started, running⟩ := r
  cases registry <;> rfl

/-! ### Steps -/

/-- What a step of a relay can be. -/
inductive Steps (r : Relay) (gate : Mailbox (GateMessage Outgoing)) (orphaned : Bool) :
    Relay → Mailbox (GateMessage Outgoing) → Prop
  /-- An event is handed to the gate. -/
  | hand {o : Outgoing} {gate' : Mailbox (GateMessage Outgoing)} :
      r.leaving = some o → gate.offer (.event o) = .ok gate' →
      Steps r gate orphaned { r with leaving := none } gate'
  /-- The gate is gone. -/
  | lose {o : Outgoing} :
      r.leaving = some o → gate.isOpen = false → Steps r gate orphaned r.stop gate
  | read {o : Outgoing} {inbox : Mailbox Outgoing} :
      r.leaving = none → r.inbox.next? = some (o, inbox) →
      Steps r gate orphaned (receive { r with inbox } o) gate
  /-- Nobody can emit any more. -/
  | leave :
      r.leaving = none → r.inbox.next? = none → orphaned = true →
      Steps r gate orphaned r.stop gate

/-- A step of a relay is one of those. -/
theorem steps_of_step (stepped : r.step gate orphaned = some (r', gate')) :
    r.running = true ∧ Steps r gate orphaned r' gate' := by
  unfold step at stepped
  split at stepped
  · cases stepped
  · rename_i active
    have running : r.running = true := by
      cases running : r.running with
      | true => rfl
      | false => simp [running] at active
    refine ⟨running, ?_⟩
    split at stepped
    · rename_i o leaving
      split at stepped
      · rename_i n offered
        cases stepped
        exact .hand leaving offered
      · rename_i gone
        cases stepped
        exact .lose leaving (Mailbox.offer_eq_gone.mp gone)
      · cases stepped
    · rename_i idle
      split at stepped
      · rename_i o inbox taken
        cases stepped
        exact .read idle taken
      · rename_i empty
        split at stepped
        · rename_i alone
          cases stepped
          exact .leave idle empty alone
        · cases stepped

/-- No step adds to what a relay is sent. -/
theorem accepted_step (stepped : r.step gate orphaned = some (r', gate')) :
    r'.inbox.accepted = r.inbox.accepted := by
  obtain ⟨-, steps⟩ := steps_of_step stepped
  cases steps with
  | read _ taken =>
      rw [receive_eq]
      exact Mailbox.accepted_next taken
  | _ => rfl

/-! ### The state of a relay -/

/-- All of a relay's state follows from what it has read since it had a registry `first`: it
has passed the result on to the gate, which finds it among `log`, and no other event that is
the relay's `own`. -/
structure Flow (own : Outgoing → Bool) (first : Option Readiness)
    (log : List (GateMessage Outgoing)) (r : Relay) : Prop where
  sound : r.inbox.Sound
  started : r.started = true
  running : r.running = r.inbox.isOpen
  mine : ∀ o ∈ r.inbox.accepted, own o = true
  registry : r.registry = registryAfter first r.inbox.read
  handed : (Gate.events log).filter own ++ r.leaving.toList = passed first r.inbox.read

variable {own : Outgoing → Bool} {first : Option Readiness} {log : List (GateMessage Outgoing)}

theorem flow_new (own : Outgoing → Bool) (first : Option Readiness) :
    (new.start first).Flow own first [] :=
  ⟨Nat.le_refl 0, rfl, rfl, fun _ mem => (List.not_mem_nil mem).elim, rfl, rfl⟩

/-- Whether an event is a relay's own is said by where it comes from. -/
def ByOrigin (own : Outgoing → Bool) : Prop :=
  ∀ o p : Outgoing, o.origin = p.origin → own o = own p

/-- What is on its way out is the relay's own. -/
theorem Flow.own_leaving (flow : r.Flow own first log) (byOrigin : ByOrigin own)
    {o : Outgoing} (leaving : r.leaving = some o) : own o = true := by
  have mem : o ∈ passed first r.inbox.read := by
    rw [← flow.handed, leaving]
    simp
  obtain ⟨p, read, same⟩ := origin_of_mem_passed mem
  rw [byOrigin o p same]
  exact flow.mine p ((Mailbox.read_prefix _).subset read)

/-- An event comes in. -/
theorem Flow.offer (flow : r.Flow own first log) {o : Outgoing} {inbox : Mailbox Outgoing}
    (mine : own o = true) (offered : r.inbox.offer o = .ok inbox) :
    Flow own first log { r with inbox } := by
  obtain ⟨-, -, rfl⟩ := Mailbox.offer_eq_ok.mp offered
  have read : (r.inbox.put o).read = r.inbox.read := flow.sound.read_put
  refine ⟨flow.sound.put, flow.started, flow.running, ?_, by rw [read]; exact flow.registry,
    by rw [read]; exact flow.handed⟩
  intro p mem
  rcases List.mem_append.mp mem with old | new
  · exact flow.mine p old
  · rw [List.mem_singleton.mp new]
    exact mine

/-- The gate gets messages that are not the relay's own. -/
theorem Flow.others (flow : r.Flow own first log) {more : List (GateMessage Outgoing)}
    (others : ∀ o ∈ Gate.events more, own o = false) : r.Flow own first (log ++ more) := by
  refine ⟨flow.sound, flow.started, flow.running, flow.mine, flow.registry, ?_⟩
  have none_ : (Gate.events more).filter own = [] := by
    rw [List.filter_eq_nil_iff]
    intro o mem
    simp [others o mem]
  rw [Gate.events_append, List.filter_append, none_, List.append_nil]
  exact flow.handed

/-- A relay keeps its flow at every step; the gate gets nothing but what the relay has
passed on. -/
theorem Flow.step (flow : r.Flow own first gate.accepted) (byOrigin : ByOrigin own)
    (stepped : r.step gate orphaned = some (r', gate')) :
    r'.Flow own first gate'.accepted := by
  obtain ⟨-, steps⟩ := steps_of_step stepped
  cases steps with
  | @hand o _ leaving offered =>
      obtain ⟨-, -, rfl⟩ := Mailbox.offer_eq_ok.mp offered
      refine ⟨flow.sound, flow.started, flow.running, flow.mine, flow.registry, ?_⟩
      have mine := flow.own_leaving byOrigin leaving
      rw [← flow.handed, leaving, Mailbox.put_accepted, Gate.events_append, List.filter_append]
      simp [Gate.events, GateMessage.event?, mine]
  | lose => exact ⟨flow.sound, flow.started, rfl, flow.mine, flow.registry, flow.handed⟩
  | leave => exact ⟨flow.sound, flow.started, rfl, flow.mine, flow.registry, flow.handed⟩
  | @read o inbox idle taken =>
      have read := Mailbox.read_next taken
      have before : (Gate.events gate.accepted).filter own =
          passed first r.inbox.read := by
        simpa [idle] using flow.handed
      rw [receive_eq]
      refine ⟨Mailbox.sound_next taken, flow.started, ?_, ?_, ?_, ?_⟩
      · rw [Mailbox.isOpen_next taken]
        exact flow.running
      · rw [Mailbox.accepted_next taken]
        exact flow.mine
      · rw [read, registryAfter_concat, ← flow.registry]
      · rw [read, passed_concat, ← flow.registry, before]

/-- What a step sends to the gate is the relay's own. -/
theorem Flow.step_log (flow : r.Flow own first gate.accepted) (byOrigin : ByOrigin own)
    (stepped : r.step gate orphaned = some (r', gate')) :
    gate'.isOpen = gate.isOpen ∧ ∃ more, gate'.accepted = gate.accepted ++ more ∧
      ∀ o ∈ Gate.events more, own o = true := by
  obtain ⟨-, steps⟩ := steps_of_step stepped
  cases steps with
  | @hand o _ leaving offered =>
      obtain ⟨-, -, rfl⟩ := Mailbox.offer_eq_ok.mp offered
      refine ⟨rfl, [.event o], rfl, fun p mem => ?_⟩
      rw [List.mem_singleton.mp mem]
      exact flow.own_leaving byOrigin leaving
  | _ => exact ⟨rfl, [], (List.append_nil _).symm, fun o mem => (List.not_mem_nil mem).elim⟩

end Relay

end SessionBroker
