import SessionBroker.Proofs.Deliveries
import SessionBroker.Proofs.Transition

/-!
What a broker does when one worker is hidden from it.

`Topology.hide` takes a worker away, `Outlets.hide` the gate and the client as well. What the
other workers are sent does not depend on the hidden one (`Topology.hide_dispatch`,
`Topology.hide_recompileAll`), and the acts that follow from a dispatch differ only in what
the client is told. Main statement: `Outlets.Performs.hide`, acts that are carried out in
several goes, with waiting in between, come to the same as in one go with worker, gate and
client hidden.
-/

namespace SessionBroker

namespace PerWorker

variable {α : Type}

theorem set_set (x : PerWorker α) (w : Worker) (a b : α) : (x.set w a).set w b = x.set w b := by
  cases w <;> rfl

theorem set_comm (x : PerWorker α) {v w : Worker} (different : v ≠ w) (a b : α) :
    (x.set v a).set w b = (x.set w b).set v a := by
  cases v <;> cases w <;> first | rfl | exact absurd rfl different

end PerWorker

namespace Topology

def hide (t : Topology) (w : Worker) : Topology := { t with mailboxes := t.mailboxes.set w none }

variable {t : Topology} {v w : Worker}

theorem mailbox?_hide_self (t : Topology) (w : Worker) : (t.hide w).mailbox? w = none :=
  PerWorker.get_set_self ..

theorem mailbox?_hide_of_ne (t : Topology) (different : v ≠ w) :
    (t.hide w).mailbox? v = t.mailbox? v :=
  PerWorker.get_set_of_ne _ _ different

/-- Whatever happens to the mailbox of a hidden worker is hidden. -/
theorem hide_setMailbox_self (t : Topology) (w : Worker) (m : Mailbox WorkerMessage) :
    (t.setMailbox w m).hide w = t.hide w :=
  congrArg (Topology.mk t.layout) (PerWorker.set_set ..)

theorem hide_setMailbox_of_ne (t : Topology) (m : Mailbox WorkerMessage) (different : v ≠ w) :
    (t.setMailbox v m).hide w = (t.hide w).setMailbox v m :=
  congrArg (Topology.mk t.layout) (PerWorker.set_comm _ different ..)

/-! ### What is done with mailboxes -/

/-- Asking workers to recompile comes to the same with one of them hidden. -/
theorem hide_tryRecompile (t : Topology) (v w : Worker) :
    (t.tryRecompile v).hide w = (t.hide w).tryRecompile v := by
  unfold tryRecompile recompile
  by_cases same : v = w
  · subst same
    rw [mailbox?_hide_self]
    cases t.mailbox? v with
    | none => rfl
    | some m =>
        dsimp only [Option.map_some, Option.map_none]
        cases m.offer .recompile with
        | error refusal => rfl
        | ok n => exact t.hide_setMailbox_self v n
  · rw [mailbox?_hide_of_ne t same]
    cases t.mailbox? v with
    | none => rfl
    | some m =>
        dsimp only [Option.map_some]
        cases m.offer .recompile with
        | error refusal => rfl
        | ok n => exact t.hide_setMailbox_of_ne n same

theorem hide_recompileAll (t : Topology) (w : Worker) :
    t.recompileAll.hide w = (t.hide w).recompileAll := by
  rw [recompileAll_eq, hide_tryRecompile, hide_tryRecompile, recompileAll_eq]

theorem hide_take_self (t : Topology) (w : Worker) (n : Nat) :
    (t.take w n).2.hide w = t.hide w := by
  unfold take
  cases t.mailbox? w with
  | none => rfl
  | some m => exact t.hide_setMailbox_self w _

theorem hide_take_of_ne (t : Topology) (n : Nat) (different : v ≠ w) :
    (t.take v n).2.hide w = ((t.hide w).take v n).2 := by
  unfold take
  rw [mailbox?_hide_of_ne t different]
  cases t.mailbox? v with
  | none => rfl
  | some m => exact t.hide_setMailbox_of_ne _ different

theorem hide_close_self (t : Topology) (w : Worker) : (t.close w).hide w = t.hide w := by
  unfold close
  cases t.mailbox? w with
  | none => rfl
  | some m => exact t.hide_setMailbox_self w _

theorem hide_close_of_ne (t : Topology) (different : v ≠ w) :
    (t.close v).hide w = (t.hide w).close v := by
  unfold close
  rw [mailbox?_hide_of_ne t different]
  cases t.mailbox? v with
  | none => rfl
  | some m => exact t.hide_setMailbox_of_ne _ different

/-! ### Dispatch -/

/-- A delivery to another worker does not notice the hidden one. -/
theorem hide_deliver_of_ne (t : Topology) {d : Delivery} (different : d.worker ≠ w) :
    (t.hide w).deliver d = (t.deliver d).map (·.hide w) := by
  unfold deliver
  rw [mailbox?_hide_of_ne t different]
  cases t.mailbox? d.worker with
  | none => rfl
  | some m =>
      dsimp only
      cases m.offer (.request d.request) with
      | error refusal => rfl
      | ok n => exact congrArg Except.ok (t.hide_setMailbox_of_ne n different).symm

/-- A delivery to the hidden worker changes nothing for the others. -/
theorem hide_of_deliver {u : Topology} {d : Delivery} (delivered : t.deliver d = .ok u) :
    u.hide d.worker = t.hide d.worker := by
  unfold deliver at delivered
  split at delivered
  · cases delivered
  · split at delivered
    · cases delivered
      exact t.hide_setMailbox_self ..
    · cases delivered

/-- Deliveries to the other workers come to the same with one worker hidden. -/
theorem hide_deliverAll (t : Topology) (ds : List Delivery) (w : Worker) :
    ((t.hide w).deliverAll ds).1 = (t.deliverAll ds).1.hide w := by
  induction ds generalizing t with
  | nil => rfl
  | cons d ds ih =>
      by_cases same : d.worker = w
      · subst same
        have missing : (t.hide d.worker).deliver d = .error (.workerUnavailable d.worker) := by
          rw [deliver, mailbox?_hide_self]
        cases delivered : t.deliver d with
        | error e =>
            simp only [deliverAll, missing, delivered]
            exact ih t
        | ok u =>
            simp only [deliverAll, missing, delivered]
            rw [← hide_of_deliver delivered]
            exact ih u
      · have hidden := t.hide_deliver_of_ne same
        cases delivered : t.deliver d with
        | error e =>
            rw [delivered] at hidden
            simp only [deliverAll, hidden, delivered, Except.map]
            exact ih t
        | ok u =>
            rw [delivered] at hidden
            simp only [deliverAll, hidden, delivered, Except.map]
            exact ih u

/-- What the other workers are given of a request does not depend on the hidden one. -/
theorem hide_dispatch (t : Topology) (r : Request) (w : Worker) :
    ((t.hide w).dispatch r).1 = (t.dispatch r).1.hide w := by
  have layout : (t.hide w).layout = t.layout := rfl
  cases planned : plan t.layout r with
  | error e => simp [dispatch, layout, planned]
  | ok p =>
      cases p with
      | shutdown params => simp [dispatch, layout, planned]
      | forward parts =>
          have hidden : plan (t.hide w).layout r = .ok (.forward parts) := planned
          rw [dispatch_of_forward planned, dispatch_of_forward hidden]
          exact t.hide_deliverAll parts w

end Topology

namespace Outlets

/-- The outlets without a worker, the gate and the client. -/
def hide (p : Outlets) (w : Worker) : Outlets :=
  ⟨p.topology.hide w, (Mailbox.empty Gate.mailboxSize).close, (Mailbox.empty 0).close⟩

/-- Unless a request ends the session, its fate is only told to the client. -/
theorem followUp_emits (t : Topology) {r : Request}
    (stays : ∀ params, r.data ≠ .shutdown params) {a : Act}
    (mem : a ∈ followUp r.id (t.dispatch r).2) : ∃ e, a = .emit e := by
  have planned (params : ShutdownParams) : plan t.layout r ≠ .ok (.shutdown params) := by
    unfold plan
    cases data : r.data with
    | shutdown params => exact absurd data (stays params)
    | _ => simp
  rcases fate : (t.dispatch r).2 with e | (_ | params | parts) <;> rw [fate] at mem
  · exact ⟨_, List.mem_singleton.mp mem⟩
  · cases mem
  · exfalso
    unfold Topology.dispatch at fate
    split at fate
    · cases fate
    · rename_i ends
      exact planned _ ends
    · split at fate
      · cases fate
      · split at fate <;> cases fate
  · obtain ⟨e, -, rfl⟩ := List.mem_map.mp mem
    exact ⟨e, rfl⟩

variable {p q : Outlets} {a : Act} {acts left rest : List Act} (w : Worker)

/-! ### Acts with everything hidden -/

/-- Nobody has to wait for a mailbox without a reader. -/
theorem canPerform_hide (p : Outlets) (a : Act) : (p.hide w).canPerform a = true := by
  cases a <;> rfl

/-- Without gate and client only requests that are routed do anything. -/
theorem performOne_hide (plain : ∀ r, a ≠ .route r) : (p.hide w).performOne a = ([], p.hide w) := by
  cases a with
  | route r => exact absurd rfl (plain r)
  | _ => rfl

/-- With gate and client hidden, acts other than routing come to nothing. -/
theorem perform_hide_of_plain (plain : ∀ r, a ≠ .route r)
    (unfinished : ∀ ending, a ≠ .finish ending) :
    (p.hide w).perform (a :: rest) = (p.hide w).perform rest := by
  rw [perform_cons _ _ unfinished, if_pos (canPerform_hide w p a), performOne_hide w plain]
  rfl

theorem perform_hide_emits (emits : ∀ a ∈ acts, ∃ e, a = .emit e) :
    (p.hide w).perform (acts ++ rest) = (p.hide w).perform rest := by
  induction acts with
  | nil => rfl
  | cons a acts ih =>
      obtain ⟨e, rfl⟩ := emits a (.head _)
      rw [List.cons_append, perform_hide_of_plain w (by simp) (by simp),
        ih fun b mem => emits b (.tail _ mem)]

theorem performPlain_hide_emits (emits : ∀ a ∈ acts, ∃ e, a = .emit e) :
    (p.hide w).performPlain acts = ([], p.hide w) := by
  induction acts with
  | nil => rfl
  | cons a acts ih =>
      obtain ⟨e, rfl⟩ := emits a (.head _)
      exact ih fun b mem => emits b (.tail _ mem)

/-- What follows from a request that is routed does not depend on what is hidden. -/
theorem perform_hide_route (r : Request) :
    (p.hide w).perform (.route r :: rest) =
      ((p.performOne (.route r)).2.hide w).perform ((p.performOne (.route r)).1 ++ rest) := by
  have topology := p.topology.hide_dispatch r w
  have after_ : ((p.hide w).performOne (.route r)).2 = (p.performOne (.route r)).2.hide w :=
    congrArg (Outlets.mk · (Mailbox.empty Gate.mailboxSize).close (Mailbox.empty 0).close) topology
  rw [perform_cons _ _ (by simp), if_pos (canPerform_hide w p _), after_]
  by_cases ends : ∃ params, r.data = .shutdown params
  · obtain ⟨params, data⟩ := ends
    have fate (u : Topology) : u.dispatch r = (u, .ok (.shutdown params)) :=
      u.dispatch_shutdown data
    simp only [performOne, fate]
    rfl
  · have stays : ∀ params, r.data ≠ .shutdown params := fun params h => ends ⟨params, h⟩
    have told : ((p.performOne (.route r)).2.hide w).performPlain
        ((p.hide w).performOne (.route r)).1 = ([], (p.performOne (.route r)).2.hide w) :=
      performPlain_hide_emits w fun _ => followUp_emits (p.hide w).topology stays
    rw [told]
    exact (perform_hide_emits w fun _ => followUp_emits p.topology stays).symm

/-- Acts that are carried out in several goes come to the same with everything hidden. -/
theorem Performs.hide (h : Performs acts p left q) :
    (p.hide w).perform acts = (q.hide w).perform left := by
  induction h with
  | refl => rfl
  | @step a rest left p q _ unfinished _ ih =>
      rw [← ih]
      cases a with
      | route r => exact perform_hide_route w r
      | finish ending => exact absurd rfl (unfinished ending)
      | _ => exact perform_hide_of_plain w (by simp) (by simp)

end Outlets

end SessionBroker
