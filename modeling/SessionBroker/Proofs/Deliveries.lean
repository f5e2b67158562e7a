import SessionBroker.Proofs.Dispatch

/-!
Which worker gets which part of a request.

`partOf` is what a plan has for a worker, `Topology.refusal?` why the worker does not take it.
Main statements: `requests_dispatch_eq`, handing a request to its workers gives each worker
its part unless the worker refuses it, and `dispatch_ne_notRoutable`, nothing but a handshake
is ever said not to be routable.
-/

namespace SessionBroker

/-- What the plan of a request has for a worker. -/
def partOf (layout : Layout) (w : Worker) (r : Request) : List Request :=
  match plan layout r with
  | .ok (.forward parts) => partsFor w parts
  | _ => []

theorem partsFor_cons (w : Worker) (d : Delivery) (ds : List Delivery) :
    partsFor w (d :: ds) = (if d.worker = w then [d.request] else []) ++ partsFor w ds := by
  unfold partsFor
  by_cases same : d.worker = w <;> simp [same]

theorem partsFor_eq_nil {w : Worker} {ds : List Delivery} (others : ∀ d ∈ ds, d.worker ≠ w) :
    partsFor w ds = [] := by
  rw [partsFor, List.filterMap_eq_nil_iff]
  intro d mem
  rw [if_neg (others d mem)]

/-- No worker is to get two parts of a request. -/
theorem plan_workers_ne {layout : Layout} {r : Request} {parts : List Delivery}
    (planned : plan layout r = .ok (.forward parts)) :
    parts.Pairwise fun d e => d.worker ≠ e.worker := by
  have single (d : Delivery) : [d].Pairwise fun d e => d.worker ≠ e.worker :=
    List.pairwise_singleton ..
  unfold plan at planned
  cases data : r.data with
  | analyzeBatch params =>
      simp only [data, Except.ok.injEq, Plan.forward.injEq] at planned
      subst planned
      rcases params.deliveries_cases layout r.id with ⟨w, whole, -⟩ | ⟨divided, -⟩
      · rw [whole]
        exact single _
      · rw [divided]
        simp
  | handshake params => simp [data] at planned
  | shutdown params => simp [data] at planned
  | unknown name params => simp [data] at planned
  | _ =>
      simp only [data, Except.ok.injEq, Plan.forward.injEq] at planned
      subst planned
      exact single _

/-- Every part of a request has its identifier. -/
theorem id_of_plan {layout : Layout} {r : Request} {parts : List Delivery} {d : Delivery}
    (planned : plan layout r = .ok (.forward parts)) (mem : d ∈ parts) :
    d.request.id = r.id := by
  unfold plan at planned
  cases data : r.data with
  | analyzeBatch params =>
      simp only [data, Except.ok.injEq, Plan.forward.injEq] at planned
      subst planned
      obtain ⟨w, files, rfl, -⟩ := AnalyzeBatchParams.deliveries_mem mem
      rfl
  | handshake params => simp [data] at planned
  | shutdown params => simp [data] at planned
  | unknown name params => simp [data] at planned
  | _ =>
      simp only [data, Except.ok.injEq, Plan.forward.injEq] at planned
      subst planned
      rw [List.mem_singleton.mp mem]

/-- The files of a batch, in the order in which they go out. -/
theorem files_deliveries (params : AnalyzeBatchParams) (layout : Layout) (id : String) :
    ((params.deliveries layout id).flatMap fun d => Topology.batchFiles d.request) =
      params.files.filter (·.isJava) ++ params.files.filter (!·.isJava) := by
  rcases params.deliveries_cases layout id with ⟨w, whole, -⟩ | ⟨divided, -⟩
  · rw [whole]
    simp [Topology.batchFiles, AnalyzeBatchParams.part]
  · rw [divided]
    simp [Topology.batchFiles, AnalyzeBatchParams.part]

/-- A worker has at most one part of a request. -/
theorem length_partOf_le (layout : Layout) (w : Worker) (r : Request) :
    (partOf layout w r).length ≤ 1 := by
  unfold partOf
  split
  · rename_i parts planned
    have apart := plan_workers_ne planned
    clear planned
    induction apart with
    | nil => exact Nat.zero_le _
    | @cons d ds others _ ih =>
        rw [partsFor_cons]
        by_cases same : d.worker = w
        · have none_ : partsFor w ds = [] :=
            partsFor_eq_nil fun e mem back => others e mem (same.trans back.symm)
          simp [same, none_]
        · simpa [same] using ih
  · exact Nat.zero_le _

theorem id_of_mem_partOf {layout : Layout} {w : Worker} {r q : Request}
    (mem : q ∈ partOf layout w r) : q.id = r.id := by
  unfold partOf at mem
  split at mem
  · rename_i parts planned
    obtain ⟨d, some_, same⟩ := List.mem_filterMap.mp mem
    split at same
    · cases same
      exact id_of_plan planned some_
    · cases same
  · cases mem

/-- Values for all workers are the same if they are the same for each. -/
theorem PerWorker.ext_get {α : Type} {x y : PerWorker α} (same : ∀ w, x.get w = y.get w) :
    x = y := by
  obtain ⟨primary, java, debugger, indexer, docs⟩ := x
  obtain ⟨primary', java', debugger', indexer', docs'⟩ := y
  have h1 : primary = primary' := same .primary
  have h2 : java = java' := same .java
  have h3 : debugger = debugger' := same .debugger
  have h4 : indexer = indexer' := same .indexer
  have h5 : docs = docs' := same .docs
  rw [h1, h2, h3, h4, h5]

namespace Topology

/-! ### Refusals -/

/-- Why a worker takes no request, if it takes none: it was not started, has stopped, or has a
full mailbox. -/
def refusal? (t : Topology) (w : Worker) : Option DispatchError :=
  match t.mailbox? w with
  | none => some (.workerUnavailable w)
  | some m =>
    if m.isOpen = false then some (.workerGone w)
    else if m.isFull then some (.workerBusy w) else none

/-- A worker refuses because it was not started, has gone or is busy. -/
theorem refusal?_cases {t : Topology} {w : Worker} {e : DispatchError}
    (refuses : t.refusal? w = some e) :
    e = .workerUnavailable w ∨ e = .workerGone w ∨ e = .workerBusy w := by
  unfold refusal? at refuses
  split at refuses
  · cases refuses
    exact .inl rfl
  · split at refuses
    · cases refuses
      exact .inr (.inl rfl)
    · split at refuses
      · cases refuses
        exact .inr (.inr rfl)
      · cases refuses

theorem mailbox?_setMailbox_of_ne (t : Topology) {v w : Worker} (m : Mailbox WorkerMessage)
    (different : w ≠ v) : (t.setMailbox v m).mailbox? w = t.mailbox? w :=
  PerWorker.get_set_of_ne _ _ different

/-- A worker that refuses is not delivered to. -/
theorem deliver_of_refusal {t : Topology} {d : Delivery} {e : DispatchError}
    (refuses : t.refusal? d.worker = some e) : t.deliver d = .error e := by
  unfold refusal? at refuses
  split at refuses
  · rename_i missing
    cases refuses
    simp only [deliver, missing]
  · rename_i m found
    simp only [deliver, found]
    split at refuses
    · rename_i isClosed
      cases refuses
      simp [Mailbox.offer, isClosed, refusalError]
    · rename_i isOpen
      split at refuses
      · rename_i isFull
        cases refuses
        simp [Mailbox.offer, isOpen, isFull, refusalError]
      · cases refuses

/-- A worker that does not refuse is delivered to: it finds the request at the end of its
mailbox. -/
theorem deliver_eq_of_taking {t : Topology} {d : Delivery} (takes : t.refusal? d.worker = none) :
    ∃ m, t.mailbox? d.worker = some m ∧
      t.deliver d = .ok (t.setMailbox d.worker (m.put (.request d.request))) := by
  unfold refusal? at takes
  split at takes
  · cases takes
  · rename_i m found
    split at takes
    · cases takes
    · rename_i isOpen
      split at takes
      · cases takes
      · rename_i room
        have offered : m.offer (.request d.request) = .ok (m.put (.request d.request)) :=
          Mailbox.offer_eq_ok.mpr ⟨by simpa using isOpen, by simpa using room, rfl⟩
        exact ⟨m, found, by simp [deliver, found, offered]⟩

/-- A worker that does not refuse is delivered to; nothing changes for the others. -/
theorem deliver_of_taking {t : Topology} {d : Delivery} (takes : t.refusal? d.worker = none) :
    ∃ u, t.deliver d = .ok u ∧
      (∀ w, u.requests w = t.requests w ++ partsFor w [d]) ∧
      ∀ w, w ≠ d.worker → u.refusal? w = t.refusal? w := by
  obtain ⟨m, -, delivered⟩ := deliver_eq_of_taking takes
  refine ⟨_, delivered, ?_, ?_⟩
  · intro w
    rw [requests, (deliver_eq_ok delivered).2 w, List.filterMap_append, List.filterMap_map]
    simp [requests, Function.comp_def, WorkerMessage.request?]
  · intro w different
    simp only [refusal?, mailbox?_setMailbox_of_ne t _ different]

/-- What a worker is given of several deliveries to different workers. -/
theorem requests_deliverAll (t : Topology) {ds : List Delivery}
    (apart : ds.Pairwise fun d e => d.worker ≠ e.worker) (w : Worker) :
    (t.deliverAll ds).1.requests w =
      t.requests w ++ if (t.refusal? w).isNone then partsFor w ds else [] := by
  induction apart generalizing t with
  | nil => simp [deliverAll, partsFor]
  | @cons d ds others _ ih =>
      rw [partsFor_cons]
      cases refuses : t.refusal? d.worker with
      | some e =>
          simp only [deliverAll, deliver_of_refusal refuses, ih]
          by_cases mine : d.worker = w
          · subst mine
            simp [refuses]
          · simp [mine]
      | none =>
          obtain ⟨u, delivered, given, same⟩ := deliver_of_taking refuses
          simp only [deliverAll, delivered, ih, given, partsFor_cons]
          by_cases mine : d.worker = w
          · subst mine
            have none_ : partsFor d.worker ds = [] :=
              partsFor_eq_nil fun e mem back => others e mem back.symm
            have nobody : partsFor d.worker [] = [] := rfl
            simp [refuses, none_, nobody]
          · simp [mine, same w (Ne.symm mine), partsFor]

/-- A dispatch does to the mailboxes what its deliveries do. -/
theorem dispatch_of_forward {t : Topology} {r : Request} {parts : List Delivery}
    (planned : plan t.layout r = .ok (.forward parts)) :
    (t.dispatch r).1 = (t.deliverAll parts).1 := by
  rcases result : t.deliverAll parts with ⟨u, _ | ⟨first, others⟩⟩
  · simp [dispatch, planned, result]
  · simp only [dispatch, planned, result]
    split <;> rfl

/-- Handing a request to its workers gives each of them its part, unless it refuses. -/
theorem requests_dispatch_eq (t : Topology) (r : Request) (w : Worker) :
    (t.dispatch r).1.requests w =
      t.requests w ++ if (t.refusal? w).isNone then partOf t.layout w r else [] := by
  unfold partOf
  cases planned : plan t.layout r with
  | error e => simp [dispatch, planned]
  | ok p =>
      cases p with
      | shutdown params => simp [dispatch, planned]
      | forward parts =>
          rw [dispatch_of_forward planned]
          exact t.requests_deliverAll (plan_workers_ne planned) w

/-! ### Errors -/

/-- A part is not delivered because its worker was not started, has gone or is busy. -/
theorem error_of_mem_deliverAll (t : Topology) {ds : List Delivery} {u : Undelivered}
    (mem : u ∈ (t.deliverAll ds).2) :
    u.error = .workerUnavailable u.worker ∨ u.error = .workerGone u.worker ∨
      u.error = .workerBusy u.worker := by
  induction ds generalizing t with
  | nil => cases mem
  | cons d ds ih =>
      cases refuses : t.refusal? d.worker with
      | some e =>
          simp only [deliverAll, deliver_of_refusal refuses] at mem
          rcases List.mem_cons.mp mem with rfl | mem
          · exact refusal?_cases refuses
          · exact ih t mem
      | none =>
          obtain ⟨v, delivered, -⟩ := deliver_of_taking refuses
          simp only [deliverAll, delivered] at mem
          exact ih v mem

/-- Nothing but a handshake is said not to be routable. -/
theorem dispatch_ne_notRoutable (t : Topology) {r : Request}
    (other : ∀ params, r.data ≠ .handshake params) (method : Method) :
    (t.dispatch r).2 ≠ .error (.notRoutable method) := by
  intro refused
  unfold dispatch at refused
  split at refused
  · rename_i e planned
    cases refused
    unfold plan at planned
    cases data : r.data with
    | handshake params => exact other params data
    | _ => simp [data] at planned
  · cases refused
  · rename_i parts planned
    split at refused
    · cases refused
    · rename_i u first others result
      split at refused
      · cases refused
      · have mem : first ∈ (t.deliverAll parts).2 := by rw [result]; exact .head _
        have error := t.error_of_mem_deliverAll mem
        simp only [Except.error.injEq] at refused
        simp [refused] at error

end Topology

end SessionBroker
