import SessionBroker.Proofs.Mailbox

/-!
What handing a request to its workers does.

A worker is seen through its log, every message ever put into its mailbox. Main statement:
`dispatch_served`, a request is delivered whole, or it is a batch of which one half is
delivered and the other one reported, or nothing is delivered and it is answered with one
error. The logs grow by exactly the parts that were delivered.
-/

namespace SessionBroker

def WorkerMessage.request? : WorkerMessage → Option Request
  | .request r => some r
  | .recompile => none

/-- The mailbox of a worker that was asked to recompile: one more message if the worker is there and
there is room. -/
def Mailbox.asked (m : Mailbox WorkerMessage) : Mailbox WorkerMessage :=
  if m.isOpen = true ∧ m.isFull = false then m.put .recompile else m

/-- The requests among some deliveries that are for a worker. -/
def partsFor (w : Worker) (ds : List Delivery) : List Request :=
  ds.filterMap fun d => if d.worker = w then some d.request else none

namespace Topology

/-- Every message ever put into the mailbox of a worker, oldest first. -/
def log (t : Topology) (w : Worker) : List WorkerMessage :=
  (t.mailbox? w).elim [] (·.accepted)

/-- Every request, or part of one, ever put into the mailbox of a worker. -/
def requests (t : Topology) (w : Worker) : List Request :=
  (t.log w).filterMap WorkerMessage.request?

/-- Replacing a mailbox replaces the log of its worker. -/
theorem log_setMailbox (t : Topology) (v w : Worker) (m : Mailbox WorkerMessage) :
    (t.setMailbox v m).log w = if w = v then m.accepted else t.log w := by
  unfold log mailbox? setMailbox
  split
  · rename_i same
    subst same
    simp
  · rename_i different
    simp [PerWorker.get_set_of_ne _ _ different]

theorem log_of_mailbox? {t : Topology} {w : Worker} {m : Mailbox WorkerMessage}
    (h : t.mailbox? w = some m) : t.log w = m.accepted := by
  simp [log, h]

/-! ### What is not a delivery -/

theorem log_close (t : Topology) (v w : Worker) : (t.close v).log w = t.log w := by
  unfold close
  split
  · rfl
  · rename_i m found
    rw [log_setMailbox]
    split
    · rename_i same
      rw [same, log_of_mailbox? found, Mailbox.close_accepted]
    · rfl

theorem log_take (t : Topology) (v w : Worker) (n : Nat) : (t.take v n).2.log w = t.log w := by
  unfold take
  split
  · rfl
  · rename_i m found
    rw [log_setMailbox]
    split
    · rename_i same
      rw [same, log_of_mailbox? found]
      rfl
    · rfl

/-- Nobody is asked to recompile who was not started. -/
theorem tryRecompile_of_missing {t : Topology} {v : Worker} (missing : t.mailbox? v = none) :
    t.tryRecompile v = t := by
  rw [tryRecompile, recompile, missing]
  rfl

/-- Asking a worker to recompile changes nothing but its mailbox. -/
theorem mailbox?_tryRecompile (t : Topology) (v w : Worker) :
    (t.tryRecompile v).mailbox? w =
      if w = v then (t.mailbox? w).map Mailbox.asked else t.mailbox? w := by
  cases found : t.mailbox? v with
  | none =>
      rw [tryRecompile_of_missing found]
      split
      · rename_i same
        rw [same, found, Option.map_none]
      · rfl
  | some m =>
      have asked : t.tryRecompile v = if m.isOpen = true ∧ m.isFull = false
          then t.setMailbox v (m.put .recompile) else t := by
        cases opened : m.isOpen <;> cases full : m.isFull <;>
          simp [tryRecompile, recompile, Mailbox.offer, found, opened, full, Except.map]
      rw [asked, apply_ite (mailbox? · w)]
      by_cases same : w = v
      · subst same
        simp only [mailbox?, setMailbox, PerWorker.get_set_self, if_true]
        rw [← mailbox?, found, Option.map_some, Mailbox.asked, apply_ite some]
      · simp only [mailbox?, setMailbox, PerWorker.get_set_of_ne _ _ same, if_neg same, ite_self]

/-- Of the analysis workers those that were started are asked, and the others have no mailbox. -/
theorem recompileAll_eq (t : Topology) :
    t.recompileAll = (t.tryRecompile .primary).tryRecompile .java := by
  have same : (t.tryRecompile .primary).mailbox? .java = t.mailbox? .java :=
    t.mailbox?_tryRecompile _ _
  rw [recompileAll, analysisWorkers]
  cases primary : t.mailbox? .primary with
  | none =>
      rw [tryRecompile_of_missing primary]
      cases java : t.mailbox? .java with
      | none => simp [primary, java, tryRecompile_of_missing java]
      | some m => simp [primary, java]
  | some m =>
      cases java : t.mailbox? .java with
      | none => simp [primary, java, tryRecompile_of_missing (same.trans java)]
      | some n => simp [primary, java]

/-- All analysis workers, and nobody else, are asked to recompile. -/
theorem mailbox?_recompileAll (t : Topology) (w : Worker) :
    t.recompileAll.mailbox? w =
      if w = .primary ∨ w = .java then (t.mailbox? w).map Mailbox.asked else t.mailbox? w := by
  rw [recompileAll_eq, mailbox?_tryRecompile, mailbox?_tryRecompile]
  cases w <;> rfl

theorem requests_recompileAll (t : Topology) (w : Worker) :
    t.recompileAll.requests w = t.requests w := by
  have asked (m : Mailbox WorkerMessage) :
      m.asked.accepted.filterMap WorkerMessage.request? =
        m.accepted.filterMap WorkerMessage.request? := by
    unfold Mailbox.asked
    split
    · rw [Mailbox.put_accepted, List.filterMap_append]
      simp [WorkerMessage.request?]
    · rfl
  unfold requests log
  rw [mailbox?_recompileAll]
  split
  · cases t.mailbox? w with
    | none => rfl
    | some m => exact asked m
  · rfl

theorem layout_tryRecompile (t : Topology) (v : Worker) :
    (t.tryRecompile v).layout = t.layout := by
  unfold tryRecompile recompile
  cases t.mailbox? v with
  | none => rfl
  | some m =>
      cases offered : m.offer .recompile with
      | error refusal => simp [offered, Except.map]
      | ok n => simp [offered, Except.map, setMailbox]

theorem layout_recompileAll (t : Topology) : t.recompileAll.layout = t.layout := by
  rw [recompileAll_eq, layout_tryRecompile, layout_tryRecompile]

theorem layout_close (t : Topology) (v : Worker) : (t.close v).layout = t.layout := by
  unfold close
  split <;> rfl

theorem layout_take (t : Topology) (v : Worker) (n : Nat) : (t.take v n).2.layout = t.layout := by
  unfold take
  split <;> rfl

/-! ### One delivery -/

/-- A delivery that succeeds is one more message for its worker. -/
theorem deliver_eq_ok {t u : Topology} {d : Delivery} (h : t.deliver d = .ok u) :
    u.layout = t.layout ∧ ∀ w, u.log w = t.log w ++ (partsFor w [d]).map .request := by
  unfold deliver at h
  split at h
  · cases h
  · rename_i m found
    split at h
    · rename_i n offered
      cases h
      obtain ⟨-, -, rfl⟩ := Mailbox.offer_eq_ok.mp offered
      refine ⟨rfl, ?_⟩
      intro w
      rw [log_setMailbox]
      split
      · rename_i same
        subst same
        simp [partsFor, log_of_mailbox? found]
      · rename_i different
        simp [partsFor, Ne.symm different]
    · cases h

/-- A delivery fails with the code of a server error. -/
theorem deliver_eq_error {t : Topology} {d : Delivery} {e : DispatchError}
    (h : t.deliver d = .error e) : e.code = ErrorCode.serverError := by
  unfold deliver at h
  split at h
  · cases h; rfl
  · split at h
    · cases h
    · rename_i refusal _
      cases h
      cases refusal <;> rfl

/-! ### Several deliveries -/

/-- Some deliveries were attempted: `sent` arrived, `missed` did not. -/
inductive Attempted : List Delivery → List Delivery → List Undelivered → Prop
  | nil : Attempted [] [] []
  | sent {d : Delivery} {ds sent : List Delivery} {missed : List Undelivered} :
      Attempted ds sent missed → Attempted (d :: ds) (d :: sent) missed
  | missed {d : Delivery} {ds sent : List Delivery} {missed : List Undelivered}
      {e : DispatchError} :
      e.code = ErrorCode.serverError → Attempted ds sent missed →
      Attempted (d :: ds) sent (⟨d.worker, e, batchFiles d.request⟩ :: missed)

/-- Of several deliveries those that succeeded are in the logs, and the others are reported. -/
theorem deliverAll_attempted (t : Topology) (ds : List Delivery) :
    ∃ sent, Attempted ds sent (t.deliverAll ds).2 ∧
      (t.deliverAll ds).1.layout = t.layout ∧
      ∀ w, (t.deliverAll ds).1.log w = t.log w ++ (partsFor w sent).map .request := by
  induction ds generalizing t with
  | nil => exact ⟨[], .nil, rfl, fun w => by simp [deliverAll, partsFor]⟩
  | cons d ds ih =>
      cases result : t.deliver d with
      | ok u =>
          obtain ⟨layout, log⟩ := deliver_eq_ok result
          obtain ⟨sent, attempted, layouts, logs⟩ := ih u
          simp only [deliverAll, result]
          refine ⟨d :: sent, .sent attempted, layouts.trans layout, ?_⟩
          intro w
          have parts : partsFor w (d :: sent) = partsFor w [d] ++ partsFor w sent := by
            simp only [partsFor, ← List.filterMap_append, List.singleton_append]
          rw [logs, log, parts, List.map_append, List.append_assoc]
      | error e =>
          obtain ⟨sent, attempted, layouts, logs⟩ := ih t
          simp only [deliverAll, result]
          exact ⟨sent, .missed (deliver_eq_error result) attempted, layouts, logs⟩

end Topology

/-! ### Planning -/

/-- A batch goes whole to the one worker for all its files, its Java files first, or it is
divided between the two workers of the mixed layout. -/
theorem AnalyzeBatchParams.deliveries_cases (params : AnalyzeBatchParams) (layout : Layout)
    (id : String) :
    (∃ w, params.deliveries layout id =
        [⟨w, params.part id (params.files.filter (·.isJava) ++ params.files.filter (!·.isJava))⟩] ∧
      (w = .java ∨ w = layout.primaryWorker) ∧ ∀ f ∈ params.files, layout.workerFor f = w) ∨
    (params.deliveries layout id =
        [⟨.java, params.part id (params.files.filter (·.isJava))⟩,
          ⟨.primary, params.part id (params.files.filter (!·.isJava))⟩] ∧
      layout = .mixed ∧ params.files.filter (·.isJava) ≠ [] ∧
      params.files.filter (!·.isJava) ≠ []) := by
  unfold AnalyzeBatchParams.deliveries
  dsimp only
  split
  · rename_i none_
    refine .inl ⟨layout.primaryWorker, ?_, .inr rfl, fun f mem => ?_⟩
    · rw [List.isEmpty_iff.mp none_, List.nil_append]
    · have other := List.filter_eq_nil_iff.mp (List.isEmpty_iff.mp none_) f mem
      rw [Layout.workerFor, if_neg other]
  · rename_i some_
    split
    · rename_i whole
      refine .inl ⟨.java, rfl, .inl rfl, fun f mem => ?_⟩
      rw [Layout.workerFor]
      split
      · rfl
      · rename_i other
        rcases Bool.or_eq_true_iff.mp whole with none_ | target
        · have java := List.filter_eq_nil_iff.mp (List.isEmpty_iff.mp none_) f mem
          simp [other] at java
        · exact beq_iff_eq.mp target
    · rename_i apart
      simp only [Bool.or_eq_true_iff, not_or, beq_iff_eq, List.isEmpty_iff] at some_ apart
      have mixed : layout = .mixed := by
        cases layout with
        | mixed => rfl
        | javaOnly => exact absurd rfl apart.2
      exact .inr ⟨by rw [mixed]; rfl, mixed, some_, apart.1⟩

/-- A part of a batch is for the worker of each of its files, and only a batch without files has
one without files. -/
theorem AnalyzeBatchParams.deliveries_mem {params : AnalyzeBatchParams} {layout : Layout}
    {id : String} {d : Delivery} (mem : d ∈ params.deliveries layout id) :
    ∃ w files, d = ⟨w, params.part id files⟩ ∧ (w = .java ∨ w = layout.primaryWorker) ∧
      (∀ f ∈ files, layout.workerFor f = w) ∧ (files = [] → params.files = []) := by
  rcases params.deliveries_cases layout id with ⟨w, whole, worker, all⟩ |
    ⟨divided, rfl, some_, others⟩
  · have perm := List.filter_append_perm (·.isJava) params.files
    rw [whole, List.mem_singleton] at mem
    refine ⟨w, _, mem, worker, fun f inside => all f (perm.mem_iff.mp inside), fun none_ => ?_⟩
    rw [none_] at perm
    exact perm.nil_eq.symm
  · simp only [divided, List.mem_cons, List.not_mem_nil, or_false] at mem
    rcases mem with rfl | rfl
    · exact ⟨_, _, rfl, .inl rfl, fun f inside => if_pos (List.mem_filter.mp inside).2,
        fun none_ => absurd none_ some_⟩
    · refine ⟨_, _, rfl, .inr rfl, fun f inside => ?_, fun none_ => absurd none_ others⟩
      have other := (List.mem_filter.mp inside).2
      exact if_neg (by simpa using other)

/-- A batch is planned as the deliveries of its parts. -/
theorem plan_batch {layout : Layout} {r : Request} {params : AnalyzeBatchParams}
    {parts : List Delivery} (data : r.data = .analyzeBatch params) :
    plan layout r = .ok (.forward parts) ↔ parts = params.deliveries layout r.id := by
  simp only [plan, data, Except.ok.injEq, Plan.forward.injEq, eq_comm]

/-- A request of the kinds that the broker hands to workers, or answers as unknown. -/
def Request.Routable (r : Request) : Prop :=
  match r.data with
  | .handshake _ | .shutdown _ => False
  | _ => True

/-- The code of the error that answers a request of which nothing was delivered. -/
def Request.refusalCode (r : Request) : Int32 :=
  match r.data with
  | .unknown _ _ => ErrorCode.methodNotFound
  | _ => ErrorCode.serverError

/-- A plan has one part, or it is a batch in two. -/
theorem plan_forward_cases {layout : Layout} {r : Request} {parts : List Delivery}
    (h : plan layout r = .ok (.forward parts)) :
    (∃ d, parts = [d]) ∨ ∃ params d e, r.data = .analyzeBatch params ∧ parts = [d, e] := by
  unfold plan at h
  cases data : r.data with
  | analyzeBatch params =>
      simp only [data, Except.ok.injEq, Plan.forward.injEq] at h
      subst h
      rcases params.deliveries_cases layout r.id with ⟨w, whole, -⟩ | ⟨divided, -⟩
      · exact .inl ⟨_, whole⟩
      · exact .inr ⟨params, _, _, rfl, divided⟩
  | shutdown params => simp [data] at h
  | handshake params => simp [data] at h
  | unknown name params => simp [data] at h
  | _ =>
      simp only [data, Except.ok.injEq, Plan.forward.injEq] at h
      exact .inl ⟨_, h.symm⟩

/-- A request that is neither handshake nor shutdown is planned for workers, unless its
method is unknown. -/
theorem Request.Routable.plan_cases {r : Request} (routable : r.Routable) (layout : Layout) :
    (∃ name, plan layout r = .error (.unknownMethod name) ∧
      r.refusalCode = ErrorCode.methodNotFound) ∨
    (∃ parts, plan layout r = .ok (.forward parts) ∧
      r.refusalCode = ErrorCode.serverError) := by
  unfold Request.Routable at routable
  unfold plan Request.refusalCode
  cases data : r.data with
  | handshake params => simp [data] at routable
  | shutdown params => simp [data] at routable
  | unknown name params => exact .inl ⟨name, rfl, rfl⟩
  | _ => exact .inr ⟨_, rfl, rfl⟩

/-! ### Notifications -/

/-- Where a list cannot be converted an element of it cannot. -/
theorem exists_of_mapM_error {ε α β : Type} {f : α → Except ε β} {as : List α} {fault : ε}
    (failed : as.mapM f = .error fault) : ∃ a ∈ as, f a = .error fault := by
  induction as with
  | nil => cases failed
  | cons a rest ih =>
      rw [List.mapM_cons] at failed
      cases first : f a with
      | error other =>
          rw [first] at failed
          cases failed
          exact ⟨a, .head _, first⟩
      | ok b =>
          cases others : rest.mapM f with
          | error other =>
              rw [first, others] at failed
              cases failed
              obtain ⟨c, mem, fails⟩ := ih others
              exact ⟨c, .tail _ mem, fails⟩
          | ok bs =>
              rw [first, others] at failed
              cases failed

/-- A file is not written because its path is not text. -/
theorem SourceFile.encode_eq_error {f : SourceFile} {fault : DataFault}
    (failed : f.encode = .error fault) : f.path.toString? = none := by
  unfold SourceFile.encode Path.encode at failed
  split at failed
  · cases failed
  · assumption

/-- If there is no notification, then a path is not text. -/
theorem exists_of_notification_error {id : String} {us : List Undelivered} {fault : DataFault}
    (failed : partialBatchNotification id us = .error fault) :
    ∃ u ∈ us, ∃ f ∈ u.files, f.path.toString? = none := by
  unfold partialBatchNotification at failed
  cases entries : us.mapM Undelivered.encode with
  | ok failed_ =>
      rw [entries] at failed
      cases failed
  | error other =>
      obtain ⟨u, mem, failed⟩ := exists_of_mapM_error entries
      refine ⟨u, mem, ?_⟩
      unfold Undelivered.encode at failed
      cases files : u.files.mapM SourceFile.encode with
      | ok values =>
          rw [files] at failed
          cases failed
      | error other =>
          obtain ⟨f, listed, failed⟩ := exists_of_mapM_error files
          exact ⟨f, listed, SourceFile.encode_eq_error failed⟩

/-- What is built is a notification. -/
theorem exists_of_notification_ok {id : String} {us : List Undelivered} {n : Event}
    (built : partialBatchNotification id us = .ok n) :
    ∃ params, n = .notification partialBatchMethod params := by
  unfold partialBatchNotification at built
  cases entries : us.mapM Undelivered.encode with
  | ok failed =>
      rw [entries] at built
      cases built
      exact ⟨_, rfl⟩
  | error fault =>
      rw [entries] at built
      cases built

/-! ### The fate of a request -/

/-- What can become of a routed request: the parts that were delivered, and the events that
the broker writes because of it. -/
inductive Served (layout : Layout) (r : Request) : List Delivery → List Event → Prop
  /-- Every part was delivered. -/
  | whole {parts : List Delivery} :
      plan layout r = .ok (.forward parts) → parts ≠ [] → Served layout r parts []
  /-- The first half of a batch was delivered, the second was not. -/
  | first {params : AnalyzeBatchParams} {sent missed : Delivery} {e : DispatchError}
      {notification : Event} :
      r.data = .analyzeBatch params → plan layout r = .ok (.forward [sent, missed]) →
      partialBatchNotification r.id [⟨missed.worker, e, Topology.batchFiles missed.request⟩] =
        .ok notification →
      Served layout r [sent] [notification]
  /-- The second half of a batch was delivered, the first was not. -/
  | second {params : AnalyzeBatchParams} {sent missed : Delivery} {e : DispatchError}
      {notification : Event} :
      r.data = .analyzeBatch params → plan layout r = .ok (.forward [missed, sent]) →
      partialBatchNotification r.id [⟨missed.worker, e, Topology.batchFiles missed.request⟩] =
        .ok notification →
      Served layout r [sent] [notification]
  /-- One half of a batch was delivered, and the other one has a path that is not text, as no
  request has that was read from a document. -/
  | unwritten {params : AnalyzeBatchParams} {sent missed : Delivery} {f : SourceFile} :
      r.data = .analyzeBatch params →
      plan layout r = .ok (.forward [sent, missed]) ∨
        plan layout r = .ok (.forward [missed, sent]) →
      f ∈ Topology.batchFiles missed.request → f.path.toString? = none →
      Served layout r [sent] []
  /-- No part was delivered. -/
  | refused {e : DispatchError} :
      e.code = r.refusalCode → Served layout r [] [.response (e.response r.id)]

namespace Topology

/-- One half of a batch was delivered, and the other one is reported if its paths are text. -/
theorem served_of_half {layout : Layout} {r : Request} {params : AnalyzeBatchParams}
    {sent missed : Delivery} {e : DispatchError} (batch : r.data = .analyzeBatch params)
    (planned : plan layout r = .ok (.forward [sent, missed]) ∨
      plan layout r = .ok (.forward [missed, sent]))
    (reported : ∀ {notification}, partialBatchNotification r.id
      [⟨missed.worker, e, batchFiles missed.request⟩] = .ok notification →
        Served layout r [sent] [notification]) :
    ∃ out, Served layout r [sent] out ∧
      Outlets.followUp r.id (.ok (.partly [⟨missed.worker, e, batchFiles missed.request⟩])) =
        out.map .emit := by
  refine ⟨_, ?_, rfl⟩
  cases written : partialBatchNotification r.id
      [⟨missed.worker, e, batchFiles missed.request⟩] with
  | ok notification => exact reported written
  | error fault =>
      obtain ⟨u, mem, f, listed, noText⟩ := exists_of_notification_error written
      obtain rfl := List.mem_singleton.mp mem
      exact .unwritten batch planned listed noText

/-- Handing a request to its workers. -/
theorem dispatch_served (t : Topology) {r : Request} (routable : r.Routable) :
    ∃ sent out, Served t.layout r sent out ∧
      Outlets.followUp r.id (t.dispatch r).2 = out.map .emit ∧
      (t.dispatch r).1.layout = t.layout ∧
      ∀ w, (t.dispatch r).1.log w = t.log w ++ (partsFor w sent).map .request := by
  rcases routable.plan_cases t.layout with ⟨name, planned, code⟩ | ⟨parts, planned, code⟩
  · refine ⟨[], [_], .refused (e := .unknownMethod name) code.symm, ?_, ?_, fun w => ?_⟩
    all_goals simp [dispatch, planned, Outlets.followUp, partsFor]
  · obtain ⟨sent, attempted, layout, log⟩ := t.deliverAll_attempted parts
    have fate : t.dispatch r = ((t.deliverAll parts).1,
        match (t.deliverAll parts).2 with
        | [] => .ok .forwarded
        | u :: us => if (u :: us).length < parts.length then .ok (.partly (u :: us))
            else .error u.error) := by
      rcases result : t.deliverAll parts with ⟨u, _ | ⟨first, others⟩⟩
      · simp [dispatch, planned, result]
      · simp only [dispatch, planned, result]
        split <;> rfl
    have topology : (t.dispatch r).1 = (t.deliverAll parts).1 := by rw [fate]
    suffices served : ∃ out, Served t.layout r sent out ∧
        Outlets.followUp r.id (t.dispatch r).2 = out.map .emit by
      obtain ⟨out, served, followUp⟩ := served
      exact ⟨sent, out, served, followUp, by rw [topology, layout],
        fun w => by rw [topology, log w]⟩
    rw [fate]
    generalize (t.deliverAll parts).2 = undelivered at attempted
    rcases plan_forward_cases planned with ⟨d, rfl⟩ | ⟨params, d, e, batch, rfl⟩
    · cases attempted with
      | sent rest =>
          cases rest
          exact ⟨[], .whole planned (by simp), rfl⟩
      | missed fault rest =>
          cases rest
          exact ⟨_, .refused (fault.trans code.symm), rfl⟩
    · cases attempted with
      | sent rest =>
          cases rest with
          | sent last =>
              cases last
              exact ⟨[], .whole planned (by simp), rfl⟩
          | missed fault last =>
              cases last
              exact served_of_half batch (.inl planned) (.first batch planned)
      | missed fault rest =>
          cases rest with
          | sent last =>
              cases last
              exact served_of_half batch (.inr planned) (.second batch planned)
          | missed _ last =>
              cases last
              exact ⟨_, .refused (fault.trans code.symm), rfl⟩

/-- Handing out a request gives workers nothing but requests. -/
theorem log_dispatch (t : Topology) (r : Request) :
    ((t.dispatch r).1.layout = t.layout) ∧
      ∃ sent, ∀ w, (t.dispatch r).1.log w = t.log w ++ (partsFor w sent).map .request := by
  have nothing (w : Worker) : t.log w = t.log w ++ (partsFor w []).map .request := by
    simp [partsFor]
  unfold dispatch
  split
  · exact ⟨rfl, [], nothing⟩
  · exact ⟨rfl, [], nothing⟩
  · rename_i parts _
    obtain ⟨sent, -, layout, log⟩ := t.deliverAll_attempted parts
    split
    · rename_i u result
      rw [result] at layout log
      exact ⟨layout, sent, log⟩
    · rename_i u first others result
      rw [result] at layout log
      split <;> exact ⟨layout, sent, log⟩

/-- Workers are never given less than before. -/
theorem requests_dispatch (t : Topology) (r : Request) (w : Worker) :
    t.requests w <+: (t.dispatch r).1.requests w ∧ (t.dispatch r).1.layout = t.layout := by
  obtain ⟨layout, sent, log⟩ := t.log_dispatch r
  refine ⟨?_, layout⟩
  simp only [requests, log w, List.filterMap_append]
  exact List.prefix_append _ _

/-- The end of the session is not handed to any worker. -/
theorem dispatch_shutdown (t : Topology) {r : Request} {params : ShutdownParams}
    (data : r.data = .shutdown params) : t.dispatch r = (t, .ok (.shutdown params)) := by
  simp [dispatch, plan, data]

end Topology

end SessionBroker
