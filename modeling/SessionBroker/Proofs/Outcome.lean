import Mathlib.Data.List.Basic
import SessionBroker.Proofs.Deliveries

/-!
What exactly becomes of a request.

A worker takes its part of a request if its mailbox has room, whatever becomes of the other
parts. Main statement: `dispatch_exact`, for every state of the mailboxes the result says
neither more nor less than what was delivered, and no file of a batch gets lost between what is
delivered and what is reported.
-/

namespace SessionBroker

/-- A request that is handed to workers: its method is known, and the session does not answer
it itself. -/
def Request.ForWorkers (r : Request) : Prop :=
  match r.data with
  | .handshake _ | .shutdown _ | .unknown _ _ => False
  | _ => True

def SourceFile.ofText? : Json → Option SourceFile
  | .str path => some ⟨.ofString path⟩
  | _ => none

/-- The files that a part lists in a notification. -/
def Json.listedFiles (part : Json) : List SourceFile :=
  match part.member? "files" with
  | some (.arr files) => files.filterMap SourceFile.ofText?
  | _ => []

/-- The files that a notification lists as not delivered, part by part. -/
def Event.failedFiles : Event → List SourceFile
  | .notification _ params =>
    match params.member? "failed" with
    | some (.arr parts) => parts.flatMap Json.listedFiles
    | _ => []
  | _ => []

/-! ### Notifications -/

section Notifications

variable {id : String} {us : List Undelivered} {n : Event}

/-- Where a list is converted, so is each of its elements. -/
theorem forall₂_of_mapM {ε α β : Type} {f : α → Except ε β} {as : List α} {bs : List β}
    (done : as.mapM f = .ok bs) : List.Forall₂ (fun a b => f a = .ok b) as bs := by
  induction as generalizing bs with
  | nil =>
      cases done
      exact .nil
  | cons a rest ih =>
      rw [List.mapM_cons] at done
      cases first : f a with
      | error fault =>
          rw [first] at done
          cases done
      | ok b =>
          cases others : rest.mapM f with
          | error fault =>
              rw [first, others] at done
              cases done
          | ok cs =>
              rw [first, others] at done
              cases done
              exact .cons first (ih others)

/-- A file is written as the text of its path, and only if its path is text. -/
theorem SourceFile.encode_eq_ok {f : SourceFile} {v : Json} :
    f.encode = .ok v ↔ ∃ s, f.path = .ofString s ∧ v = .str s := by
  unfold SourceFile.encode Path.encode
  constructor
  · intro written
    split at written
    · rename_i s text
      cases written
      exact ⟨s, Path.ofString_of_toString? text, rfl⟩
    · cases written
  · rintro ⟨s, text, rfl⟩
    rw [text, Path.toString?_ofString]

/-- Written files are read off again. -/
theorem ofText?_of_encode {fs : List SourceFile} {values : List Json}
    (written : fs.mapM SourceFile.encode = .ok values) :
    values.filterMap SourceFile.ofText? = fs ∧ ∀ f ∈ fs, ∃ s, f.path = .ofString s := by
  have each := forall₂_of_mapM written
  clear written
  induction each with
  | nil => exact ⟨rfl, nofun⟩
  | @cons f v fs values first _ ih =>
      obtain ⟨s, text, rfl⟩ := SourceFile.encode_eq_ok.mp first
      obtain ⟨same, texts⟩ := ih
      have read : SourceFile.ofText? (.str s) = some f :=
        congrArg (fun p => some (SourceFile.mk p)) text.symm
      exact ⟨by rw [List.filterMap_cons, read, same], List.forall_mem_cons.mpr ⟨⟨s, text⟩, texts⟩⟩

/-- An undelivered part lists its files. -/
theorem listedFiles_of_encode {u : Undelivered} {v : Json} (written : u.encode = .ok v) :
    v.listedFiles = u.files ∧ ∀ f ∈ u.files, ∃ s, f.path = .ofString s := by
  unfold Undelivered.encode at written
  cases files : u.files.mapM SourceFile.encode with
  | error fault =>
      rw [files] at written
      cases written
  | ok values =>
      rw [files] at written
      cases written
      exact ofText?_of_encode files

/-- A notification lists the files of the parts that were not delivered. -/
theorem failedFiles_of_notification (built : partialBatchNotification id us = .ok n) :
    n.failedFiles = us.flatMap (·.files) ∧
      ∀ f ∈ us.flatMap (·.files), ∃ s, f.path = .ofString s := by
  unfold partialBatchNotification at built
  cases parts : us.mapM Undelivered.encode with
  | error fault =>
      rw [parts] at built
      cases built
  | ok values =>
      rw [parts] at built
      cases built
      change values.flatMap Json.listedFiles = _ ∧ _
      have each := forall₂_of_mapM parts
      clear parts
      induction each with
      | nil => exact ⟨rfl, nofun⟩
      | cons first _ ih =>
          obtain ⟨listed, texts⟩ := listedFiles_of_encode first
          obtain ⟨same, others⟩ := ih
          rw [List.flatMap_cons, List.flatMap_cons, listed, same]
          exact ⟨rfl, List.forall_mem_append.mpr ⟨texts, others⟩⟩

/-- There is a notification exactly if all paths in it are texts. -/
theorem notification_isOk_iff :
    (∃ n, partialBatchNotification id us = .ok n) ↔
      ∀ f ∈ us.flatMap (·.files), ∃ s, f.path = .ofString s := by
  constructor
  · rintro ⟨n, built⟩
    exact (failedFiles_of_notification built).2
  · intro texts
    cases built : partialBatchNotification id us with
    | ok n => exact ⟨n, rfl⟩
    | error fault =>
        obtain ⟨u, mem, f, listed, noText⟩ := exists_of_notification_error built
        obtain ⟨s, text⟩ := texts f (List.mem_flatMap.mpr ⟨u, mem, listed⟩)
        rw [text, Path.toString?_ofString] at noText
        cases noText

end Notifications

namespace Topology

variable {t : Topology} {r : Request} {parts : List Delivery}

def sent (t : Topology) (parts : List Delivery) : List Delivery :=
  parts.filter fun d => (t.refusal? d.worker).isNone

/-- The parts whose workers refuse them, each with its worker, the reason and its files. -/
def missed (t : Topology) (parts : List Delivery) : List Undelivered :=
  parts.filterMap fun d =>
    (t.refusal? d.worker).map fun error => ⟨d.worker, error, batchFiles d.request⟩

/-! ### The mailboxes -/

/-- Worker by worker, several deliveries to different workers do what each would do alone. -/
theorem deliverAll_exact (t : Topology)
    (apart : parts.Pairwise fun d e => d.worker ≠ e.worker) :
    (t.deliverAll parts).1.layout = t.layout ∧
      (t.deliverAll parts).2 = t.missed parts ∧
      (∀ d ∈ parts, t.refusal? d.worker = none → ∃ m, t.mailbox? d.worker = some m ∧
        (t.deliverAll parts).1.mailbox? d.worker = some (m.put (.request d.request))) ∧
      ∀ w, (∀ d ∈ parts, d.worker = w → t.refusal? w ≠ none) →
        (t.deliverAll parts).1.mailbox? w = t.mailbox? w := by
  induction apart generalizing t with
  | nil => exact ⟨rfl, rfl, nofun, fun _ _ => rfl⟩
  | @cons d rest others _ ih =>
      cases refuses : t.refusal? d.worker with
      | some error =>
          obtain ⟨layout, missed, given, kept⟩ := ih t
          simp only [deliverAll, deliver_of_refusal refuses]
          refine ⟨layout, ?_, fun e mem takes => ?_, fun w mine => ?_⟩
          · simp only [Topology.missed, List.filterMap_cons, refuses, Option.map_some]
            rw [missed, Topology.missed]
          · rcases List.mem_cons.mp mem with rfl | mem
            · rw [takes] at refuses
              cases refuses
            · exact given e mem takes
          · exact kept w fun e mem => mine e (.tail _ mem)
      | none =>
          obtain ⟨m, found, delivered⟩ := deliver_eq_of_taking refuses
          generalize moved : t.setMailbox d.worker (m.put (.request d.request)) = u at delivered
          have layout : u.layout = t.layout := moved ▸ rfl
          have filled : u.mailbox? d.worker = some (m.put (.request d.request)) := by
            rw [← moved, mailbox?, setMailbox, PerWorker.get_set_self]
          have same : ∀ w, w ≠ d.worker → u.mailbox? w = t.mailbox? w := fun w other => by
            rw [← moved, mailbox?_setMailbox_of_ne t _ other]
          have sameRefusal : ∀ w, w ≠ d.worker → u.refusal? w = t.refusal? w := fun w other => by
            rw [refusal?, refusal?, same w other]
          obtain ⟨layouts, missed, given, kept⟩ := ih u
          simp only [deliverAll, delivered]
          refine ⟨layouts.trans layout, ?_, fun e mem takes => ?_, fun w mine => ?_⟩
          · rw [missed, Topology.missed, Topology.missed, List.filterMap_cons, refuses]
            simp only [Option.map_none]
            exact List.filterMap_congr fun e mem => by rw [sameRefusal _ (others e mem).symm]
          · rcases List.mem_cons.mp mem with rfl | mem
            · refine ⟨m, found, ?_⟩
              rw [kept _ fun e mem back => absurd back.symm (others e mem), filled]
            · have other := (others e mem).symm
              rw [← same _ other]
              exact given e mem (by rw [sameRefusal _ other, takes])
          · have other : w ≠ d.worker := by
              rintro rfl
              exact mine d (.head _) rfl refuses
            rw [kept w fun e mem back => by
              rw [sameRefusal w other]
              exact mine e (.tail _ mem) back, same w other]

/-! ### The result -/

theorem missed_eq_nil_iff : t.missed parts = [] ↔ ∀ d ∈ parts, t.refusal? d.worker = none := by
  simp only [missed, List.filterMap_eq_nil_iff, Option.map_eq_none_iff]

/-- Not all is missed exactly if some worker takes its part. -/
theorem length_missed_lt_iff :
    (t.missed parts).length < parts.length ↔ ∃ d ∈ parts, t.refusal? d.worker = none := by
  simp only [missed, List.length_filterMap_lt_length_iff_exists, Option.map_eq_none_iff,
    exists_prop]

/-- The first part that is missed when all are is the first one. -/
theorem missed_cons_of_all {d : Delivery} {rest : List Delivery}
    (all : ∀ e ∈ d :: rest, t.refusal? e.worker ≠ none) :
    ∃ error, t.refusal? d.worker = some error ∧
      t.missed (d :: rest) = ⟨d.worker, error, batchFiles d.request⟩ :: t.missed rest := by
  obtain ⟨error, refuses⟩ := Option.ne_none_iff_exists'.mp (all d (.head _))
  refine ⟨error, refuses, ?_⟩
  simp only [missed, List.filterMap_cons, refuses, Option.map_some]

/-- The result of a dispatch is told by the parts that were missed. -/
theorem result_of_forward (planned : plan t.layout r = .ok (.forward parts)) :
    (t.dispatch r).2 =
      match t.missed parts with
      | [] => .ok .forwarded
      | first :: others =>
        if (first :: others).length < parts.length then .ok (.partly (first :: others))
        else .error first.error := by
  obtain ⟨-, missed, -⟩ := t.deliverAll_exact (plan_workers_ne planned)
  rcases result : t.deliverAll parts with ⟨u, _ | ⟨first, others⟩⟩ <;>
    rw [result] at missed <;> simp only [dispatch, planned, result, ← missed]
  split <;> rfl

/-- A request is forwarded whole, or delivered in part, or not at all. -/
theorem result_cases (planned : plan t.layout r = .ok (.forward parts)) :
    ((∀ d ∈ parts, t.refusal? d.worker = none) ∧ (t.dispatch r).2 = .ok .forwarded) ∨
    ((∃ d ∈ parts, t.refusal? d.worker = none) ∧ (∃ d ∈ parts, t.refusal? d.worker ≠ none) ∧
      (t.dispatch r).2 = .ok (.partly (t.missed parts))) ∨
    ((∀ d ∈ parts, t.refusal? d.worker ≠ none) ∧
      ∃ e, (parts.head?.bind fun d => t.refusal? d.worker) = some e ∧
        (t.dispatch r).2 = .error e) := by
  rw [result_of_forward planned]
  cases missed : t.missed parts with
  | nil => exact .inl ⟨missed_eq_nil_iff.mp missed, rfl⟩
  | cons first others =>
      have refused : ∃ d ∈ parts, t.refusal? d.worker ≠ none := by
        by_contra all
        push Not at all
        rw [missed_eq_nil_iff.mpr all] at missed
        cases missed
      dsimp only
      split
      · rename_i short
        rw [← missed] at short
        exact .inr (.inl ⟨length_missed_lt_iff.mp short, refused, rfl⟩)
      · rename_i whole
        have all : ∀ d ∈ parts, t.refusal? d.worker ≠ none := fun d mem takes =>
          whole (missed ▸ length_missed_lt_iff.mpr ⟨d, mem, takes⟩)
        cases parts with
        | nil => cases missed
        | cons d rest =>
            obtain ⟨e, refuses, same⟩ := missed_cons_of_all all
            rw [missed] at same
            cases same
            exact .inr (.inr ⟨all, e, refuses, rfl⟩)

/-! ### The files of a batch -/

/-- The files delivered and the files missed are those of the parts. -/
theorem files_sent_missed (t : Topology) (parts : List Delivery) :
    ((t.sent parts).flatMap (fun d => batchFiles d.request) ++
      (t.missed parts).flatMap (·.files)).Perm (parts.flatMap fun d => batchFiles d.request) := by
  induction parts with
  | nil => exact .nil
  | cons d rest ih =>
      cases refuses : t.refusal? d.worker with
      | none =>
          have kept : t.sent (d :: rest) = d :: t.sent rest := by simp [sent, refuses]
          have same : t.missed (d :: rest) = t.missed rest := by simp [missed, refuses]
          rw [kept, same, List.flatMap_cons, List.flatMap_cons, List.append_assoc]
          exact ih.append_left _
      | some error =>
          have kept : t.sent (d :: rest) = t.sent rest := by simp [sent, refuses]
          have more : t.missed (d :: rest) =
              ⟨d.worker, error, batchFiles d.request⟩ :: t.missed rest := by
            simp [missed, refuses]
          rw [kept, more, List.flatMap_cons, List.flatMap_cons]
          exact List.perm_append_comm_assoc .. |>.trans (ih.append_left _)

/-- The parts of a batch have its files, each once. -/
theorem files_of_plan {layout : Layout} {params : AnalyzeBatchParams}
    (data : r.data = .analyzeBatch params) (planned : plan layout r = .ok (.forward parts)) :
    (parts.flatMap fun d => batchFiles d.request).Perm params.files := by
  rw [(plan_batch data).mp planned, files_deliveries]
  exact List.filter_append_perm _ _

/-! ### Main statement -/

/-- What becomes of a request that is planned for some workers. -/
structure Exact (t : Topology) (r : Request) (parts : List Delivery) : Prop where
  /-- Something is planned, for each worker at most one part. -/
  planned : parts ≠ [] ∧ parts.Pairwise fun d e => d.worker ≠ e.worker
  /-- A worker with room gets its part at the end of its mailbox. -/
  given : ∀ d ∈ parts, t.refusal? d.worker = none → ∃ m, t.mailbox? d.worker = some m ∧
    (t.dispatch r).1.mailbox? d.worker = some (m.put (.request d.request))
  /-- Nothing happens to a worker without a part, or to one that refuses its part. -/
  kept : ∀ w, (∀ d ∈ parts, d.worker = w → t.refusal? w ≠ none) →
    (t.dispatch r).1.mailbox? w = t.mailbox? w
  /-- The request is forwarded exactly when every part was delivered. -/
  forwarded : (t.dispatch r).2 = .ok .forwarded ↔ ∀ d ∈ parts, t.refusal? d.worker = none
  /-- There is an error exactly when no part was delivered, namely that of the first worker. -/
  error : ∀ e, (t.dispatch r).2 = .error e ↔
    (∀ d ∈ parts, t.refusal? d.worker ≠ none) ∧
      (parts.head?.bind fun d => t.refusal? d.worker) = some e
  /-- In case of an error nothing has changed. -/
  unchanged : (∃ e, (t.dispatch r).2 = .error e) → (t.dispatch r).1 = t
  /-- Else the parts that were not delivered are reported, exactly these. -/
  partly : ∀ us, (t.dispatch r).2 = .ok (.partly us) ↔
    (∃ d ∈ parts, t.refusal? d.worker = none) ∧ (∃ d ∈ parts, t.refusal? d.worker ≠ none) ∧
      us = t.missed parts
  /-- The files of a batch are delivered or reported, each once. The same holds of those that the
  notification lists, which there is exactly if the paths in it are texts. -/
  files : ∀ params, r.data = .analyzeBatch params →
    ((t.dispatch r).2 = .ok .forwarded →
      ((t.sent parts).flatMap fun d => batchFiles d.request).Perm params.files) ∧
    ∀ us, (t.dispatch r).2 = .ok (.partly us) →
      ((t.sent parts).flatMap (fun d => batchFiles d.request) ++ us.flatMap (·.files)).Perm
        params.files ∧
      (∀ n, partialBatchNotification r.id us = .ok n →
        ((t.sent parts).flatMap (fun d => batchFiles d.request) ++ n.failedFiles).Perm
          params.files) ∧
      ((∃ n, partialBatchNotification r.id us = .ok n) ↔
        ∀ f ∈ us.flatMap (·.files), ∃ s, f.path = .ofString s)

/-- Topologies of one layout are the same if their mailboxes are. -/
theorem eq_of_mailboxes {u : Topology} (layout : u.layout = t.layout)
    (same : ∀ w, u.mailbox? w = t.mailbox? w) : u = t := by
  obtain ⟨_, mailboxes⟩ := u
  obtain rfl : _ = t.layout := layout
  rw [PerWorker.ext_get (x := mailboxes) (y := t.mailboxes) same]

/-- What is planned for some workers meets with exactly this. -/
theorem exact_of_plan (planned : plan t.layout r = .ok (.forward parts)) : t.Exact r parts := by
  have apart := plan_workers_ne planned
  obtain ⟨d, mem⟩ : ∃ d, d ∈ parts := by
    rcases plan_forward_cases planned with ⟨d, rfl⟩ | ⟨-, d, e, -, rfl⟩ <;> exact ⟨d, .head _⟩
  obtain ⟨layout, -, given, kept⟩ := t.deliverAll_exact apart
  rw [← dispatch_of_forward planned] at layout given kept
  have forwarded : (t.dispatch r).2 = .ok .forwarded ↔
      ∀ d ∈ parts, t.refusal? d.worker = none := by
    rcases result_cases planned with ⟨all, result⟩ | ⟨-, ⟨e, mem, refuses⟩, result⟩ |
      ⟨all, e, -, result⟩
    · exact iff_of_true result all
    · exact iff_of_false (by simp [result]) fun taken => refuses (taken e mem)
    · exact iff_of_false (by simp [result]) fun taken => all d mem (taken d mem)
  have error (e : DispatchError) : (t.dispatch r).2 = .error e ↔
      (∀ d ∈ parts, t.refusal? d.worker ≠ none) ∧
        (parts.head?.bind fun d => t.refusal? d.worker) = some e := by
    rcases result_cases planned with ⟨all, result⟩ | ⟨⟨d, mem, takes⟩, -, result⟩ |
      ⟨all, e', first, result⟩
    · exact iff_of_false (by simp [result]) fun refused => refused.1 d mem (all d mem)
    · exact iff_of_false (by simp [result]) fun refused => refused.1 d mem takes
    · rw [result, first, Except.error.injEq, Option.some.injEq]
      exact ⟨fun same => ⟨all, same⟩, And.right⟩
  have partly (us : List Undelivered) : (t.dispatch r).2 = .ok (.partly us) ↔
      (∃ d ∈ parts, t.refusal? d.worker = none) ∧ (∃ d ∈ parts, t.refusal? d.worker ≠ none) ∧
        us = t.missed parts := by
    rcases result_cases planned with ⟨all, result⟩ | ⟨taken, refused, result⟩ |
      ⟨all, e, -, result⟩
    · exact iff_of_false (by simp [result]) fun ⟨_, ⟨e, mem, refuses⟩, _⟩ => refuses (all e mem)
    · rw [result, Except.ok.injEq, Routed.partly.injEq]
      exact ⟨fun same => ⟨taken, refused, same.symm⟩, fun parts => parts.2.2.symm⟩
    · exact iff_of_false (by simp [result]) fun ⟨⟨e, mem, takes⟩, _⟩ => all e mem takes
  have unchanged : (∃ e, (t.dispatch r).2 = .error e) → (t.dispatch r).1 = t := by
    rintro ⟨e, failed⟩
    have all := ((error e).mp failed).1
    exact eq_of_mailboxes layout fun w => kept w fun d mem back => back ▸ all d mem
  refine ⟨⟨List.ne_nil_of_mem mem, apart⟩, given, kept, forwarded, error, unchanged, partly,
    fun params data => ⟨fun whole => ?_, fun us some_ => ?_⟩⟩
  · have files := (t.files_sent_missed parts).trans (files_of_plan data planned)
    rwa [missed_eq_nil_iff.mpr (forwarded.mp whole), List.flatMap_nil, List.append_nil] at files
  · obtain ⟨-, -, rfl⟩ := (partly us).mp some_
    have files := (t.files_sent_missed parts).trans (files_of_plan data planned)
    refine ⟨files, fun n built => ?_, notification_isOk_iff⟩
    rw [(failedFiles_of_notification built).1]
    exact files

/-- **A request is delivered as planned, and the result says exactly what was not.** A worker
gets its part if it has room and nothing else changes; the request is forwarded if every part
was delivered and fails if none was; otherwise the result lists the missing parts. Requests that
are not for workers change nothing. -/
theorem dispatch_exact (t : Topology) (r : Request) :
    (r.ForWorkers → ∃ parts, plan t.layout r = .ok (.forward parts) ∧ t.Exact r parts) ∧
      (¬ r.ForWorkers → (t.dispatch r).1 = t) := by
  unfold Request.ForWorkers
  cases data : r.data with
  | handshake params => exact ⟨False.elim, fun _ => by simp [dispatch, plan, data]⟩
  | shutdown params => exact ⟨False.elim, fun _ => by simp [dispatch, plan, data]⟩
  | unknown name params => exact ⟨False.elim, fun _ => by simp [dispatch, plan, data]⟩
  | _ =>
      refine ⟨fun _ => ?_, fun not => absurd trivial not⟩
      have planned : ∃ parts, plan t.layout r = .ok (.forward parts) := by
        simp only [plan, data]
        exact ⟨_, rfl⟩
      obtain ⟨parts, planned⟩ := planned
      exact ⟨parts, planned, exact_of_plan planned⟩

/-- A batch of which the Java worker takes its half, while there is no primary worker. -/
theorem dispatch_exact_of_half_batch :
    let t : Topology := ⟨.mixed, (PerWorker.replicate none).set .java (some (.empty 1))⟩
    let java : SourceFile := ⟨.ofString "A.java"⟩
    let kotlin : SourceFile := ⟨.ofString "b.kt"⟩
    let r : Request := ⟨"1", .analyzeBatch ⟨.hover, [kotlin, java]⟩⟩
    r.ForWorkers ∧ (∃ parts, plan t.layout r = .ok (.forward parts) ∧ t.Exact r parts) ∧
      (t.dispatch r).2 =
        .ok (.partly [⟨.primary, .workerUnavailable .primary, [kotlin]⟩]) ∧
      ∃ n, partialBatchNotification "1" [⟨.primary, .workerUnavailable .primary, [kotlin]⟩] =
        .ok n ∧ n.failedFiles = [kotlin] :=
  ⟨trivial, (dispatch_exact _ _).1 trivial, by decide +kernel, _, rfl, by decide +kernel⟩

end Topology

end SessionBroker
