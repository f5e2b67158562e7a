import SessionBroker.Proofs.Deliveries

/-!
How a batch is divided among workers.

Every part of a batch goes to the worker that each of its files would go to if it came alone.
Main statements: `batch_divided`, the parts have the files of the batch, each as often as the
batch, and the Java files as well as the others in their order; `undivided_batch_eq_iff`, a batch
for a single worker goes out as it came in exactly if no Java file stands behind another file.
-/

namespace SessionBroker

variable {layout : Layout} {params : AnalyzeBatchParams} {id : String} {parts : List Delivery}

/-! ### The parts of a batch -/

/-- The parts into which a batch is divided. -/
structure AnalyzeBatchParams.Divided (params : AnalyzeBatchParams) (layout : Layout)
    (id : String) (parts : List Delivery) : Prop where
  /-- There are one or two parts. -/
  oneOrTwo : parts.length = 1 ∨ parts.length = 2
  /-- No worker gets two of them. -/
  apart : parts.Pairwise fun d e => d.worker ≠ e.worker
  /-- Each part is a batch, under the same identifier and of the same kind. -/
  batch : ∀ d ∈ parts, d.request =
    ⟨id, .analyzeBatch ⟨params.kind, Topology.batchFiles d.request⟩⟩
  /-- Under the mixed layout the Java worker gets Java files and the primary worker the others. -/
  mixed : layout = .mixed → ∀ d ∈ parts,
    (d.worker = .java ∧ ∀ f ∈ Topology.batchFiles d.request, f.language = .java) ∨
    (d.worker = .primary ∧ ∀ f ∈ Topology.batchFiles d.request, f.language ≠ .java)
  /-- Without a primary worker everything goes to the Java worker. -/
  javaOnly : layout = .javaOnly → ∀ d ∈ parts, d.worker = .java
  /-- Only a batch without files has a part without files. -/
  empty : ∀ d ∈ parts, Topology.batchFiles d.request = [] → params.files = []
  /-- The parts together have each file as often as the batch. -/
  conserved : (parts.flatMap fun d => Topology.batchFiles d.request).Perm params.files
  /-- The Java files stay in their order, and so do the others. -/
  ordered : ∀ java, (parts.flatMap fun d => Topology.batchFiles d.request).filter
    (·.isJava == java) = params.files.filter (·.isJava == java)
  /-- Alone, a file goes to the worker that gets it with the batch. -/
  alone : ∀ d ∈ parts, ∀ f ∈ Topology.batchFiles d.request, ∀ id kind position,
    plan layout ⟨id, .analyze ⟨kind, f, position⟩⟩ =
      .ok (.forward [⟨d.worker, ⟨id, .analyze ⟨kind, f, position⟩⟩⟩])

/-- Whether a file is Java decides its worker under the mixed layout. -/
theorem workerFor_mixed_eq_java {f : SourceFile} :
    Layout.mixed.workerFor f = .java ↔ f.language = .java := by
  unfold Layout.workerFor SourceFile.isJava
  by_cases java : f.language = .java <;> simp [java, Layout.primaryWorker]

/-- Of a batch with its Java files first, each class of files is that of the batch, in order. -/
theorem filter_isJava_of_parts (files : List SourceFile) (java : Bool) :
    (files.filter (·.isJava) ++ files.filter (!·.isJava)).filter (·.isJava == java) =
      files.filter (·.isJava == java) := by
  rw [List.filter_append, List.filter_filter, List.filter_filter]
  cases java with
  | true => simp
  | false => simp

/-- **A batch is divided without losing, adding or reordering anything.** The plan has one or
two parts for different workers; each file goes to the worker that it would go to alone, and the
files of one class stay in their order. -/
theorem batch_divided (layout : Layout) (id : String) (params : AnalyzeBatchParams) :
    ∃ parts, plan layout ⟨id, .analyzeBatch params⟩ = .ok (.forward parts) ∧
      params.Divided layout id parts := by
  have planned : plan layout ⟨id, .analyzeBatch params⟩ =
      .ok (.forward (params.deliveries layout id)) := rfl
  have files := files_deliveries params layout id
  refine ⟨_, planned, ?_, plan_workers_ne planned, ?_, ?_, ?_, ?_, ?_, ?_, ?_⟩
  · rcases params.deliveries_cases layout id with ⟨w, whole, -⟩ | ⟨divided, -⟩
    · exact .inl (by rw [whole]; rfl)
    · exact .inr (by rw [divided]; rfl)
  · intro d mem
    obtain ⟨w, inside, rfl, -⟩ := AnalyzeBatchParams.deliveries_mem mem
    rfl
  · rintro rfl d mem
    obtain ⟨w, inside, rfl, rfl | rfl, belongs, -⟩ := AnalyzeBatchParams.deliveries_mem mem
    · exact .inl ⟨rfl, fun f known => workerFor_mixed_eq_java.mp (belongs f known)⟩
    · refine .inr ⟨rfl, fun f known same => ?_⟩
      have java := workerFor_mixed_eq_java.mpr same
      rw [belongs f known] at java
      cases java
  · rintro rfl d mem
    obtain ⟨w, inside, rfl, rfl | rfl, -⟩ := AnalyzeBatchParams.deliveries_mem mem <;> rfl
  · intro d mem none_
    obtain ⟨w, inside, rfl, -, -, onlyEmpty⟩ := AnalyzeBatchParams.deliveries_mem mem
    exact onlyEmpty none_
  · rw [files]
    exact List.filter_append_perm _ _
  · intro java
    rw [files, filter_isJava_of_parts]
  · intro d mem f known id kind position
    obtain ⟨w, inside, rfl, -, belongs, -⟩ := AnalyzeBatchParams.deliveries_mem mem
    have same : layout.workerFor f = w := belongs f known
    rw [← same]
    rfl

/-! ### Batches that are not divided -/

/-- Bringing the Java files forward changes nothing exactly if they are in front. -/
theorem java_first_eq_self_iff (files : List SourceFile) :
    files.filter (·.isJava) ++ files.filter (!·.isJava) = files ↔
      files.Pairwise fun f g => g.isJava → f.isJava := by
  induction files with
  | nil => simp
  | cons f rest ih =>
      rw [List.pairwise_cons]
      cases java : f.isJava with
      | true => simp [java, ih]
      | false =>
          have last : (∀ g ∈ rest, g.isJava = true → False) ↔ rest.filter (·.isJava) = [] := by
            simp [List.filter_eq_nil_iff]
          simp only [List.filter_cons, java, Bool.false_eq_true, if_false, Bool.not_false, if_true,
            last]
          cases some_ : rest.filter (·.isJava) with
          | nil => simp [← ih, some_]
          | cons g others =>
              have isJava : g.isJava = true := (List.mem_filter.mp (some_ ▸ List.mem_cons_self)).2
              simp only [List.cons_append, List.cons.injEq, reduceCtorEq, false_and, iff_false]
              rintro ⟨rfl, -⟩
              rw [java] at isJava
              cases isJava

/-- The files of a batch are all Java, or none of them is. -/
def AnalyzeBatchParams.OneSided (params : AnalyzeBatchParams) : Prop :=
  (∀ f ∈ params.files, f.isJava) ∨ ∀ f ∈ params.files, ¬ f.isJava

/-- A batch of one class is not reordered when its Java files are put first. -/
theorem AnalyzeBatchParams.OneSided.java_first (oneSided : params.OneSided) :
    params.files.filter (·.isJava) ++ params.files.filter (!·.isJava) = params.files := by
  rcases oneSided with all | none_
  · have others : params.files.filter (!·.isJava) = [] :=
      List.filter_eq_nil_iff.mpr fun f mem => by simp [all f mem]
    rw [List.filter_eq_self.mpr all, others, List.append_nil]
  · have others : params.files.filter (!·.isJava) = params.files :=
      List.filter_eq_self.mpr fun f mem => by simp [none_ f mem]
    rw [List.filter_eq_nil_iff.mpr none_, others, List.nil_append]

/-- A single part has all files, the Java files in front. -/
theorem eq_of_undivided {d : Delivery} (single : params.deliveries layout id = [d]) :
    d.request = ⟨id, .analyzeBatch { params with
      files := params.files.filter (·.isJava) ++ params.files.filter (!·.isJava) }⟩ := by
  rcases params.deliveries_cases layout id with ⟨w, whole, -⟩ | ⟨divided, -⟩
  · rw [single, List.singleton_inj] at whole
    rw [whole]
    rfl
  · rw [single] at divided
    cases divided

/-- The mixed layout leaves only batches whole that are for one of its workers. -/
theorem oneSided_of_undivided {d : Delivery} (single : params.deliveries layout id = [d]) :
    layout = .javaOnly ∨ params.OneSided := by
  rcases params.deliveries_cases layout id with ⟨w, -, -, all⟩ | ⟨divided, -⟩
  · cases layout with
    | javaOnly => exact .inl rfl
    | mixed =>
        right
        by_cases java : w = .java
        · exact .inl fun f mem => beq_iff_eq.mpr (workerFor_mixed_eq_java.mp ((all f mem).trans java))
        · refine .inr fun f mem isJava => java ?_
          rw [← all f mem]
          exact if_pos isJava
  · rw [single] at divided
    cases divided

/-- **A batch for a single worker goes out as it came in exactly if no Java file stands behind
another file.** So it does if its files are all for the same worker of the mixed layout. A session
without a primary worker brings the Java files of the others forward. -/
theorem undivided_batch_eq_iff {r : Request} {d : Delivery} (data : r.data = .analyzeBatch params)
    (single : plan layout r = .ok (.forward [d])) :
    (layout = .javaOnly ∨ params.OneSided) ∧ (params.OneSided → d.request = r) ∧
      (d.request = r ↔ params.files.Pairwise fun f g => g.isJava → f.isJava) ∧
      d.request = ⟨r.id, .analyzeBatch { params with
        files := params.files.filter (·.isJava) ++ params.files.filter (!·.isJava) }⟩ := by
  have single := ((plan_batch data).mp single).symm
  have sent := eq_of_undivided single
  have same : d.request = r ↔
      params.files.filter (·.isJava) ++ params.files.filter (!·.isJava) = params.files := by
    rw [sent]
    obtain ⟨id, _⟩ := r
    subst data
    obtain ⟨kind, files⟩ := params
    simp only [Request.mk.injEq, RequestData.analyzeBatch.injEq, AnalyzeBatchParams.mk.injEq,
      true_and]
  exact ⟨oneSided_of_undivided single, fun oneSided => same.mpr oneSided.java_first,
    same.trans (java_first_eq_self_iff _), sent⟩

/-- Two Java files around another one, in a session without a primary worker. -/
theorem undivided_batch_eq_iff_of_two_and_one :
    let java : SourceFile := ⟨.ofString "A.java"⟩
    let kotlin : SourceFile := ⟨.ofString "b.kt"⟩
    let r : Request := ⟨"b", .analyzeBatch ⟨.hover, [java, kotlin, java]⟩⟩
    let d : Delivery := ⟨.java, ⟨"b", .analyzeBatch ⟨.hover, [java, java, kotlin]⟩⟩⟩
    r.data = .analyzeBatch ⟨.hover, [java, kotlin, java]⟩ ∧
      plan .javaOnly r = .ok (.forward [d]) ∧
      (d.request = r ↔ [java, kotlin, java].Pairwise fun f g => g.isJava → f.isJava) ∧
      d.request ≠ r := by
  intro java kotlin r d
  have single : plan .javaOnly r = .ok (.forward [d]) := (plan_batch rfl).mpr (by decide +kernel)
  exact ⟨rfl, single, (undivided_batch_eq_iff rfl single).2.2.1, by decide +kernel⟩

/-- A Java file behind another one is brought forward, although the batch is not divided. -/
theorem undivided_batch_reordered :
    let r : Request := ⟨"b", .analyzeBatch ⟨.diagnostics,
      [⟨.ofString "b.scala"⟩, ⟨.ofString "a.java"⟩]⟩⟩
    ∃ d, plan .javaOnly r = .ok (.forward [d]) ∧ d.request ≠ r := by
  refine ⟨⟨.java, ⟨"b", .analyzeBatch ⟨.diagnostics,
    [⟨.ofString "a.java"⟩, ⟨.ofString "b.scala"⟩]⟩⟩⟩, (plan_batch rfl).mpr ?_, ?_⟩ <;>
    decide +kernel

end SessionBroker
