import SessionBroker.Proofs.NormalForm
import SessionBroker.Proofs.RecordFields
import SessionBroker.Wire.Event
import SessionBroker.Wire.Request

/-!
The form of requests, replies and events on the wire.

What a document decodes to is `Canonical`: its paths are texts and its free parts are values.
What is canonical can be written, and reads back as itself. An event whose free parts are values
reads back as what is `received`, which is the event but for a null result of a reply.
-/

namespace SessionBroker

/-! ### What a reader gives -/

section Decoded

variable {α : Type} {F : Format Json} {v : Json} {decode : Decoder Json α} {P : α → Prop}

/-- The path is the path of a text. -/
def Path.Written (p : Path) : Prop := ∃ s, p = Path.ofString s

/-- The document is a value: its objects are in order. -/
def Json.IsValue (v : Json) : Prop := v.normal = v

/-- A free value that was read is in normal form. -/
theorem Json.isValue_of_free {value : Json} (decoded : Json.free v = .ok value) :
    value.IsValue := by
  cases decoded
  exact normal_normal v

/-- A path that was read from a document is a text. -/
theorem Path.written_of_decode {p : Path} (decoded : Path.decode F v = .ok p) : p.Written := by
  unfold Path.decode at decoded
  split at decoded
  · rename_i s _
    exact ⟨s, (Except.ok.inj decoded).symm⟩
  · cases decoded

theorem SourceFile.written_of_decode {f : SourceFile} (decoded : SourceFile.decode F v = .ok f) :
    f.path.Written := by
  obtain ⟨p, path, rfl⟩ := ok_of_map decoded
  exact Path.written_of_decode path

theorem Format.forall_of_optional (values : ∀ v a, decode v = .ok a → P a) {found : Option α}
    (decoded : F.optional decode v = .ok found) : ∀ a ∈ found, P a := by
  unfold Format.optional at decoded
  split at decoded
  · cases decoded
    nofun
  · obtain ⟨a, read, rfl⟩ := ok_of_map decoded
    exact fun b mem => Option.mem_some.mp mem ▸ values v a read

/-- What holds of every value that is read holds of all values of a list. -/
theorem forall_of_mapM (values : ∀ v a, decode v = .ok a → P a) {items : List Json}
    {found : List α} (decoded : items.mapM decode = .ok found) : ∀ a ∈ found, P a := by
  induction items generalizing found with
  | nil =>
      cases decoded
      nofun
  | cons v rest ih =>
      rw [List.mapM_cons] at decoded
      obtain ⟨a, first, decoded⟩ := ok_of_bind decoded
      obtain ⟨as, others, decoded⟩ := ok_of_bind decoded
      cases decoded
      exact List.forall_mem_cons.mpr ⟨values v a first, ih others⟩

theorem Format.forall_of_list (values : ∀ v a, decode v = .ok a → P a) {found : List α}
    (decoded : F.list decode v = .ok found) : ∀ a ∈ found, P a := by
  unfold Format.list at decoded
  split at decoded
  · exact forall_of_mapM values decoded
  · cases decoded

end Decoded

/-! ### Numbers and names read back -/

/-- A whole number within the bounds is read as itself. -/
theorem integer_of_range {F : Format Json} (seen : F.view = Json.view) {low high : Int}
    {expected : Shape} {n : WireInt} (range : low ≤ n.val ∧ n.val < high) :
    F.integer low high expected (.num (.int n)) = .ok n.val := by
  simp only [Format.integer, seen, Json.view, if_pos range]

theorem unsigned32_ofUInt32 {F : Format Json} (seen : F.view = Json.view) (n : UInt32) :
    F.unsigned32 (.ofUInt32 n) = .ok n := by
  have range : (0 : Int) ≤ n.toNat ∧ (n.toNat : Int) < Limit.two32 := by
    have := n.toNat_lt
    unfold Limit.two32
    constructor <;> omega
  rw [Format.unsigned32, Json.ofUInt32, integer_of_range seen range]
  exact congrArg Except.ok (UInt32.ofNat_toNat)

theorem range_ofUInt64 (n : UInt64) :
    (0 : Int) ≤ (WireInt.ofUInt64 n).val ∧ (WireInt.ofUInt64 n).val < Limit.two64 := by
  have := n.toNat_lt
  change (0 : Int) ≤ n.toNat ∧ (n.toNat : Int) < Limit.two64
  unfold Limit.two64
  constructor <;> omega

theorem size_ofUInt64 {F : Format Json} (seen : F.view = Json.view) (n : UInt64) :
    F.size (.ofUInt64 n) = .ok n := by
  rw [Format.size, Json.ofUInt64, integer_of_range seen (range_ofUInt64 n)]
  exact congrArg Except.ok (UInt64.ofNat_toNat)

theorem unsigned64_ofUInt64 {F : Format Json} (seen : F.view = Json.view) (n : UInt64) :
    F.unsigned64 (.ofUInt64 n) = .ok n := by
  rw [Format.unsigned64, Json.ofUInt64, integer_of_range seen (range_ofUInt64 n)]
  exact congrArg Except.ok (UInt64.ofNat_toNat)

theorem signed32_ofInt32 {F : Format Json} (seen : F.view = Json.view) (n : Int32) :
    F.signed32 (.ofInt32 n) = .ok n := by
  rw [Format.signed32, Json.ofInt32, integer_of_range seen ⟨n.le_toInt, n.toInt_lt⟩]
  exact congrArg Except.ok (Int32.ofInt_toInt n)

theorem reloadStrategy_name (strategy : ReloadStrategy) :
    Json.valueFormat.variant ReloadStrategy.variants (.str strategy.name) = .ok strategy := by
  cases strategy <;> rfl

theorem analysisKind_name (kind : AnalysisKind) :
    Json.valueFormat.variant AnalysisKind.variants (.str kind.name) = .ok kind := by
  cases kind <;> rfl

theorem worker_name (w : Worker) : Worker.decode Json.bufferedFormat (.str w.name) = .ok w := by
  cases w <;> rfl

def EventKind.name : EventKind → String
  | .response => "response"
  | .notification => "notification"
  | .ready => "ready"
  | .analysisReady => "analysis_ready"
  | .indexReady => "index_ready"

theorem EventKind.variantNamed_name (kind : EventKind) :
    Format.variantNamed EventKind.variants kind.name = .ok kind := by
  cases kind <;> rfl

theorem method_name (m : Method) : Method.ofName? m.name = some m := by
  cases m <;> rfl

/-! ### Paths and lists read back -/

section ReadBack

variable {F : Format Json}

def Path.spelled (p : Path) : Json := .str (p.toString?.getD "")

/-- A path of a text is written as that text. -/
theorem Path.Written.encode {p : Path} (written : p.Written) : p.encode = .ok p.spelled := by
  obtain ⟨s, rfl⟩ := written
  simp only [Path.encode, Path.spelled, toString?_ofString, Option.getD_some]

theorem Path.Written.decode {p : Path} (written : p.Written) (seen : F.view = Json.view) :
    Path.decode F p.spelled = .ok p := by
  obtain ⟨s, rfl⟩ := written
  simp only [Path.decode, Path.spelled, toString?_ofString, Option.getD_some, seen, Json.view]

theorem SourceFile.decode_spelled {f : SourceFile} (written : f.path.Written)
    (seen : F.view = Json.view) : SourceFile.decode F f.path.spelled = .ok f := by
  rw [SourceFile.decode, written.decode seen]
  rfl

/-- Where each written element is read back, so is the list. -/
theorem mapM_map_ok {ε α β γ : Type} {f : β → Except ε γ} {write : α → β} {value : α → γ}
    {as : List α} (each : ∀ a ∈ as, f (write a) = .ok (value a)) :
    (as.map write).mapM f = .ok (as.map value) := by
  induction as with
  | nil => rfl
  | cons a rest ih =>
      obtain ⟨first, others⟩ := List.forall_mem_cons.mp each
      rw [List.map_cons, List.mapM_cons, first, ih others]
      rfl

theorem Format.list_map {α : Type} {decode : Decoder Json α} {write : α → Json} {as : List α}
    (seen : F.view = Json.view) (each : ∀ a ∈ as, decode (write a) = .ok a) :
    F.list decode (.arr (as.map write)) = .ok as := by
  rw [Format.list, seen]
  exact (mapM_map_ok each).trans (congrArg Except.ok (List.map_id as))

end ReadBack

/-! ### Members that are written -/

section Members

open Json

variable {γ : Type} {members : List (String × Json)}

theorem Json.Sorted.nodup_keys (sorted : Sorted members) : (members.map (·.1)).Nodup :=
  List.pairwise_map.mpr (sorted.imp fun below => below.ne)

/-- Members of different keys are found in order as they were written. -/
theorem lookup_sortMembers (keys : (members.map (·.1)).Nodup) (name : String) :
    Fields.lookup (sortMembers members) name = Fields.lookup members name := by
  rw [← Fields.lookup_reverse keys, Fields.lookup, find?_sortMembers]
  rfl

@[simp] theorem lookup_optionalMember (key : String) (write : γ → Json) (o : Option γ)
    (name : String) :
    Fields.lookup (optionalMember key write o) name = if key = name then o.map write else none := by
  cases o <;> simp [optionalMember, Fields.lookup]

/-- An optional member is found under its key, if it is there. -/
@[simp] theorem lookup_optionalMember_append (key : String) (write : γ → Json) (o : Option γ)
    (name : String) : Fields.lookup (optionalMember key write o ++ members) name =
      if key = name then (o.map write).or (Fields.lookup members name)
      else Fields.lookup members name := by
  cases o <;> simp [optionalMember, Fields.lookup_cons]

end Members

/-! ### Requests -/

namespace RequestData

open Json Fields

/-- What the data of a request that was decoded is like. -/
def Canonical : RequestData → Prop
  | handshake params => ∀ p ∈ params.root, p.Written
  | analyze params => params.file.path.Written
  | analyzeBatch params => ∀ f ∈ params.files, f.path.Written
  | debug params => params.arguments.IsValue
  | unknown method params => Method.ofName? method = .none ∧ params.IsValue ∧ params ≠ .null
  | _ => True

/-- The data can be written, and reads back. -/
def Settles (data : RequestData) : Prop :=
  ∃ params, data.encodeParams = .ok params ∧ params.IsValue ∧ params ≠ .null ∧
    ofParts data.methodName params = .ok data

/-- Data whose members are read back reads back as a whole. -/
theorem settles_of_reads {α : Type} {wrap : α → RequestData} {a : α} {m : Method}
    {shape : Shape} {fields : Fields Json α} {members : List (String × Json)}
    (decoder : ∀ v, decodeKnown m v = (valueFormat.record shape fields v).map wrap)
    (named : (wrap a).methodName = m.name) (written : (wrap a).encodeParams = .ok (.obj members))
    (reads : fields.Reads (lookup members) a) (sorted : Sorted members)
    (values : ∀ m ∈ members, m.2.IsValue) : (wrap a).Settles := by
  refine ⟨_, written, normal_of_sorted sorted values, nofun, ?_⟩
  rw [ofParts, named, method_name]
  change decodeKnown m (.obj members) = _
  rw [decoder, reads.record sorted.nodup_keys rfl rfl]
  rfl

theorem settles_handshake {params : HandshakeParams}
    (canonical : (handshake params).Canonical) : (handshake params).Settles := by
  obtain ⟨name, version, root⟩ := params
  have written : (handshake ⟨name, version, root⟩).encodeParams =
      .ok (.obj (optionalMember "client_name" .str name ++
        optionalMember "client_version" .str version ++
          optionalMember "root" Path.spelled root)) := by
    cases root with
    | none => rfl
    | some p => simp only [encodeParams, (canonical p rfl).encode]; rfl
  refine settles_of_reads (m := .handshake) (fun _ => rfl) rfl written
    (((Reads.map ?_ _).seq ?_).seq ?_) ?_ ?_
  · exact reads_optional Json.str (by simp) fun _ _ => ⟨nofun, rfl⟩
  · exact reads_optional Json.str (by simp) fun _ _ => ⟨nofun, rfl⟩
  · exact reads_optional Path.spelled (by simp)
      fun p mem => ⟨nofun, (canonical p mem).decode rfl⟩
  · cases name <;> cases version <;> cases root <;>
      simp [Sorted, optionalMember, -String.lt_iff_ltb]
  · cases name <;> cases version <;> cases root <;>
      simp [optionalMember, IsValue, normal, Path.spelled]

theorem settles_shutdown (params : ShutdownParams) : (shutdown params).Settles := by
  obtain ⟨reason, error⟩ := params
  refine settles_of_reads (m := .shutdown) (fun _ => rfl) rfl rfl ((Reads.map ?_ _).seq ?_) ?_ ?_
  · exact reads_defaulted (v := .str reason) (by simp) rfl
  · exact reads_defaulted (v := .bool error) (by simp) rfl
  · simp [Sorted, -String.lt_iff_ltb]
  · simp [IsValue, normal]

theorem settles_compilerRestart (params : CompilerRestartParams) :
    (compilerRestart params).Settles := by
  obtain ⟨scope, strategy⟩ := params
  refine settles_of_reads (m := .compilerRestart) (fun _ => rfl) rfl rfl
    ((Reads.map ?_ _).seq ?_) ?_ ?_
  · exact reads_optional Json.str (by simp) fun _ _ => ⟨nofun, rfl⟩
  · exact reads_defaulted (v := .str strategy.name) (by simp)
      (reloadStrategy_name strategy)
  · cases scope <;> simp [Sorted, optionalMember, -String.lt_iff_ltb]
  · cases scope <;> simp [optionalMember, IsValue, normal]

theorem position_reads (p : Position) : Position.decode valueFormat
    (.obj [("character", .ofUInt32 p.character), ("line", .ofUInt32 p.line)]) = .ok p := by
  obtain ⟨line, character⟩ := p
  refine Reads.record ((Reads.map ?_ _).seq ?_) (by simp) rfl rfl
  · exact reads_required (v := .ofUInt32 line) (by simp) (unsigned32_ofUInt32 rfl line)
  · exact reads_required (v := .ofUInt32 character) (by simp) (unsigned32_ofUInt32 rfl character)

theorem settles_analyze {params : AnalyzeParams} (canonical : (analyze params).Canonical) :
    (analyze params).Settles := by
  obtain ⟨kind, file, position⟩ := params
  let place (p : Position) : Json :=
    .obj [("character", .ofUInt32 p.character), ("line", .ofUInt32 p.line)]
  have written : (analyze ⟨kind, file, position⟩).encodeParams =
      .ok (.obj ([("file", file.path.spelled), ("kind", .str kind.name)] ++
        optionalMember "position" place position)) := by
    simp only [encodeParams, SourceFile.encode, Path.Written.encode canonical]
    rfl
  refine settles_of_reads (m := .analyze) (fun _ => rfl) rfl written
    (((Reads.map ?_ _).seq ?_).seq ?_) ?_ ?_
  · exact reads_required (v := .str kind.name) (by simp) (analysisKind_name kind)
  · exact reads_required (v := file.path.spelled) (by simp) (SourceFile.decode_spelled canonical rfl)
  · exact reads_optional place (by simp) fun p _ => ⟨nofun, position_reads p⟩
  · cases position <;> simp [Sorted, optionalMember, -String.lt_iff_ltb]
  · have placed (p : Position) : (place p).normal = place p :=
      normal_of_sorted (by simp [Sorted, -String.lt_iff_ltb]) (by simp [normal, ofUInt32])
    cases position <;> simp [optionalMember, IsValue, normal, Path.spelled, placed]

theorem settles_analyzeBatch {params : AnalyzeBatchParams}
    (canonical : (analyzeBatch params).Canonical) : (analyzeBatch params).Settles := by
  obtain ⟨kind, files⟩ := params
  have written : (analyzeBatch ⟨kind, files⟩).encodeParams =
      .ok (.obj [("files", .arr (files.map (·.path.spelled))), ("kind", .str kind.name)]) := by
    have each : files.mapM SourceFile.encode = .ok (files.map (·.path.spelled)) := by
      have all : (files.map id).mapM SourceFile.encode = .ok (files.map (·.path.spelled)) :=
        mapM_map_ok fun f mem => Path.Written.encode (canonical f mem)
      rwa [List.map_id] at all
    simp only [encodeParams, each]
    rfl
  refine settles_of_reads (m := .analyzeBatch) (fun _ => rfl) rfl written
    ((Reads.map ?_ _).seq ?_) ?_ ?_
  · exact reads_required (v := .str kind.name) (by simp) (analysisKind_name kind)
  · exact reads_required (v := .arr (files.map (·.path.spelled))) (by simp)
      (Format.list_map rfl fun f mem => SourceFile.decode_spelled (canonical f mem) rfl)
  · simp [Sorted, -String.lt_iff_ltb]
  · have texts : ∀ v ∈ files.map (·.path.spelled), v.normal = v := by
      simp [Path.spelled, normal]
    simpa [IsValue, normal] using normal_of_items texts

theorem settles_debug {params : DebugParams} (canonical : (debug params).Canonical) :
    (debug params).Settles := by
  obtain ⟨command, arguments⟩ := params
  have value : arguments.normal = arguments := canonical
  refine settles_of_reads (m := .debug) (fun _ => rfl) rfl rfl ((Reads.map ?_ _).seq ?_) ?_ ?_
  · exact reads_required (v := .str command) (by simp) rfl
  · exact reads_defaulted (v := arguments) (by simp) (congrArg Except.ok value)
  · simp [Sorted, -String.lt_iff_ltb]
  · simp [IsValue, normal, value]

theorem settles_search (params : SearchParams) : (search params).Settles := by
  obtain ⟨query, limit⟩ := params
  refine settles_of_reads (m := .search) (fun _ => rfl) rfl rfl ((Reads.map ?_ _).seq ?_) ?_ ?_
  · exact reads_required (v := .str query) (by simp) rfl
  · exact reads_optional ofUInt64 (by simp) fun n _ => ⟨nofun, size_ofUInt64 rfl n⟩
  · cases limit <;> simp [Sorted, optionalMember, -String.lt_iff_ltb]
  · cases limit <;> simp [optionalMember, IsValue, normal, ofUInt64]

theorem settles_docs (params : DocsParams) : (docs params).Settles := by
  obtain ⟨symbol⟩ := params
  refine settles_of_reads (m := .docs) (fun _ => rfl) rfl rfl (Reads.map ?_ _) ?_ ?_
  · exact reads_required (v := .str symbol) (by simp) rfl
  · simp [Sorted]
  · simp [IsValue, normal]

theorem presentParams_of_ne {params : Json} (present : params ≠ .null) :
    presentParams params = params := by
  unfold presentParams
  split
  · exact absurd rfl present
  · rfl

theorem presentParams_ne_null (params : Json) : presentParams params ≠ .null := by
  unfold presentParams
  split
  · nofun
  · assumption

/-- Data in canonical form can be written, and reads back. -/
theorem Canonical.settles {data : RequestData} (canonical : data.Canonical) : data.Settles := by
  cases data with
  | handshake params => exact settles_handshake canonical
  | shutdown params => exact settles_shutdown params
  | compilerRestart params => exact settles_compilerRestart params
  | analyze params => exact settles_analyze canonical
  | analyzeBatch params => exact settles_analyzeBatch canonical
  | debug params => exact settles_debug canonical
  | search params => exact settles_search params
  | docs params => exact settles_docs params
  | unknown method params =>
      obtain ⟨foreign, value, present⟩ := canonical
      refine ⟨params, rfl, value, present, ?_⟩
      rw [methodName, ofParts, foreign, presentParams_of_ne present]

/-- What the parameters of a known method decode to is canonical. -/
theorem canonical_of_decodeKnown {m : Method} {params : Json} {data : RequestData}
    (decoded : decodeKnown m params = .ok data) : data.Canonical := by
  cases m with
  | handshake =>
      obtain ⟨p, read, rfl⟩ := ok_of_map decoded
      refine Sound.record (P := fun p => (handshake p).Canonical) ?_ read
      refine Sound.seq (P := fun root => ∀ p ∈ root, p.Written)
        (((sound_any _).map ?_).seq (sound_any _)) (sound_defaulted nofun ?_)
      · exact fun _ _ _ _ _ texts => texts
      · exact fun _ _ => Format.forall_of_optional fun _ _ => Path.written_of_decode
  | analyze =>
      obtain ⟨p, read, rfl⟩ := ok_of_map decoded
      refine Sound.record (P := fun p => (analyze p).Canonical) ?_ read
      refine Sound.seq (Sound.seq (P := fun file => file.path.Written) ((sound_any _).map ?_)
        (sound_required ?_)) (sound_any _)
      · exact fun _ _ _ text _ _ => text
      · exact fun _ _ => SourceFile.written_of_decode
  | analyzeBatch =>
      obtain ⟨p, read, rfl⟩ := ok_of_map decoded
      refine Sound.record (P := fun p => (analyzeBatch p).Canonical) ?_ read
      refine Sound.seq (P := fun files => ∀ f ∈ files, f.path.Written) ((sound_any _).map ?_)
        (sound_required ?_)
      · exact fun _ _ _ texts => texts
      · exact fun _ _ => Format.forall_of_list fun _ _ => SourceFile.written_of_decode
  | debug =>
      obtain ⟨p, read, rfl⟩ := ok_of_map decoded
      refine Sound.record (P := fun p => (debug p).Canonical) ?_ read
      refine Sound.seq (P := IsValue) ((sound_any _).map ?_) (sound_defaulted rfl ?_)
      · exact fun _ _ _ value => value
      · exact fun _ _ => isValue_of_free
  | shutdown | compilerRestart | search | docs =>
      obtain ⟨p, -, rfl⟩ := ok_of_map decoded
      trivial

/-- Data that was read from its parts is in canonical form. -/
theorem canonical_of_ofParts {method : String} {params : Json} {data : RequestData}
    (value : params.IsValue) (decoded : ofParts method params = .ok data) : data.Canonical := by
  unfold ofParts at decoded
  split at decoded
  · exact canonical_of_decodeKnown decoded
  · rename_i foreign
    cases decoded
    refine ⟨foreign, ?_, presentParams_ne_null params⟩
    unfold presentParams
    split
    · rfl
    · exact value

end RequestData

namespace Request

open Json Fields

/-- What a document decodes to is canonical. -/
theorem canonical_of_decode {v : Json} {r : Request} (decoded : decode v = .ok r) :
    r.data.Canonical := by
  obtain ⟨envelope, read, opened⟩ := ok_of_bind decoded
  obtain ⟨data, parts, rfl⟩ := ok_of_map opened
  refine RequestData.canonical_of_ofParts ?_ parts
  refine Sound.record (P := fun e => e.params.IsValue) ?_ read
  refine Sound.seq (P := IsValue) (((sound_any _).map ?_).seq (sound_any _))
    (sound_defaulted rfl ?_)
  · exact fun _ _ _ _ _ value => value
  · exact fun _ _ => isValue_of_free

def written (r : Request) (params : Json) : List (String × Json) :=
  [("id", .str r.id), ("method", .str r.methodName), ("params", params)]

/-- The envelope of a written request is read back. -/
theorem envelope_of_written (r : Request) {params : Json} (value : params.IsValue) :
    valueFormat.record Envelope.shape (Envelope.fields valueFormat) (obj (r.written params)) =
      .ok ⟨r.id, r.methodName, params⟩ := by
  refine Reads.record (((Reads.map ?_ _).seq ?_).seq ?_) (by simp [written]) rfl rfl
  · exact reads_required (v := .str r.id) (by simp [written]) rfl
  · exact reads_required (v := .str r.methodName) (by simp [written]) rfl
  · exact reads_defaulted (v := params) (by simp [written]) (congrArg Except.ok value)

/-- A canonical request can be written, and reads back. -/
theorem settles_of_canonical {r : Request} (canonical : r.data.Canonical) :
    ∃ j, r.encode = .ok j ∧ decode j = .ok r := by
  obtain ⟨params, encoded, value, present, parts⟩ := canonical.settles
  refine ⟨obj (r.written params), by rw [encode, encoded]; rfl, ?_⟩
  have whole : (obj (r.written params)).normal = obj (r.written params) := by
    refine normal_of_sorted (by simp [Sorted, written, -String.lt_iff_ltb]) ?_
    simpa [normal, written, IsValue] using value
  simp only [decode, whole, envelope_of_written r value]
  change (RequestData.ofParts r.data.methodName params).map (Request.mk r.id) = _
  rw [parts]
  rfl

end Request

/-! ### Replies and events -/

namespace Response

open Json Fields

/-- What a reply that was decoded is like: its result is a value, and there. -/
def Canonical (r : Response) : Prop := ∀ v ∈ r.result, v.IsValue ∧ v ≠ .null

variable {F : Format Json} {r : Response}

/-- A reply that was read is in canonical form. -/
theorem canonical_of_decodeIn {v : Json} (seen : F.view = Json.view)
    (decoded : decodeIn F v = .ok r) : r.Canonical := by
  refine Sound.record (P := Canonical) ?_ decoded
  refine Sound.seq (Sound.seq (P := fun result => ∀ v ∈ result, IsValue v ∧ v ≠ .null)
    ((sound_any _).map ?_) (sound_defaulted nofun ?_)) (sound_any _)
  · exact fun _ _ _ result _ _ => result
  · intro v found free
    unfold Format.optional at free
    split at free
    · cases free
      nofun
    · rename_i present
      cases free
      rintro _ ⟨⟩
      refine ⟨normal_normal v, fun null => present ?_⟩
      cases v <;> simp_all [normal, Json.view]

theorem decode_error (seen : F.view = Json.view) (unread : F.ignored? = fun _ => .none)
    (e : RpcError) : RpcError.decode F e.encode = .ok e := by
  obtain ⟨code, message⟩ := e
  have keys : ([("code", Json.ofInt32 code), ("message", .str message)].map (·.1)).Nodup := by
    simp
  refine Reads.record ((Reads.map ?_ _).seq ?_) keys (by rw [seen]; rfl) unread
  · exact reads_required (v := .ofInt32 code) (by simp) (signed32_ofInt32 seen code)
  · exact reads_required (v := .str message) (by simp) (by rw [Format.text, seen]; rfl)

/-- A reply as it is read back: a result that is null counts as none. -/
def received (r : Response) : Response := { r with result := r.result.filter (· ≠ .null) }

/-- What is not null is kept. -/
theorem filter_ne_null {found : Option Json} (present : found ≠ some .null) :
    found.filter (· ≠ .null) = found := by
  cases found with
  | none => rfl
  | some v => simpa using present

/-- A reply keeps its result unless that is null. -/
theorem received_eq_self_iff : r.received = r ↔ r.result ≠ some .null := by
  refine ⟨fun same null => ?_, fun present => ?_⟩
  · rw [received, null] at same
    cases (congrArg Response.result same).trans null
  · rw [received, filter_ne_null present]

/-- A reply in canonical form is received as it was sent. -/
theorem received_of_canonical (canonical : r.Canonical) : r.received = r :=
  received_eq_self_iff.mpr fun null => (canonical .null null).2 rfl

/-- An optional document is read as what it is, null as nothing. -/
theorem reads_free {name : String} {find : String → Option Json} {found : Option Json}
    (seen : F.view = Json.view) (there : find name = found) (values : ∀ v ∈ found, v.IsValue) :
    (defaulted name Option.none (F.optional Json.free)).Reads find (found.filter (· ≠ .null)) := by
  by_cases null : found = some .null
  · subst null
    refine reads_defaulted there ?_
    rw [Format.optional, seen]
    rfl
  · rw [filter_ne_null null]
    refine reads_optional (fun v => v) (there.trans Option.map_id'.symm)
      fun v mem => ⟨fun absent => null ?_, congrArg Except.ok (values v mem)⟩
    rw [seen] at absent
    cases v with
    | num n => cases n <;> cases absent
    | null => exact mem
    | _ => cases absent

/-- A reply is read from its members in any order. -/
theorem decodeIn_of_lookup (seen : F.view = Json.view) (unread : F.ignored? = fun _ => .none)
    (values : ∀ v ∈ r.result, v.IsValue) {found : List (String × Json)}
    (keys : (found.map (·.1)).Nodup) (same : ∀ name, lookup found name = lookup r.members name) :
    decodeIn F (obj found) = .ok r.received := by
  refine Reads.record (((Reads.map ?_ _).seq ?_).seq ?_) keys (by rw [seen]; rfl) unread
  · exact reads_required (v := .str r.id) (by rw [same]; simp [members])
      (by rw [Format.text, seen]; rfl)
  · exact reads_free seen (by rw [same]; simp [members]) values
  · refine reads_optional RpcError.encode (by rw [same]; simp [members])
      fun e _ => ⟨?_, decode_error seen unread e⟩
    rw [seen]
    nofun

theorem values_members (values : ∀ v ∈ r.result, v.IsValue) :
    ∀ m ∈ r.members, m.2.normal = m.2 := by
  obtain ⟨id, result, error⟩ := r
  have errors (e : RpcError) : e.encode.normal = e.encode :=
    normal_of_sorted (by simp [Sorted, -String.lt_iff_ltb]) (by simp [normal, ofInt32])
  cases result with
  | none => cases error <;> simp [members, optionalMember, normal, errors]
  | some v =>
      have value : v.normal = v := values v rfl
      cases error <;> simp [members, optionalMember, normal, errors, value]

theorem keys_members (r : Response) : (r.members.map (·.1)).Nodup := by
  obtain ⟨id, result, error⟩ := r
  cases result <;> cases error <;> simp [members, optionalMember]

/-- A canonical reply reads back. -/
theorem decode_encode (canonical : r.Canonical) : decode r.encode = .ok r := by
  have values : ∀ v ∈ r.result, v.IsValue := fun v mem => (canonical v mem).1
  rw [decode, encode, normal, normalMembers_eq_self (values_members values),
    decodeIn_of_lookup rfl rfl values (sorted_sortMembers _).nodup_keys
      (lookup_sortMembers r.keys_members), received_of_canonical canonical]

end Response

namespace Event

open Json Fields

/-- What an event that was decoded is like. -/
def Canonical : Event → Prop
  | response r => r.Canonical
  | notification _ params => params.IsValue
  | _ => True

/-- An event that was read from its content is in canonical form. -/
theorem canonical_of_decodeContent {kind : EventKind} {content : Json} {e : Event}
    (decoded : decodeContent kind content = .ok e) : e.Canonical := by
  cases kind with
  | response =>
      obtain ⟨r, read, rfl⟩ := ok_of_map decoded
      exact Response.canonical_of_decodeIn rfl read
  | notification =>
      refine Sound.record (P := Canonical) ?_ decoded
      refine Sound.seq (P := IsValue) ((sound_any _).map ?_) (sound_defaulted rfl ?_)
      · exact fun _ _ _ value => value
      · exact fun _ _ => isValue_of_free
  | ready =>
      refine Sound.record (P := Canonical) ?_ decoded
      exact (sound_any _).map fun _ _ => trivial
  | analysisReady =>
      refine Sound.record (P := Canonical) ?_ decoded
      exact (sound_any _).map fun _ _ => trivial
  | indexReady =>
      refine Sound.record (P := Canonical) ?_ decoded
      exact ((sound_any _).map fun _ _ _ _ => trivial).seq (sound_any _)

/-- An event that was read from a document is in canonical form. -/
theorem canonical_of_decode {v : Json} {e : Event} (decoded : decode v = .ok e) :
    e.Canonical := by
  unfold decode at decoded
  split at decoded
  · split at decoded
    · cases decoded
    · obtain ⟨kind, -, read⟩ := ok_of_bind decoded
      exact canonical_of_decodeContent read
  · cases decoded
  · obtain ⟨kind, -, read⟩ := ok_of_bind decoded
    exact canonical_of_decodeContent read
  · cases decoded

def kind : Event → EventKind
  | response _ => .response
  | notification .. => .notification
  | ready _ => .ready
  | analysisReady _ => .analysisReady
  | indexReady .. => .indexReady

/-- The members of a written event beside its kind. -/
def content : Event → List (String × Json)
  | response r => r.members
  | notification method params => [("method", .str method), ("params", params)]
  | ready worker => [("worker", .str worker.name)]
  | analysisReady workers => [("workers", .arr (workers.map fun w => .str w.name))]
  | indexReady deleted inserted =>
    [("deleted", .ofUInt64 deleted), ("inserted", .ofUInt64 inserted)]

def members (e : Event) : List (String × Json) := (EventKind.tag, .str e.kind.name) :: e.content

theorem encode_eq (e : Event) : e.encode = .obj e.members := by
  cases e <;> rfl

theorem keys_content (e : Event) : (e.content.map (·.1)).Nodup := by
  cases e with
  | response r => exact r.keys_members
  | _ => simp [content]

/-- The content of an event has no tag in it. -/
theorem untagged_content (e : Event) : ∀ m ∈ e.content, m.1 ≠ EventKind.tag := by
  cases e with
  | response r =>
      obtain ⟨id, result, error⟩ := r
      cases result <;> cases error <;>
        simp [content, Response.members, optionalMember, EventKind.tag]
  | _ => simp [content, EventKind.tag]

theorem keys_members (e : Event) : (e.members.map (·.1)).Nodup := by
  rw [members, List.map_cons, List.nodup_cons]
  refine ⟨fun tagged => ?_, e.keys_content⟩
  obtain ⟨m, mem, same⟩ := List.mem_map.mp tagged
  exact e.untagged_content m mem same

/-- The free documents of an event are values. -/
def Values : Event → Prop
  | response r => ∀ v ∈ r.result, v.IsValue
  | notification _ params => params.IsValue
  | _ => True

/-- An event as it is read back: the null result of a reply counts as none. -/
def received : Event → Event
  | response r => response r.received
  | e => e

theorem Canonical.values {e : Event} (canonical : e.Canonical) : e.Values := by
  cases e with
  | response r => exact fun v mem => (canonical v mem).1
  | notification method params => exact canonical
  | _ => trivial

/-- An event in canonical form is received as it was sent. -/
theorem received_of_canonical {e : Event} (canonical : e.Canonical) : e.received = e := by
  cases e with
  | response r => exact congrArg response (Response.received_of_canonical canonical)
  | _ => rfl

theorem values_members {e : Event} (values : e.Values) : ∀ m ∈ e.members, m.2.normal = m.2 := by
  refine List.forall_mem_cons.mpr ⟨rfl, ?_⟩
  cases e with
  | response r => exact Response.values_members values
  | notification method params =>
      have value : params.normal = params := values
      simp [content, normal, value]
  | analysisReady workers =>
      have texts : ∀ v ∈ workers.map fun w => Json.str w.name, v.normal = v := by simp [normal]
      simpa [content, normal] using normal_of_items texts
  | _ => simp [content, normal, ofUInt64]

/-- An event is read from its members beside the kind, in any order. -/
theorem decodeContent_of_lookup {e : Event} (values : e.Values) {found : List (String × Json)}
    (keys : (found.map (·.1)).Nodup) (same : ∀ name, lookup found name = lookup e.content name) :
    decodeContent e.kind (.obj found) = .ok e.received := by
  cases e with
  | response r =>
      change (Response.decodeIn bufferedFormat (obj found)).map response = _
      rw [Response.decodeIn_of_lookup rfl rfl values keys same]
      rfl
  | notification method params =>
      simp only [kind, decodeContent]
      refine Reads.record ((Reads.map ?_ _).seq ?_) keys rfl rfl
      · exact reads_required (v := .str method) (by rw [same]; simp [content]) rfl
      · exact reads_defaulted (v := params) (by rw [same]; simp [content])
          (congrArg Except.ok values)
  | ready worker =>
      simp only [kind, decodeContent]
      refine Reads.record (Reads.map ?_ _) keys rfl rfl
      exact reads_required (v := .str worker.name) (by rw [same]; simp [content])
        (worker_name worker)
  | analysisReady workers =>
      simp only [kind, decodeContent]
      refine Reads.record (Reads.map ?_ _) keys rfl rfl
      exact reads_required (v := .arr (workers.map fun w => .str w.name))
        (by rw [same]; simp [content]) (Format.list_map rfl fun w _ => worker_name w)
  | indexReady deleted inserted =>
      simp only [kind, decodeContent]
      refine Reads.record ((Reads.map ?_ _).seq ?_) keys rfl rfl
      · exact reads_required (v := .ofUInt64 deleted) (by rw [same]; simp [content])
          (size_ofUInt64 rfl deleted)
      · exact reads_required (v := .ofUInt64 inserted) (by rw [same]; simp [content])
          (size_ofUInt64 rfl inserted)

/-- What is written for an event is read as what is received. -/
theorem decode_encode_of_values {e : Event} (values : e.Values) :
    decode e.encode = .ok e.received := by
  have there := lookup_sortMembers e.keys_members
  have tagged : (sortMembers e.members).find? (·.1 == EventKind.tag) =
      some (EventKind.tag, .str e.kind.name) := by
    rw [find?_sortMembers, members, List.reverse_cons, List.find?_append,
      List.find?_eq_none.mpr]
    · simp
    · simpa using e.untagged_content
  have sorted : ((sortMembers e.members).map (·.1)).Nodup := (sorted_sortMembers _).nodup_keys
  rw [decode, encode_eq, normal, normalMembers_eq_self (values_members values)]
  simp only [tagged, decodeKind, EventKind.variantNamed_name, bind, Except.bind]
  refine decodeContent_of_lookup values (sorted.sublist ((List.filter_sublist).map _)) fun name => ?_
  rw [lookup_filter_ne, there, members, lookup_cons]
  by_cases same : EventKind.tag = name
  · rw [if_pos same, lookup_eq_none fun m mem => same ▸ e.untagged_content m mem]
  · rw [if_neg same, if_neg same]

/-- A canonical event reads back. -/
theorem decode_encode {e : Event} (canonical : e.Canonical) : decode e.encode = .ok e := by
  rw [decode_encode_of_values canonical.values, received_of_canonical canonical]

end Event

end SessionBroker
