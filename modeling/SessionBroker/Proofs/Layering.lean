import SessionBroker.Config.Basic
import SessionBroker.Proofs.WireForm

/-!
Configurations over their defaults.

A document is laid over the full one of the defaults section by section and field by field
(`Json.overlay`). A reader of defaulted fields cannot tell the result from the document that is
laid over (`Fields.Carries`), at either level, and what it reads is written and read back as it is.
Main statement: `config_layering`.
-/

namespace SessionBroker

/-! ### Layers of members -/

namespace Json

/-- The members of `base`, those that are given put in their place, and then the given ones of
other keys. -/
def layer (place : Json → Json → Json) (base given : List (String × Json)) :
    List (String × Json) :=
  (base.map fun m => (m.1, (Fields.lookup given m.1).elim m.2 (place m.2))) ++
    given.filter fun m => (Fields.lookup base m.1).isNone

/-- A section with the given fields in place of its own. -/
def overlayFields : Json → Json → Json
  | .obj base, .obj given => .obj (layer (fun _ v => v) base given)
  | _, given => given

/-- A document with the given one laid over it, field by field in every section. -/
def overlay : Json → Json → Json
  | .obj base, .obj given => .obj (layer overlayFields base given)
  | _, given => given

/-- What a document has for a field of a section. -/
def field? (v : Json) (section_ field : String) : Option Json :=
  (v.member? section_).bind (·.member? field)

section Layer

variable {base : List (String × Json)} {key : String} {b : Json}

/-- A key of the base has its value, with what is given placed in it. -/
theorem lookup_layer_of_base (place : Json → Json → Json) (given : List (String × Json))
    (found : Fields.lookup base key = some b) : Fields.lookup (layer place base given) key =
      some ((Fields.lookup given key).elim b (place b)) := by
  rw [layer, Fields.lookup_append,
    Fields.lookup_map fun k v => (Fields.lookup given k).elim v (place v), found]
  rfl

/-- A key that the base lacks is that of the given members. -/
theorem lookup_layer_of_none (place : Json → Json → Json) (given : List (String × Json))
    (missing : Fields.lookup base key = none) :
    Fields.lookup (layer place base given) key = Fields.lookup given key := by
  rw [layer, Fields.lookup_append,
    Fields.lookup_map fun k v => (Fields.lookup given k).elim v (place v), missing,
    Fields.lookup_filter fun k => (Fields.lookup base k).isNone, missing]
  rfl

/-- Laying members over a base gives no field twice. -/
theorem distinct_layer {α : Type} {fields : Fields Json α} {given : List (String × Json)}
    (place : Json → Json → Json) (keys : (base.map (·.1)).Nodup)
    (distinct : fields.Distinct given) : fields.Distinct (layer place base given) := by
  refine List.pairwise_append.mpr ⟨?_, distinct.filter _, ?_⟩
  · refine Fields.distinct_of_nodup fields ?_
    rw [List.map_map]
    exact keys
  · intro m own n other _ same
    obtain ⟨m, mem, rfl⟩ := List.mem_map.mp own
    have missing := (List.mem_filter.mp other).2
    have found := Fields.lookup_of_mem keys mem
    rw [← same, found] at missing
    cases missing

end Layer

end Json

/-! ### Reading over a layer -/

namespace Fields

open Json

variable {α β : Type} {fields : Fields Json α} {find find' : String → Option Json}

/-- What is read from one look-up is read from the other one. -/
def Carries (fields : Fields Json α) (find find' : String → Option Json) : Prop :=
  fields.Gives find (fields.Reads find')

/-- If one look-up gives what another one gives, so it is with what is made of it. -/
theorem Carries.map (carries : fields.Carries find find') (f : α → β) :
    (f <$> fields).Carries find find' :=
  Gives.map carries fun _ reads => reads.map f

/-- And so it is with two records read together. -/
theorem Carries.seq {f : Fields Json (α → β)} (left : f.Carries find find')
    (right : fields.Carries find find') : (f <*> fields).Carries find find' := by
  refine Gives.seq (fun absent g built => ?_) right
  have reads := left absent g built
  exact fun a reads' => reads.seq reads'

variable {name : String} {fallback : α} {decode : Decoder Json α} {place : Json → Json → Json}
  {base given : List (String × Json)} {b : Json}

/-- A field whose default is written in the base is read over it. -/
theorem carries_layer (found : lookup base name = some b) (own : decode b = .ok fallback)
    (placed : ∀ v a, decode v = .ok a → decode (place b v) = .ok a) :
    (defaulted name fallback decode).Carries (lookup given) (lookup (layer place base given)) := by
  have there := lookup_layer_of_base place given found
  refine gives_defaulted (fun v a given decoded => ?_) fun missing => ?_
  · rw [given] at there
    exact reads_defaulted there (placed v a decoded)
  · rw [missing] at there
    exact reads_defaulted there own

/-- So is a field that is not written when it has its default. -/
theorem carries_layer_of_none (absent : lookup base name = Option.none) :
    (defaulted name fallback decode).Carries (lookup given) (lookup (layer place base given)) := by
  have there := lookup_layer_of_none place given absent
  refine gives_defaulted (fun v a given decoded => ?_) fun missing => ?_
  · exact reads_defaulted (there.trans given) decoded
  · exact reads_default (there.trans missing)

/-- A record that the given members decode to is decoded from them over their base. -/
theorem decode_layer {shape : Shape} {a : α} (keys : (base.map (·.1)).Nodup)
    (carries : fields.Carries (lookup given) (lookup (layer place base given)))
    (decoded : valueFormat.record shape fields (.obj given) = .ok a) :
    valueFormat.record shape fields (.obj (layer place base given)) = .ok a := by
  obtain ⟨distinct, built⟩ := of_record rfl rfl decoded
  exact (carries _ a built).record_of_distinct (distinct_layer place keys distinct) rfl rfl

/-- A section is read back from the members that are written for it. -/
theorem decode_members {shape : Shape} {a : α} (keys : (base.map (·.1)).Nodup)
    (reads : fields.Reads (lookup base) a) :
    valueFormat.record shape fields (.obj base) = .ok a :=
  reads.record keys rfl rfl

/-- What the look-up of an object gives holds of what is read from it. -/
theorem Gives.decoded {shape : Shape} {P : α → Prop} {a : α} (gives : fields.Gives (lookup given) P)
    (decoded : valueFormat.record shape fields (.obj given) = .ok a) : P a :=
  gives _ a (of_record rfl rfl decoded).2

/-- A section is read alike over its defaults. -/
theorem decode_overlayFields {shape : Shape} {v : Json} {a : α} (keys : (base.map (·.1)).Nodup)
    (carries : ∀ given, fields.Carries (lookup given) (lookup (layer (fun _ v => v) base given)))
    (decoded : valueFormat.record shape fields v = .ok a) :
    valueFormat.record shape fields ((Json.obj base).overlayFields v) = .ok a := by
  cases v with
  | obj given => exact decode_layer keys (carries given) decoded
  | _ => exact decoded

end Fields

/-! ### What is written -/

section Written

open Json Fields

def ProjectConfig.spelled (c : ProjectConfig) : Json :=
  .obj [("root", c.root.spelled), ("source_roots", .arr (c.sourceRoots.map Path.spelled)),
    ("composition", .str c.composition.name)]

def LogConfig.spelled (c : LogConfig) : Json :=
  .obj (("level", .str c.level) ::
    (optionalMember "directory" Path.spelled c.directory ++ [("rotation", .str c.rotation)]))

namespace Config

def spelled (c : Config) : Json :=
  .obj [("server", c.server.encode), ("project", c.project.spelled),
    ("session", c.session.encode), ("watcher", c.watcher.encode), ("index", c.index.encode),
    ("shutdown", c.shutdown.encode), ("log", c.log.spelled)]

/-- The paths of the configuration are texts. -/
structure Written (c : Config) : Prop where
  root : c.project.root.Written
  sourceRoots : ∀ p ∈ c.project.sourceRoots, p.Written
  directory : ∀ p ∈ c.log.directory, p.Written

variable {c : Config}

theorem written_default : Config.default.Written :=
  ⟨⟨".", rfl⟩, by simp [Config.default, ProjectConfig.default, Path.Written], nofun⟩

/-- A configuration whose paths are texts is written as its sections. -/
theorem Written.encode (written : c.Written) : c.encode = .ok c.spelled := by
  have project : c.project.encode = .ok c.project.spelled := by
    have roots : c.project.sourceRoots.mapM Path.encode =
        .ok (c.project.sourceRoots.map Path.spelled) := by
      have each : ∀ p ∈ c.project.sourceRoots, Path.encode (id p) = .ok p.spelled :=
        fun p mem => (written.sourceRoots p mem).encode
      rw [← mapM_map_ok each, List.map_id]
    rw [ProjectConfig.encode, written.root.encode, roots]
    rfl
  have log : c.log.encode = .ok c.log.spelled := by
    rw [LogConfig.encode, LogConfig.spelled]
    cases directory : c.log.directory with
    | none => rfl
    | some p =>
        simp only [(written.directory p directory).encode]
        rfl
  rw [Config.encode, project, log]
  rfl

end Config

end Written

/-! ### Sections -/

section Sections

open Json Fields

variable {v w : Json} {rest rest' : List (String × Json)} {name section_ key : String}

/-- Objects with the same values under a key have the same member of it. -/
theorem member?_congr (first : name = key → v = w)
    (others : (obj rest).member? key = (obj rest').member? key) :
    (obj ((name, v) :: rest)).member? key = (obj ((name, w) :: rest')).member? key := by
  change lookup _ key = lookup _ key at others ⊢
  rw [lookup_cons, lookup_cons, others]
  split
  · rename_i same
    rw [first same]
  · rfl

/-- The same with a member that may be missing. -/
theorem member?_optional_congr {γ : Type} {write : γ → Json} {o o' : Option γ}
    (first : name = key → o = o') (others : (obj rest).member? key = (obj rest').member? key) :
    (obj (optionalMember name write o ++ rest)).member? key =
      (obj (optionalMember name write o' ++ rest')).member? key := by
  change lookup _ key = lookup _ key at others ⊢
  rw [lookup_optionalMember_append, lookup_optionalMember_append, others]
  split
  · rename_i same
    rw [first same]
  · rfl

/-- Objects that differ in other sections and fields have the same field. -/
theorem field?_congr (first : name = section_ → v.member? key = w.member? key)
    (others : (obj rest).field? section_ key = (obj rest').field? section_ key) :
    (obj ((name, v) :: rest)).field? section_ key =
      (obj ((name, w) :: rest')).field? section_ key := by
  change (lookup _ section_).bind _ = (lookup _ section_).bind _ at others ⊢
  rw [lookup_cons, lookup_cons]
  split
  · rename_i same
    exact first same
  · exact others

/-- What is not found is written as it is written for the default. -/
def Keeps {α : Type} (write : α → Json) (default : α) (find : String → Option Json) (a : α) :
    Prop :=
  ∀ key, find key = .none → (write a).member? key = (write default).member? key

/-- A section that is read over its default: as a whole, and field by field. -/
structure Layered {α : Type} (decode : Decoder Json α) (write : α → Json) (default : α) :
    Prop where
  own : decode (write default) = .ok default
  overlay : ∀ v a, decode v = .ok a → decode ((write default).overlayFields v) = .ok a
  /-- A field that is not given keeps its default, whatever else is given. -/
  kept : ∀ given a, decode (.obj given) = .ok a → Keeps write default (lookup given) a

theorem ServerConfig.decode_encode (c : ServerConfig) :
    ServerConfig.decode valueFormat c.encode = .ok c := by
  rw [ServerConfig.decode, ServerConfig.encode]
  refine decode_members ?_ ((Reads.map ?_ _).seq ?_)
  · simp
  · exact reads_defaulted (v := .str c.name) (by simp) rfl
  · exact reads_defaulted (v := .str c.version) (by simp) rfl

/-- The section of the server: what is given decides, and the default decides the rest. -/
theorem ServerConfig.layered :
    Layered (ServerConfig.decode valueFormat) ServerConfig.encode .default where
  own := ServerConfig.decode_encode _
  overlay v c decoded := by
    refine decode_overlayFields (by simp) (fun given => Carries.seq (Carries.map ?_ _) ?_) decoded
    · exact carries_layer rfl rfl fun _ _ decoded => decoded
    · exact carries_layer rfl rfl fun _ _ decoded => decoded
  kept given c decoded := by
    rw [ServerConfig.decode] at decoded
    refine Gives.decoded (Gives.seq (Gives.map gives_default ?_) gives_default) decoded
    intro name first version second key missing
    exact member?_congr (fun same => by rw [first (same ▸ missing)])
      (member?_congr (fun same => by rw [second (same ▸ missing)]) rfl)

theorem ProjectConfig.decode_spelled {c : ProjectConfig} (root : c.root.Written)
    (roots : ∀ p ∈ c.sourceRoots, p.Written) :
    ProjectConfig.decode valueFormat c.spelled = .ok c := by
  rw [ProjectConfig.decode, ProjectConfig.spelled]
  refine decode_members ?_ (((Reads.map ?_ _).seq ?_).seq ?_)
  · simp
  · exact reads_defaulted (v := c.root.spelled) (by simp) (root.decode rfl)
  · exact reads_defaulted (v := .arr (c.sourceRoots.map Path.spelled)) (by simp)
      (Format.list_map rfl fun p mem => (roots p mem).decode rfl)
  · exact reads_defaulted (v := .str c.composition.name) (by simp) (by cases c.composition <;> rfl)

/-- The section of the project: what is given decides, and the default decides the rest. -/
theorem ProjectConfig.layered :
    Layered (ProjectConfig.decode valueFormat) ProjectConfig.spelled .default where
  own := ProjectConfig.decode_spelled Config.written_default.root Config.written_default.sourceRoots
  overlay v c decoded := by
    refine decode_overlayFields (by simp)
      (fun given => Carries.seq (Carries.seq (Carries.map ?_ _) ?_) ?_) decoded
    · exact carries_layer rfl (Config.written_default.root.decode rfl) fun _ _ decoded => decoded
    · exact carries_layer rfl
        (Format.list_map rfl fun p mem => (Config.written_default.sourceRoots p mem).decode rfl)
        fun _ _ decoded => decoded
    · exact carries_layer rfl rfl fun _ _ decoded => decoded
  kept given c decoded := by
    rw [ProjectConfig.decode] at decoded
    refine Gives.decoded
      (Gives.seq (Gives.seq (Gives.map gives_default ?_) gives_default) gives_default) decoded
    intro root first roots second composition third key missing
    exact member?_congr (fun same => by rw [first (same ▸ missing)])
      (member?_congr (fun same => by rw [second (same ▸ missing)])
        (member?_congr (fun same => by rw [third (same ▸ missing)]) rfl))

theorem SessionConfig.decode_encode (c : SessionConfig) :
    SessionConfig.decode valueFormat c.encode = .ok c := by
  rw [SessionConfig.decode, SessionConfig.encode]
  refine decode_members ?_ ((Reads.map ?_ _).seq ?_)
  · simp
  · exact reads_defaulted (v := .ofUInt64 c.maxPending) (by simp) (size_ofUInt64 rfl _)
  · exact reads_defaulted (v := .ofUInt64 c.maxBufferedEvents) (by simp) (size_ofUInt64 rfl _)

/-- The section of the session: what is given decides, and the default decides the rest. -/
theorem SessionConfig.layered :
    Layered (SessionConfig.decode valueFormat) SessionConfig.encode .default where
  own := SessionConfig.decode_encode _
  overlay v c decoded := by
    refine decode_overlayFields (by simp) (fun given => Carries.seq (Carries.map ?_ _) ?_) decoded
    · exact carries_layer rfl (size_ofUInt64 rfl _) fun _ _ decoded => decoded
    · exact carries_layer rfl (size_ofUInt64 rfl _) fun _ _ decoded => decoded
  kept given c decoded := by
    rw [SessionConfig.decode] at decoded
    refine Gives.decoded (Gives.seq (Gives.map gives_default ?_) gives_default) decoded
    intro pending first events second key missing
    exact member?_congr (fun same => by rw [first (same ▸ missing)])
      (member?_congr (fun same => by rw [second (same ▸ missing)]) rfl)

theorem WatcherConfig.decode_encode (c : WatcherConfig) :
    WatcherConfig.decode valueFormat c.encode = .ok c := by
  rw [WatcherConfig.decode, WatcherConfig.encode]
  refine decode_members ?_ (((Reads.map ?_ _).seq ?_).seq ?_)
  · simp
  · exact reads_defaulted (v := .bool c.enabled) (by simp) rfl
  · exact reads_defaulted (v := .ofUInt64 c.debounceMs) (by simp) (unsigned64_ofUInt64 rfl _)
  · exact reads_defaulted (v := .ofUInt64 c.maxDelayMs) (by simp) (unsigned64_ofUInt64 rfl _)

/-- The section of the watcher: what is given decides, and the default decides the rest. -/
theorem WatcherConfig.layered :
    Layered (WatcherConfig.decode valueFormat) WatcherConfig.encode .default where
  own := WatcherConfig.decode_encode _
  overlay v c decoded := by
    refine decode_overlayFields (by simp)
      (fun given => Carries.seq (Carries.seq (Carries.map ?_ _) ?_) ?_) decoded
    · exact carries_layer rfl rfl fun _ _ decoded => decoded
    · exact carries_layer rfl (unsigned64_ofUInt64 rfl _) fun _ _ decoded => decoded
    · exact carries_layer rfl (unsigned64_ofUInt64 rfl _) fun _ _ decoded => decoded
  kept given c decoded := by
    rw [WatcherConfig.decode] at decoded
    refine Gives.decoded
      (Gives.seq (Gives.seq (Gives.map gives_default ?_) gives_default) gives_default) decoded
    intro enabled first debounce second delay third key missing
    exact member?_congr (fun same => by rw [first (same ▸ missing)])
      (member?_congr (fun same => by rw [second (same ▸ missing)])
        (member?_congr (fun same => by rw [third (same ▸ missing)]) rfl))

theorem IndexConfig.decode_encode (c : IndexConfig) :
    IndexConfig.decode valueFormat c.encode = .ok c := by
  rw [IndexConfig.decode, IndexConfig.encode]
  refine decode_members ?_ (Reads.map ?_ _)
  · simp
  · exact reads_defaulted (v := .bool c.exitAfterIndex) (by simp) rfl

/-- The section of the index: what is given decides, and the default decides the rest. -/
theorem IndexConfig.layered :
    Layered (IndexConfig.decode valueFormat) IndexConfig.encode .default where
  own := IndexConfig.decode_encode _
  overlay v c decoded := by
    refine decode_overlayFields (by simp) (fun given => Carries.map ?_ _) decoded
    exact carries_layer rfl rfl fun _ _ decoded => decoded
  kept given c decoded := by
    rw [IndexConfig.decode] at decoded
    refine Gives.decoded (Gives.map gives_default ?_) decoded
    intro leaves first key missing
    exact member?_congr (fun same => by rw [first (same ▸ missing)]) rfl

theorem ShutdownConfig.decode_encode (c : ShutdownConfig) :
    ShutdownConfig.decode valueFormat c.encode = .ok c := by
  rw [ShutdownConfig.decode, ShutdownConfig.encode]
  refine decode_members ?_ (Reads.map ?_ _)
  · simp
  · exact reads_defaulted (v := .ofUInt64 c.searchGraceMs) (by simp) (unsigned64_ofUInt64 rfl _)

/-- The section of the shutdown: what is given decides, and the default decides the rest. -/
theorem ShutdownConfig.layered :
    Layered (ShutdownConfig.decode valueFormat) ShutdownConfig.encode .default where
  own := ShutdownConfig.decode_encode _
  overlay v c decoded := by
    refine decode_overlayFields (by simp) (fun given => Carries.map ?_ _) decoded
    exact carries_layer rfl (unsigned64_ofUInt64 rfl _) fun _ _ decoded => decoded
  kept given c decoded := by
    rw [ShutdownConfig.decode] at decoded
    refine Gives.decoded (Gives.map gives_default ?_) decoded
    intro grace first key missing
    exact member?_congr (fun same => by rw [first (same ▸ missing)]) rfl

theorem LogConfig.decode_spelled {c : LogConfig} (directory : ∀ p ∈ c.directory, p.Written) :
    LogConfig.decode valueFormat c.spelled = .ok c := by
  rw [LogConfig.decode, LogConfig.spelled]
  refine decode_members ?_ (((Reads.map ?_ _).seq ?_).seq ?_)
  · cases c.directory <;> simp [optionalMember]
  · exact reads_defaulted (v := .str c.level) (by simp) rfl
  · refine reads_optional Path.spelled (by simp) fun p mem => ⟨?_, (directory p mem).decode rfl⟩
    intro null
    cases null
  · exact reads_defaulted (v := .str c.rotation) (by simp) rfl

-- The directory is the one field that is not written when it has its default.
/-- The section of the log: what is given decides, and the default decides the rest. -/
theorem LogConfig.layered :
    Layered (LogConfig.decode valueFormat) LogConfig.spelled .default where
  own := LogConfig.decode_spelled Config.written_default.directory
  overlay v c decoded := by
    refine decode_overlayFields (by simp [LogConfig.default, optionalMember])
      (fun given => Carries.seq (Carries.seq (Carries.map ?_ _) ?_) ?_) decoded
    · exact carries_layer rfl rfl fun _ _ decoded => decoded
    · exact carries_layer_of_none rfl
    · exact carries_layer rfl rfl fun _ _ decoded => decoded
  kept given c decoded := by
    rw [LogConfig.decode] at decoded
    refine Gives.decoded
      (Gives.seq (Gives.seq (Gives.map gives_default ?_) gives_default) gives_default) decoded
    intro level first directory second rotation third key missing
    exact member?_congr (fun same => by rw [first (same ▸ missing)])
      (member?_optional_congr (fun same => by rw [second (same ▸ missing)])
        (member?_congr (fun same => by rw [third (same ▸ missing)]) rfl))

end Sections

/-! ### Documents -/

section Documents

open Json Fields

variable {c : Config} {doc : Json}

def Config.sections : List String :=
  ["server", "project", "session", "watcher", "index", "shutdown", "log"]

/-- A document that gives some sections, each of them as an object. -/
def Json.IsPartial (doc : Json) : Prop :=
  ∃ members, doc = .obj members ∧ ∀ name ∈ Config.sections, ∀ v, lookup members name = some v →
    ∃ given, v = .obj given

/-- A configuration whose paths are texts reads back from its sections. -/
theorem Config.decode_spelled (written : c.Written) :
    Config.decode valueFormat c.spelled = .ok c := by
  rw [Config.decode, Config.spelled]
  refine decode_members (by simp)
    (((((((Reads.map ?_ _).seq ?_).seq ?_).seq ?_).seq ?_).seq ?_).seq ?_)
  · exact reads_defaulted (v := c.server.encode) (by simp) (ServerConfig.decode_encode _)
  · exact reads_defaulted (v := c.project.spelled) (by simp)
      (ProjectConfig.decode_spelled written.root written.sourceRoots)
  · exact reads_defaulted (v := c.session.encode) (by simp) (SessionConfig.decode_encode _)
  · exact reads_defaulted (v := c.watcher.encode) (by simp) (WatcherConfig.decode_encode _)
  · exact reads_defaulted (v := c.index.encode) (by simp) (IndexConfig.decode_encode _)
  · exact reads_defaulted (v := c.shutdown.encode) (by simp) (ShutdownConfig.decode_encode _)
  · exact reads_defaulted (v := c.log.spelled) (by simp)
      (LogConfig.decode_spelled written.directory)

/-- A document is read alike over the full one of the defaults. -/
theorem Config.decode_overlay (decoded : Config.decode valueFormat doc = .ok c) :
    Config.decode valueFormat (Config.default.spelled.overlay doc) = .ok c := by
  cases doc with
  | obj given =>
      rw [Config.decode] at decoded ⊢
      refine decode_layer (by simp) (Carries.seq (Carries.seq (Carries.seq (Carries.seq (Carries.seq
        (Carries.seq (Carries.map ?_ _) ?_) ?_) ?_) ?_) ?_) ?_) decoded
      · exact carries_layer rfl ServerConfig.layered.own ServerConfig.layered.overlay
      · exact carries_layer rfl ProjectConfig.layered.own ProjectConfig.layered.overlay
      · exact carries_layer rfl SessionConfig.layered.own SessionConfig.layered.overlay
      · exact carries_layer rfl WatcherConfig.layered.own WatcherConfig.layered.overlay
      · exact carries_layer rfl IndexConfig.layered.own IndexConfig.layered.overlay
      · exact carries_layer rfl ShutdownConfig.layered.own ShutdownConfig.layered.overlay
      · exact carries_layer rfl LogConfig.layered.own LogConfig.layered.overlay
  | _ => exact decoded

/-- A section keeps the defaults of its fields that are not given. -/
theorem gives_section {α : Type} {decode : Decoder Json α} {write : α → Json} {fallback : α}
    {members : List (String × Json)} {name : String} (layered : Layered decode write fallback)
    (isObject : ∀ v, lookup members name = some v → ∃ given, v = .obj given) :
    (defaulted name fallback decode).Gives (lookup members) fun a =>
      ∀ key, (Json.obj members).field? name key = .none →
        (write a).member? key = (write fallback).member? key := by
  refine gives_defaulted (fun v a found decoded key missing => ?_) fun _ _ _ => rfl
  obtain ⟨given, rfl⟩ := isObject v found
  have same : (Json.obj members).field? name key = lookup given key := by
    change (lookup members name).bind _ = _
    rw [found]
    rfl
  exact layered.kept given a decoded key (same ▸ missing)

/-- A field that a document does not give has its default. -/
theorem Config.kept (partial_ : doc.IsPartial) (decoded : Config.decode valueFormat doc = .ok c)
    (section_ key : String) (missing : doc.field? section_ key = .none) :
    c.spelled.field? section_ key = Config.default.spelled.field? section_ key := by
  obtain ⟨members, rfl, objects⟩ := partial_
  rw [Config.decode] at decoded
  refine Gives.decoded (P := fun c : Config => ∀ section_ key,
      (Json.obj members).field? section_ key = .none →
        c.spelled.field? section_ key = Config.default.spelled.field? section_ key)
    (Gives.seq (Gives.seq (Gives.seq (Gives.seq (Gives.seq (Gives.seq (Gives.map
      (gives_section ServerConfig.layered (objects _ (by decide))) ?_)
      (gives_section ProjectConfig.layered (objects _ (by decide))))
      (gives_section SessionConfig.layered (objects _ (by decide))))
      (gives_section WatcherConfig.layered (objects _ (by decide))))
      (gives_section IndexConfig.layered (objects _ (by decide))))
      (gives_section ShutdownConfig.layered (objects _ (by decide))))
      (gives_section LogConfig.layered (objects _ (by decide)))) decoded section_ key missing
  intro server first project second session third watcher fourth index fifth shutdown sixth log
    seventh section_ key missing
  exact field?_congr (fun same => first key (same ▸ missing))
    (field?_congr (fun same => second key (same ▸ missing))
    (field?_congr (fun same => third key (same ▸ missing))
    (field?_congr (fun same => fourth key (same ▸ missing))
    (field?_congr (fun same => fifth key (same ▸ missing))
    (field?_congr (fun same => sixth key (same ▸ missing))
    (field?_congr (fun same => seventh key (same ▸ missing)) rfl))))))

/-! #### Paths that are read -/

/-- Paths that were read from a document are texts. -/
theorem ProjectConfig.written_of_decode {v : Json} {p : ProjectConfig}
    (decoded : ProjectConfig.decode valueFormat v = .ok p) :
    p.root.Written ∧ ∀ root ∈ p.sourceRoots, root.Written := by
  have default := Config.written_default
  rw [ProjectConfig.decode] at decoded
  refine Sound.record
    (P := fun p : ProjectConfig => p.root.Written ∧ ∀ root ∈ p.sourceRoots, root.Written)
    (Sound.seq (Sound.seq
      (Sound.map (sound_defaulted default.root fun _ _ => Path.written_of_decode) ?_)
      (sound_defaulted default.sourceRoots fun _ _ =>
        Format.forall_of_list fun _ _ => Path.written_of_decode)) (sound_any _)) decoded
  intro root first roots second _ _
  exact ⟨first, second⟩

/-- A log directory that was read from a document is a text. -/
theorem LogConfig.written_of_decode {v : Json} {l : LogConfig}
    (decoded : LogConfig.decode valueFormat v = .ok l) : ∀ p ∈ l.directory, p.Written := by
  have default := Config.written_default
  rw [LogConfig.decode] at decoded
  refine Sound.record (P := fun l : LogConfig => ∀ p ∈ l.directory, p.Written)
    (Sound.seq (Sound.seq (Sound.map (sound_any _) ?_)
      (sound_defaulted default.directory fun _ _ =>
        Format.forall_of_optional fun _ _ => Path.written_of_decode)) (sound_any _)) decoded
  intro _ _ directory first _ _
  exact first

/-- What is read has the paths of texts. -/
theorem Config.written_of_decode (decoded : Config.decode valueFormat doc = .ok c) :
    c.Written := by
  have default := Config.written_default
  rw [Config.decode] at decoded
  refine Sound.record (P := Config.Written)
    (Sound.seq (Sound.seq (Sound.seq (Sound.seq (Sound.seq (Sound.seq (Sound.map (sound_any _) ?_)
    (sound_defaulted ⟨default.root, default.sourceRoots⟩ fun _ _ =>
      ProjectConfig.written_of_decode)) (sound_any _)) (sound_any _)) (sound_any _)) (sound_any _))
    (sound_defaulted default.directory fun _ _ => LogConfig.written_of_decode)) decoded
  intro _ _ project paths _ _ _ _ _ _ _ _ log directory
  exact ⟨paths.1, paths.2, directory⟩

end Documents

/-- **A configuration is read over its defaults, and read back as it is.** What a document is read
as is what the full document of the defaults is read as with that document laid over it; a field
that a partial document does not give keeps its default, whatever else is given. A configuration
whose paths are texts is written, and what is written is read as the same one, valid or not. -/
theorem config_layering :
    ∃ full, Config.default.encode = .ok full ∧
      (∀ doc c, Config.decode Json.valueFormat doc = .ok c →
        Config.decode Json.valueFormat (full.overlay doc) = .ok c ∧
          ∃ written, c.encode = .ok written ∧
            (doc.IsPartial → ∀ section_ key, doc.field? section_ key = none →
              written.field? section_ key = full.field? section_ key)) ∧
      ∀ c : Config, c.Written → ∃ written again, c.encode = .ok written ∧
        Config.decode Json.valueFormat written = .ok again ∧ again = c ∧
          again.validate = c.validate := by
  refine ⟨Config.default.spelled, Config.written_default.encode, fun doc c decoded => ?_,
    fun c written => ?_⟩
  · have written := (Config.written_of_decode decoded).encode
    exact ⟨Config.decode_overlay decoded, c.spelled, written, fun partial_ section_ key missing =>
      Config.kept partial_ decoded section_ key missing⟩
  · exact ⟨c.spelled, c, written.encode, Config.decode_spelled written, rfl, rfl⟩

/-- Two sections are given, one of them with a key of no field, and a key of no section. The watcher
stays enabled. -/
theorem config_layering_of_partial_document :
    let doc : Json := .obj [("project", .obj [("composition", .str "java_only"), ("note", .null)]),
      ("watcher", .obj [("debounce_ms", .ofUInt64 50), ("max_delay_ms", .ofUInt64 200)]),
      ("extra", .bool true)]
    let c : Config := { Config.default with
      project := { ProjectConfig.default with composition := .javaOnly }
      watcher := ⟨true, 50, 200⟩ }
    Config.decode Json.valueFormat doc = .ok c ∧ doc.IsPartial ∧
      ∃ full written, Config.default.encode = .ok full ∧ c.encode = .ok written ∧
        Config.decode Json.valueFormat (full.overlay doc) = .ok c ∧
        written.field? "watcher" "enabled" = full.field? "watcher" "enabled" ∧
        Config.decode Json.valueFormat written = .ok c := by
  intro doc c
  have decoded : Config.decode Json.valueFormat doc = .ok c := by rfl
  have partial_ : doc.IsPartial := by
    refine ⟨_, rfl, fun name mem v found => ?_⟩
    rw [Fields.lookup_cons, Fields.lookup_cons, Fields.lookup_cons, Fields.lookup_nil] at found
    split_ifs at found with project watcher extra
    · exact ⟨_, (Option.some.inj found).symm⟩
    · exact ⟨_, (Option.some.inj found).symm⟩
    · subst extra
      exact absurd mem (by decide)
  obtain ⟨full, default, layers, reads⟩ := config_layering
  obtain ⟨overlaid, written, encoded, kept⟩ := layers doc c decoded
  obtain ⟨written', again, encoded', read, rfl, -⟩ := reads c (Config.written_of_decode decoded)
  rw [encoded] at encoded'
  obtain rfl := Except.ok.inj encoded'
  exact ⟨decoded, partial_, full, written, default, encoded, overlaid,
    kept partial_ "watcher" "enabled" rfl, read⟩

end SessionBroker
