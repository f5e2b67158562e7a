import SessionBroker.Document.Fields
import SessionBroker.Duration
import SessionBroker.Json.Format
import SessionBroker.Wire.SourceFile

/-!
The configuration of a session.

Every section and every field has a default. A document gives some of them: a section that
is missing, or a field missing from its section, keeps its default.
-/

namespace SessionBroker

structure ServerConfig where
  name : String
  version : String
  deriving DecidableEq, Repr

inductive Composition where
  /-- From the files under the source roots. -/
  | auto
  | mixed
  | javaOnly
  deriving DecidableEq, Repr

structure ProjectConfig where
  /-- Relative source roots are seen from here. -/
  root : Path
  sourceRoots : List Path
  composition : Composition
  deriving DecidableEq, Repr

structure SessionConfig where
  /-- How many requests are parked. -/
  maxPending : UInt64
  /-- How many events are held back. -/
  maxBufferedEvents : UInt64
  deriving DecidableEq, Repr

structure WatcherConfig where
  enabled : Bool
  debounceMs : UInt64
  maxDelayMs : UInt64
  deriving DecidableEq, Repr

structure IndexConfig where
  exitAfterIndex : Bool
  deriving DecidableEq, Repr

structure ShutdownConfig where
  searchGraceMs : UInt64
  deriving DecidableEq, Repr

structure LogConfig where
  level : String
  directory : Option Path
  rotation : String
  deriving DecidableEq, Repr

structure Config where
  server : ServerConfig
  project : ProjectConfig
  session : SessionConfig
  watcher : WatcherConfig
  index : IndexConfig
  shutdown : ShutdownConfig
  log : LogConfig
  deriving DecidableEq, Repr

/-! ### Defaults -/

def ServerConfig.default : ServerConfig := ⟨"switchyard", "0.1.0"⟩

def ProjectConfig.default : ProjectConfig := ⟨.ofString ".", [.ofString "src"], .auto⟩

def SessionConfig.default : SessionConfig := ⟨1024, 4096⟩

def WatcherConfig.default : WatcherConfig := ⟨true, 500, 5000⟩

def IndexConfig.default : IndexConfig := ⟨false⟩

def ShutdownConfig.default : ShutdownConfig := ⟨10000⟩

def LogConfig.default : LogConfig := ⟨"info", none, "daily"⟩

/-- The configuration of an empty document. -/
def Config.default : Config :=
  ⟨.default, .default, .default, .default, .default, .default, .default⟩

/-! ### Decoding -/

def Composition.variants : List (String × Composition) :=
  [("auto", .auto), ("mixed", .mixed), ("java_only", .javaOnly)]

def Composition.name : Composition → String
  | .auto => "auto"
  | .mixed => "mixed"
  | .javaOnly => "java_only"

section Decoding

variable {V : Type} (F : Format V)

def ServerConfig.decode : Decoder V ServerConfig :=
  let d := ServerConfig.default
  F.record (.record "ServerConfig") <|
    ServerConfig.mk <$> .defaulted "name" d.name F.text
      <*> .defaulted "version" d.version F.text

def ProjectConfig.decode : Decoder V ProjectConfig :=
  let d := ProjectConfig.default
  F.record (.record "ProjectConfig") <|
    ProjectConfig.mk <$> .defaulted "root" d.root (Path.decode F)
      <*> .defaulted "source_roots" d.sourceRoots (F.list (Path.decode F))
      <*> .defaulted "composition" d.composition (F.variant Composition.variants)

def SessionConfig.decode : Decoder V SessionConfig :=
  let d := SessionConfig.default
  F.record (.record "SessionConfig") <|
    SessionConfig.mk <$> .defaulted "max_pending" d.maxPending F.size
      <*> .defaulted "max_buffered_events" d.maxBufferedEvents F.size

def WatcherConfig.decode : Decoder V WatcherConfig :=
  let d := WatcherConfig.default
  F.record (.record "WatcherConfig") <|
    WatcherConfig.mk <$> .defaulted "enabled" d.enabled F.boolean
      <*> .defaulted "debounce_ms" d.debounceMs F.unsigned64
      <*> .defaulted "max_delay_ms" d.maxDelayMs F.unsigned64

def IndexConfig.decode : Decoder V IndexConfig :=
  F.record (.record "IndexConfig") <|
    IndexConfig.mk <$> .defaulted "exit_after_index" IndexConfig.default.exitAfterIndex F.boolean

def ShutdownConfig.decode : Decoder V ShutdownConfig :=
  F.record (.record "ShutdownConfig") <|
    ShutdownConfig.mk <$>
      .defaulted "search_grace_ms" ShutdownConfig.default.searchGraceMs F.unsigned64

def LogConfig.decode : Decoder V LogConfig :=
  let d := LogConfig.default
  F.record (.record "LogConfig") <|
    LogConfig.mk <$> .defaulted "level" d.level F.text
      <*> .defaulted "directory" d.directory (F.optional (Path.decode F))
      <*> .defaulted "rotation" d.rotation F.text

def Config.decode : Decoder V Config :=
  let d := Config.default
  F.record (.record "Config") <|
    Config.mk <$> .defaulted "server" d.server (ServerConfig.decode F)
      <*> .defaulted "project" d.project (ProjectConfig.decode F)
      <*> .defaulted "session" d.session (SessionConfig.decode F)
      <*> .defaulted "watcher" d.watcher (WatcherConfig.decode F)
      <*> .defaulted "index" d.index (IndexConfig.decode F)
      <*> .defaulted "shutdown" d.shutdown (ShutdownConfig.decode F)
      <*> .defaulted "log" d.log (LogConfig.decode F)

end Decoding

/-! ### Encoding -/

def ServerConfig.encode (c : ServerConfig) : Json :=
  .obj [("name", .str c.name), ("version", .str c.version)]

def ProjectConfig.encode (c : ProjectConfig) : Except DataFault Json := do
  return .obj [("root", ← c.root.encode), ("source_roots", .arr (← c.sourceRoots.mapM Path.encode)),
    ("composition", .str c.composition.name)]

def SessionConfig.encode (c : SessionConfig) : Json :=
  .obj [("max_pending", .ofUInt64 c.maxPending),
    ("max_buffered_events", .ofUInt64 c.maxBufferedEvents)]

def WatcherConfig.encode (c : WatcherConfig) : Json :=
  .obj [("enabled", .bool c.enabled), ("debounce_ms", .ofUInt64 c.debounceMs),
    ("max_delay_ms", .ofUInt64 c.maxDelayMs)]

def IndexConfig.encode (c : IndexConfig) : Json :=
  .obj [("exit_after_index", .bool c.exitAfterIndex)]

def ShutdownConfig.encode (c : ShutdownConfig) : Json :=
  .obj [("search_grace_ms", .ofUInt64 c.searchGraceMs)]

/-- The directory is left out when there is none. -/
def LogConfig.encode (c : LogConfig) : Except DataFault Json := do
  let directory ← match c.directory with
    | none => pure []
    | some p => do pure [("directory", ← p.encode)]
  return .obj ([("level", .str c.level)] ++ directory ++ [("rotation", .str c.rotation)])

/-- A configuration as a document; it fails only for a path that is not text. -/
def Config.encode (c : Config) : Except DataFault Json := do
  return .obj [("server", c.server.encode), ("project", ← c.project.encode),
    ("session", c.session.encode), ("watcher", c.watcher.encode), ("index", c.index.encode),
    ("shutdown", c.shutdown.encode), ("log", ← c.log.encode)]

/-! ### Validity -/

inductive ConfigFault where
  /-- The greatest delay of a recompile is not above the usual one. -/
  | invalidDebounce (debounceMs maxDelayMs : Nat)
  /-- No request could be parked. -/
  | invalidPendingCap
  /-- No event could be held back. -/
  | invalidEventCap
  deriving DecidableEq, Repr

def ConfigFault.message : ConfigFault → String
  | .invalidDebounce debounce maxDelay =>
    "watcher.max_delay_ms (" ++ toString maxDelay ++ ") must be greater than watcher.debounce_ms ("
      ++ toString debounce ++ ")"
  | .invalidPendingCap => "session.max_pending must be at least 1"
  | .invalidEventCap => "session.max_buffered_events must be at least 1"

namespace Config

def validate (c : Config) : Except ConfigFault Unit :=
  if c.watcher.maxDelayMs ≤ c.watcher.debounceMs then
    .error (.invalidDebounce c.watcher.debounceMs.toNat c.watcher.maxDelayMs.toNat)
  else if c.session.maxPending = 0 then .error .invalidPendingCap
  else if c.session.maxBufferedEvents = 0 then .error .invalidEventCap
  else .ok ()

end Config

/-- How long sources must be quiet before they are recompiled. -/
def WatcherConfig.debounce (c : WatcherConfig) : Duration := .ofMillis c.debounceMs.toNat

/-- How long a recompile can be put off. -/
def WatcherConfig.maxDelay (c : WatcherConfig) : Duration := .ofMillis c.maxDelayMs.toNat

/-- How long the search engine may take to close. -/
def ShutdownConfig.searchGrace (c : ShutdownConfig) : Duration := .ofMillis c.searchGraceMs.toNat

def ProjectConfig.resolvedSourceRoots (c : ProjectConfig) : List Path :=
  c.sourceRoots.map c.root.join

end SessionBroker
