import SessionBroker.Document.Fields
import SessionBroker.Wire.Method
import SessionBroker.Wire.SourceFile

/-!
Requests of a client.

A request has an identifier chosen by the client, a method and parameters. A method that
the broker does not know still makes a request, with its parameters as they are, so that
it can be answered under its identifier.
-/

namespace SessionBroker

structure HandshakeParams where
  clientName : Option String
  clientVersion : Option String
  root : Option Path
  deriving DecidableEq, Repr

structure ShutdownParams where
  reason : String
  error : Bool
  deriving DecidableEq, Repr

inductive ReloadStrategy where
  | incremental
  | full
  deriving DecidableEq, Repr

structure CompilerRestartParams where
  scope : Option String
  strategy : ReloadStrategy
  deriving DecidableEq, Repr

inductive AnalysisKind where
  | diagnostics
  | hover
  | definition
  | references
  | completion
  deriving DecidableEq, Repr

structure Position where
  line : UInt32
  character : UInt32
  deriving DecidableEq, Repr

structure AnalyzeParams where
  kind : AnalysisKind
  file : SourceFile
  position : Option Position
  deriving DecidableEq, Repr

structure AnalyzeBatchParams where
  kind : AnalysisKind
  files : List SourceFile
  deriving DecidableEq, Repr

structure DebugParams where
  command : String
  arguments : Json
  deriving DecidableEq, Repr

structure SearchParams where
  query : String
  limit : Option UInt64
  deriving DecidableEq, Repr

structure DocsParams where
  symbol : String
  deriving DecidableEq, Repr

inductive RequestData where
  | handshake (params : HandshakeParams)
  | shutdown (params : ShutdownParams)
  | compilerRestart (params : CompilerRestartParams)
  | analyze (params : AnalyzeParams)
  | analyzeBatch (params : AnalyzeBatchParams)
  | debug (params : DebugParams)
  | search (params : SearchParams)
  | docs (params : DocsParams)
  | unknown (method : String) (params : Json)
  deriving DecidableEq, Repr

structure Request where
  id : String
  data : RequestData
  deriving DecidableEq, Repr

/-! ### Decoding -/

def ReloadStrategy.variants : List (String × ReloadStrategy) :=
  [("incremental", .incremental), ("full", .full)]

def ReloadStrategy.name : ReloadStrategy → String
  | .incremental => "incremental"
  | .full => "full"

def AnalysisKind.variants : List (String × AnalysisKind) :=
  [("diagnostics", .diagnostics), ("hover", .hover), ("definition", .definition),
    ("references", .references), ("completion", .completion)]

def AnalysisKind.name : AnalysisKind → String
  | .diagnostics => "diagnostics"
  | .hover => "hover"
  | .definition => "definition"
  | .references => "references"
  | .completion => "completion"

def ShutdownParams.defaultReason : String := "client requested shutdown"

section Decoding

variable (F : Format Json)

def HandshakeParams.decode : Decoder Json HandshakeParams :=
  F.record (.record "HandshakeParams") <|
    HandshakeParams.mk <$> .defaulted "client_name" none (F.optional F.text)
      <*> .defaulted "client_version" none (F.optional F.text)
      <*> .defaulted "root" none (F.optional (Path.decode F))

def ShutdownParams.decode : Decoder Json ShutdownParams :=
  F.record (.record "ShutdownParams") <|
    ShutdownParams.mk <$> .defaulted "reason" ShutdownParams.defaultReason F.text
      <*> .defaulted "error" false F.boolean

def CompilerRestartParams.decode : Decoder Json CompilerRestartParams :=
  F.record (.record "CompilerRestartParams") <|
    CompilerRestartParams.mk <$> .defaulted "scope" none (F.optional F.text)
      <*> .defaulted "strategy" .incremental (F.variant ReloadStrategy.variants)

def Position.decode : Decoder Json Position :=
  F.record (.record "Position") <|
    Position.mk <$> .required "line" F.unsigned32 <*> .required "character" F.unsigned32

def AnalyzeParams.decode : Decoder Json AnalyzeParams :=
  F.record (.record "AnalyzeParams") <|
    AnalyzeParams.mk <$> .required "kind" (F.variant AnalysisKind.variants)
      <*> .required "file" (SourceFile.decode F)
      <*> .defaulted "position" none (F.optional (Position.decode F))

def AnalyzeBatchParams.decode : Decoder Json AnalyzeBatchParams :=
  F.record (.record "AnalyzeBatchParams") <|
    AnalyzeBatchParams.mk <$> .required "kind" (F.variant AnalysisKind.variants)
      <*> .required "files" (F.list (SourceFile.decode F))

def DebugParams.decode : Decoder Json DebugParams :=
  F.record (.record "DebugParams") <|
    DebugParams.mk <$> .required "command" F.text <*> .defaulted "arguments" .null Json.free

def SearchParams.decode : Decoder Json SearchParams :=
  F.record (.record "SearchParams") <|
    SearchParams.mk <$> .required "query" F.text
      <*> .defaulted "limit" none (F.optional F.size)

def DocsParams.decode : Decoder Json DocsParams :=
  F.record (.record "DocsParams") <| DocsParams.mk <$> .required "symbol" F.text

end Decoding

namespace RequestData

def decodeKnown (m : Method) (params : Json) : Except DataFault RequestData :=
  let F := Json.valueFormat
  match m with
  | .handshake => (HandshakeParams.decode F params).map handshake
  | .shutdown => (ShutdownParams.decode F params).map shutdown
  | .compilerRestart => (CompilerRestartParams.decode F params).map compilerRestart
  | .analyze => (AnalyzeParams.decode F params).map analyze
  | .analyzeBatch => (AnalyzeBatchParams.decode F params).map analyzeBatch
  | .debug => (DebugParams.decode F params).map debug
  | .search => (SearchParams.decode F params).map search
  | .docs => (DocsParams.decode F params).map docs

/-- Null parameters stand for an empty object. -/
def presentParams : Json → Json
  | .null => .obj []
  | params => params

/-- The data of a request from the name of its method and its parameters. -/
def ofParts (method : String) (params : Json) : Except DataFault RequestData :=
  match Method.ofName? method with
  | some m => decodeKnown m (presentParams params)
  | none => .ok (unknown method (presentParams params))

end RequestData

/-- The outer form of a request. -/
structure Envelope where
  id : String
  method : String
  params : Json
  deriving DecidableEq, Repr

namespace Envelope

def shape : Shape := .record "Envelope"

def fields (F : Format Json) : Fields Json Envelope :=
  Envelope.mk <$> .required "id" F.text <*> .required "method" F.text
    <*> .defaulted "params" .null Json.free

def open? (e : Envelope) : Except DataFault Request :=
  (RequestData.ofParts e.method e.params).map (Request.mk e.id)

end Envelope

namespace Request

def decode (v : Json) : Except DataFault Request := do
  let F := Json.valueFormat
  let envelope ← F.record Envelope.shape (Envelope.fields F) v.normal
  envelope.open?

end Request

/-! ### Encoding -/

namespace RequestData

def methodName : RequestData → String
  | unknown method _ => method
  | handshake _ => Method.handshake.name
  | shutdown _ => Method.shutdown.name
  | compilerRestart _ => Method.compilerRestart.name
  | analyze _ => Method.analyze.name
  | analyzeBatch _ => Method.analyzeBatch.name
  | debug _ => Method.debug.name
  | search _ => Method.search.name
  | docs _ => Method.docs.name

def files : RequestData → List SourceFile
  | analyze params => [params.file]
  | analyzeBatch params => params.files
  | _ => []

/-- The parameters as a value, members sorted by key. -/
def encodeParams : RequestData → Except DataFault Json
  | handshake params => do
    let root ← match params.root with
      | none => pure []
      | some p => do pure [("root", ← p.encode)]
    return .obj (Json.optionalMember "client_name" .str params.clientName
      ++ Json.optionalMember "client_version" .str params.clientVersion ++ root)
  | shutdown params => .ok (.obj [("error", .bool params.error), ("reason", .str params.reason)])
  | compilerRestart params =>
    .ok (.obj (Json.optionalMember "scope" .str params.scope
      ++ [("strategy", .str params.strategy.name)]))
  | analyze params => do
    let file ← params.file.encode
    let position (p : Position) : Json :=
      .obj [("character", .ofUInt32 p.character), ("line", .ofUInt32 p.line)]
    return .obj ([("file", file), ("kind", .str params.kind.name)]
      ++ Json.optionalMember "position" position params.position)
  | analyzeBatch params => do
    let files ← params.files.mapM SourceFile.encode
    return .obj [("files", .arr files), ("kind", .str params.kind.name)]
  | debug params => .ok (.obj [("arguments", params.arguments), ("command", .str params.command)])
  | search params =>
    .ok (.obj (Json.optionalMember "limit" .ofUInt64 params.limit ++ [("query", .str params.query)]))
  | docs params => .ok (.obj [("symbol", .str params.symbol)])
  | unknown _ params => .ok params

end RequestData

namespace Request

def methodName (r : Request) : String := r.data.methodName

def encode (r : Request) : Except DataFault Json := do
  let params ← r.data.encodeParams
  return .obj [("id", .str r.id), ("method", .str r.methodName), ("params", params)]

end Request

end SessionBroker
