import SessionBroker.Wire.Response
import SessionBroker.Wire.Worker

/-!
Events for the client.

An event is an object with its kind under the key `event`, or an array that starts with
the kind.
-/

namespace SessionBroker

inductive Event where
  | response (response : Response)
  | notification (method : String) (params : Json)
  /-- One worker has finished starting. -/
  | ready (worker : Worker)
  /-- All analysis workers have finished starting. -/
  | analysisReady (workers : List Worker)
  /-- The search index has been rebuilt. -/
  | indexReady (deleted inserted : UInt64)
  deriving DecidableEq, Repr

inductive EventKind where
  | response
  | notification
  | ready
  | analysisReady
  | indexReady
  deriving DecidableEq, Repr

namespace EventKind

def variants : List (String × EventKind) :=
  [("response", response), ("notification", notification), ("ready", ready),
    ("analysis_ready", analysisReady), ("index_ready", indexReady)]

def tag : String := "event"

end EventKind

namespace Event

/-- The identifier of the request that an event answers. -/
def responseId? : Event → Option String
  | response r => some r.id
  | _ => none

/-- The event of a kind from its other members or items. -/
def decodeContent (kind : EventKind) (content : Json) : Except DataFault Event :=
  let F := Json.bufferedFormat
  match kind with
  | .response => (Response.decodeIn F content).map response
  | .notification =>
    F.record (.variant "Event::Notification")
      (notification <$> .required "method" F.text <*> .defaulted "params" .null Json.free) content
  | .ready =>
    F.record (.variant "Event::Ready") (ready <$> .required "worker" (Worker.decode F)) content
  | .analysisReady =>
    F.record (.variant "Event::AnalysisReady")
      (analysisReady <$> .required "workers" (F.list (Worker.decode F))) content
  | .indexReady =>
    F.record (.variant "Event::IndexReady")
      (indexReady <$> .required "deleted" F.size <*> .required "inserted" F.size) content

/-- The kind of an event from the document under its tag. -/
def decodeKind : Decoder Json EventKind
  | .str name => Format.variantNamed EventKind.variants name
  | v => Json.valueFormat.mismatch v .variantName

/-- The fault of a document that is no event at all. -/
def shape : Shape := .taggedUnion "Event"

def decode (v : Json) : Except DataFault Event :=
  match v.normal with
  | .obj members =>
    match members.find? (·.1 == EventKind.tag) with
    | none => .error (.missingField EventKind.tag)
    | some (_, kind) => do
      let kind ← decodeKind kind
      decodeContent kind (.obj (members.filter (·.1 != EventKind.tag)))
  | .arr [] => .error (.missingField EventKind.tag)
  | .arr (kind :: items) => do
    let kind ← decodeKind kind
    decodeContent kind (.arr items)
  | v => Json.valueFormat.mismatch v shape

/-- An event as a document: the kind, then what it tells. -/
def encode : Event → Json
  | response r => .obj ((EventKind.tag, .str "response") :: r.members)
  | notification method params =>
    .obj [(EventKind.tag, .str "notification"), ("method", .str method), ("params", params)]
  | ready worker => .obj [(EventKind.tag, .str "ready"), ("worker", .str worker.name)]
  | analysisReady workers =>
    .obj [(EventKind.tag, .str "analysis_ready"),
      ("workers", .arr (workers.map fun w => .str w.name))]
  | indexReady deleted inserted =>
    .obj [(EventKind.tag, .str "index_ready"), ("deleted", .ofUInt64 deleted),
      ("inserted", .ofUInt64 inserted)]

end Event

end SessionBroker
