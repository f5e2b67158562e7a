import SessionBroker.Routing.Layout
import SessionBroker.Wire.Request
import SessionBroker.Wire.Response
import SessionBroker.Wire.Worker

/-!
Who gets what of a request.

`plan` follows from the layout and the request alone. A batch is split into its Java files
and the others, each part a request of its own under the same identifier.
-/

namespace SessionBroker

inductive DispatchError where
  | unknownMethod (name : String)
  /-- The worker was never started. -/
  | workerUnavailable (worker : Worker)
  /-- The worker has stopped. -/
  | workerGone (worker : Worker)
  /-- The worker's mailbox is full. -/
  | workerBusy (worker : Worker)
  /-- The session answers the method itself. -/
  | notRoutable (method : Method)
  deriving DecidableEq, Repr

namespace DispatchError

def message : DispatchError → String
  | unknownMethod name => "Method not found: " ++ name
  | workerUnavailable worker => "No " ++ worker.name ++ " worker is running"
  | workerGone worker => "The " ++ worker.name ++ " worker has stopped"
  | workerBusy worker => "The " ++ worker.name ++ " worker is busy, try again later"
  | notRoutable method => method.name ++ " is handled by the session, not routed"

def code : DispatchError → Int32
  | unknownMethod _ => ErrorCode.methodNotFound
  | _ => ErrorCode.serverError

/-- The reply to a request that was not dispatched. -/
def response (e : DispatchError) (id : String) : Response := .failure id e.code e.message

end DispatchError

/-- A request, or a part of one, for a worker. -/
structure Delivery where
  worker : Worker
  request : Request
  deriving DecidableEq, Repr

/-- What is to be done with a request. -/
inductive Plan where
  /-- The session ends. -/
  | shutdown (params : ShutdownParams)
  | forward (deliveries : List Delivery)
  deriving DecidableEq, Repr

def Layout.primaryWorker : Layout → Worker
  | .mixed => .primary
  | .javaOnly => .java

def Layout.workerFor (layout : Layout) (file : SourceFile) : Worker :=
  if file.isJava then .java else layout.primaryWorker

def AnalyzeBatchParams.part (params : AnalyzeBatchParams) (id : String)
    (files : List SourceFile) : Request :=
  ⟨id, .analyzeBatch { params with files }⟩

/-- The deliveries of a batch: its Java files and its other files apart, unless one kind is
missing or both go to the same worker. -/
def AnalyzeBatchParams.deliveries (params : AnalyzeBatchParams) (layout : Layout) (id : String) :
    List Delivery :=
  let java := params.files.filter (·.isJava)
  let others := params.files.filter (!·.isJava)
  let target := layout.primaryWorker
  if java.isEmpty then [⟨target, params.part id others⟩]
  else if others.isEmpty || target == .java then [⟨.java, params.part id (java ++ others)⟩]
  else [⟨.java, params.part id java⟩, ⟨target, params.part id others⟩]

/-- What is to be done with a request under a layout. -/
def plan (layout : Layout) (r : Request) : Except DispatchError Plan :=
  let whole (worker : Worker) : Except DispatchError Plan := .ok (.forward [⟨worker, r⟩])
  match r.data with
  | .shutdown params => .ok (.shutdown params)
  | .handshake _ => .error (.notRoutable .handshake)
  | .compilerRestart _ => whole layout.primaryWorker
  | .analyze params => whole (layout.workerFor params.file)
  | .analyzeBatch params => .ok (.forward (params.deliveries layout r.id))
  | .debug _ => whole .debugger
  | .search _ => whole .indexer
  | .docs _ => whole .docs
  | .unknown name _ => .error (.unknownMethod name)

end SessionBroker
