import SessionBroker.Document.Fields
import SessionBroker.Json.Format
import SessionBroker.Wire.Method

/-!
Replies to requests.

A reply carries the identifier of its request, and a result or an error. `Descriptor` is
the result of every handshake.
-/

namespace SessionBroker

structure RpcError where
  code : Int32
  message : String
  deriving DecidableEq, Repr

structure Response where
  id : String
  result : Option Json
  error : Option RpcError
  deriving DecidableEq, Repr

/-! ### Error codes -/

namespace ErrorCode

def parseError : Int32 := -32700

def methodNotFound : Int32 := -32601

def invalidParams : Int32 := -32602

/-- A request could not be handed to its worker. -/
def serverError : Int32 := -32000

/-- A request came before the handshake and could not be kept. -/
def notInitialized : Int32 := -32001

end ErrorCode

namespace RpcError

def shape : Shape := .record "RpcError"

def fields (F : Format Json) : Fields Json RpcError :=
  RpcError.mk <$> .required "code" F.signed32 <*> .required "message" F.text

def decode (F : Format Json) : Decoder Json RpcError := F.record shape (fields F)

def encode (e : RpcError) : Json := .obj [("code", .ofInt32 e.code), ("message", .str e.message)]

end RpcError

namespace Response

def success (id : String) (result : Json) : Response := ⟨id, some result, none⟩

def failure (id : String) (code : Int32) (message : String) : Response :=
  ⟨id, none, some ⟨code, message⟩⟩

def shape : Shape := .record "Response"

def fields (F : Format Json) : Fields Json Response :=
  Response.mk <$> .required "id" F.text
    <*> .defaulted "result" none (F.optional Json.free)
    <*> .defaulted "error" none (F.optional (RpcError.decode F))

def decodeIn (F : Format Json) : Decoder Json Response := F.record shape (fields F)

def decode (v : Json) : Except DataFault Response := decodeIn Json.valueFormat v.normal

def members (r : Response) : List (String × Json) :=
  ("id", .str r.id) :: Json.optionalMember "result" (fun v => v) r.result
    ++ Json.optionalMember "error" RpcError.encode r.error

def encode (r : Response) : Json := .obj r.members

end Response

/-- What the broker says about itself in answer to a handshake. -/
structure Descriptor where
  serverName : String
  serverVersion : String
  deriving DecidableEq, Repr

/-- A descriptor as a value, members sorted by key; every method is a capability. -/
def Descriptor.encode (d : Descriptor) : Json :=
  .obj [("capabilities", .arr (Method.all.map fun m => .str m.name)),
    ("server_name", .str d.serverName), ("server_version", .str d.serverVersion)]

end SessionBroker
