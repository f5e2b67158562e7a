import SessionBroker.Document.Format

/-!
The methods a client may ask for.
-/

namespace SessionBroker

inductive Method where
  | handshake
  | shutdown
  | compilerRestart
  | analyze
  | analyzeBatch
  | debug
  | search
  | docs
  deriving DecidableEq, Repr

namespace Method

/-- All methods, in the order in which they are advertised. -/
def all : List Method :=
  [handshake, shutdown, compilerRestart, analyze, analyzeBatch, debug, search, docs]

def name : Method → String
  | handshake => "handshake"
  | shutdown => "shutdown"
  | compilerRestart => "compiler_restart"
  | analyze => "analyze"
  | analyzeBatch => "analyze_batch"
  | debug => "debug"
  | search => "search"
  | docs => "docs"

def ofName? (s : String) : Option Method := all.find? (·.name == s)

def decode {V : Type} (F : Format V) : Decoder V Method :=
  F.variant (all.map fun m => (m.name, m))

end Method

end SessionBroker
