import SessionBroker.Document.Format

/-!
The workers of a session.
-/

namespace SessionBroker

inductive Worker where
  /-- Analysis of the project's main language, when it is not Java. -/
  | primary
  /-- Analysis of Java sources. -/
  | java
  | debugger
  | indexer
  | docs
  deriving DecidableEq, Repr

namespace Worker

def all : List Worker := [primary, java, debugger, indexer, docs]

def name : Worker → String
  | primary => "primary"
  | java => "java"
  | debugger => "debugger"
  | indexer => "indexer"
  | docs => "docs"

def isAnalysis : Worker → Bool
  | primary | java => true
  | _ => false

def ofName? (s : String) : Option Worker := all.find? (·.name == s)

def decode {V : Type} (F : Format V) : Decoder V Worker :=
  F.variant (all.map fun w => (w.name, w))

end Worker

end SessionBroker
