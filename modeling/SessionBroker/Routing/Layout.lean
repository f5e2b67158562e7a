/-!
Which analysis workers a session runs.
-/

namespace SessionBroker

/-- The choice of analysis workers. -/
inductive Layout where
  /-- The primary worker and the Java worker. -/
  | mixed
  /-- The Java worker alone. -/
  | javaOnly
  deriving DecidableEq, Repr

namespace Layout

def name : Layout → String
  | mixed => "mixed"
  | javaOnly => "java_only"

def ofName? (s : String) : Option Layout := [mixed, javaOnly].find? (·.name == s)

end Layout

end SessionBroker
