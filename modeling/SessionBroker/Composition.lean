import SessionBroker.Config.Basic
import SessionBroker.Files.Search
import SessionBroker.Routing.Layout

/-!
Which analysis workers a project needs.
-/

namespace SessionBroker

def isNonJavaSource (p : Path) : Bool := (Language.ofPath p).isNonJavaSource

/-- The layout for the files under some roots: mixed as soon as one of them is a source in
another language than Java. -/
def scanRoots (files : Files.Node) (roots : List Path) : Layout :=
  if roots.any (files.hasFile isNonJavaSource) then .mixed else .javaOnly

/-- The layout of a project: the configured one, or the one that its files call for. -/
def ProjectConfig.layout (c : ProjectConfig) (files : Files.Node) : Layout :=
  match c.composition with
  | .mixed => .mixed
  | .javaOnly => .javaOnly
  | .auto => scanRoots files c.resolvedSourceRoots

end SessionBroker
