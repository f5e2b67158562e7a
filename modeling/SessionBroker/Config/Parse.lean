import SessionBroker.Config.Basic
import SessionBroker.Files.Tree
import SessionBroker.Toml.Document

/-!
Reading a configuration file.
-/

namespace SessionBroker

inductive ConfigError where
  /-- There is no file that can be read. -/
  | unreadable (fault : Files.FileFault)
  /-- The file is not UTF-8. -/
  | notText
  /-- The text is not TOML. -/
  | notToml
  /-- The document does not hold a configuration. -/
  | data (fault : DataFault)
  /-- The configuration is not usable. -/
  | invalid (fault : ConfigFault)
  deriving DecidableEq, Repr

def Config.parse (text : List Char) : Except ConfigError Config :=
  match Toml.parse text with
  | none => .error .notToml
  | some document => do
    let c ← (Config.decode Toml.format document).mapError .data
    c.validate.mapError .invalid
    return c

/-- The configuration in the file that a path leads to. Without a file everything has its
default. -/
def Config.load (files : Files.Node) (path : Path) : Except ConfigError Config :=
  match files.read path with
  | .error .missing => .ok .default
  | .error fault => .error (.unreadable fault)
  | .ok content =>
    match String.fromUTF8? ⟨content.toArray⟩ with
    | some text => Config.parse text.toList
    | none => .error .notText

end SessionBroker
