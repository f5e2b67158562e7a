import SessionBroker.Document.Format
import SessionBroker.Json.Format
import SessionBroker.Path

/-!
Source files and their languages.

The language follows from the extension of the final name, in any ASCII letter case. On
the wire a file is the text of its path.
-/

namespace SessionBroker

inductive Language where
  | java
  | scala
  | kotlin
  | groovy
  | other
  deriving DecidableEq, Repr

namespace Language

def name : Language → String
  | java => "java"
  | scala => "scala"
  | kotlin => "kotlin"
  | groovy => "groovy"
  | other => "other"

/-- An ASCII upper-case letter as its lower-case one; any other byte as it is. -/
def lowerByte (b : UInt8) : UInt8 := if 0x41 ≤ b ∧ b ≤ 0x5a then b + 0x20 else b

/-- The extensions that tell a language, in lower case. -/
def extensions : List (String × Language) :=
  [("java", java), ("scala", scala), ("sc", scala), ("kt", kotlin), ("kts", kotlin),
    ("groovy", groovy)]

def ofExtension (ext : List UInt8) : Language :=
  let lower := ext.map lowerByte
  match extensions.find? fun e => (Path.ofString e.1).bytes == lower with
  | some (_, language) => language
  | none => other

def ofPath (p : Path) : Language := p.extension?.elim other ofExtension

/-- Whether sources in the language call for the primary worker. -/
def isNonJavaSource : Language → Bool
  | scala | kotlin | groovy => true
  | _ => false

end Language

structure SourceFile where
  path : Path
  deriving DecidableEq, Repr

namespace SourceFile

def language (f : SourceFile) : Language := Language.ofPath f.path

def isJava (f : SourceFile) : Bool := f.language == .java

end SourceFile

def Path.decode {V : Type} (F : Format V) : Decoder V Path := fun v =>
  match F.view v with
  | .text s => .ok (.ofString s)
  | _ => F.mismatch v .path

def Path.encode (p : Path) : Except DataFault Json :=
  match p.toString? with
  | some s => .ok (.str s)
  | none => .error .pathNotText

namespace SourceFile

def decode {V : Type} (F : Format V) : Decoder V SourceFile := fun v =>
  (Path.decode F v).map SourceFile.mk

def encode (f : SourceFile) : Except DataFault Json := f.path.encode

end SourceFile

end SessionBroker
