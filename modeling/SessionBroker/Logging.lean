import SessionBroker.Config.Basic
import SessionBroker.Files.Tree

/-!
Levels and files of the log.

A log with a directory is written to a file there, whose name tells when it was begun.
-/

namespace SessionBroker

inductive LogLevel where
  | error
  | warn
  | info
  | debug
  | trace
  deriving DecidableEq, Repr

namespace LogLevel

/-- The level of a name in any letter case. An unknown name means `info`; the log cannot be
switched off altogether. -/
def ofName (name : String) : LogLevel :=
  match String.ofList (name.toList.map Char.toLower) with
  | "off" | "error" => error
  | "warn" => warn
  | "debug" => debug
  | "trace" => trace
  | _ => info

def label : LogLevel → String
  | error => "ERROR"
  | warn => "WARN"
  | info => "INFO"
  | debug => "DEBUG"
  | trace => "TRACE"

end LogLevel

inductive Rotation where
  | daily
  | hourly
  | never
  deriving DecidableEq, Repr

namespace Rotation

/-- The rotation of a name; an unknown one means daily. -/
def ofName (name : String) : Rotation :=
  match name with
  | "hourly" => hourly
  | "never" => never
  | _ => daily

/-- A moment as it stands in the name of a log file. -/
structure Moment where
  year : Nat
  month : Nat
  day : Nat
  hour : Nat

/-- A number with leading zeros to so many digits. -/
def padded (digits n : Nat) : String :=
  let s := toString n
  String.ofList (List.replicate (digits - s.length) '0') ++ s

/-- The name of the log file begun at a moment. -/
def fileName (r : Rotation) (at_ : Moment) : String :=
  let date := padded 4 at_.year ++ "-" ++ padded 2 at_.month ++ "-" ++ padded 2 at_.day
  match r with
  | daily => "switchyard.log." ++ date
  | hourly => "switchyard.log." ++ date ++ "-" ++ padded 2 at_.hour
  | never => "switchyard.log"

end Rotation

/-- The files once the log has been opened at a moment: its directory is made if need be, and
a file is begun unless there is one of that name. Nothing if the log has no directory or the
directory cannot be made; then no file is written. -/
def LogConfig.openIn? (c : LogConfig) (files : Files.Node) (at_ : Rotation.Moment) :
    Option Files.Node := do
  let directory ← c.directory
  guard (!directory.isAbsolute)
  let (files, here) ← files.makeFolders directory.segments []
  let log := here ++ [(Path.ofString ((Rotation.ofName c.rotation).fileName at_)).bytes]
  return if (files.at? log).isSome then files else Files.Node.put (.file []) files log

end SessionBroker
