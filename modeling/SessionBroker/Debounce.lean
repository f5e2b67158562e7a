import SessionBroker.Config.Basic

/-!
When changed sources are recompiled.

A burst of notifications makes one recompile, once it has been quiet for `delay`. A burst
that does not end makes one within `maxDelay` of its first notification.
-/

namespace SessionBroker

inductive Window where
  | idle
  /-- A recompile is due at `fireAt`; the burst began at `start`. -/
  | pending (fireAt start : Duration)
  deriving DecidableEq, Repr

structure Debouncer where
  delay : Duration
  maxDelay : Duration
  window : Window
  deriving DecidableEq, Repr

namespace Debouncer

/-- A debouncer without notifications, if the delay is below the greatest one. -/
def new? (delay maxDelay : Duration) : Except ConfigFault Debouncer :=
  if delay < maxDelay then .ok ⟨delay, maxDelay, .idle⟩
  else .error (.invalidDebounce (Duration.saturatingMillis delay)
    (Duration.saturatingMillis maxDelay))

def ofConfig (c : WatcherConfig) : Except ConfigFault Debouncer := new? c.debounce c.maxDelay

/-- Notes a change: the recompile moves to `delay` after it, unless that is beyond
`maxDelay` after the start of the burst. -/
def notify (d : Debouncer) (now : Duration) : Debouncer :=
  match d.window with
  | .idle => { d with window := .pending (now + d.delay) now }
  | .pending _ start =>
    if start + d.maxDelay < now + d.delay then d
    else { d with window := .pending (now + d.delay) start }

def deadline? (d : Debouncer) : Option Duration :=
  match d.window with
  | .idle => none
  | .pending fireAt _ => some fireAt

/-- Whether the recompile is due, and the debouncer after it. -/
def poll (d : Debouncer) (now : Duration) : Bool × Debouncer :=
  match d.window with
  | .pending fireAt _ => if fireAt ≤ now then (true, { d with window := .idle }) else (false, d)
  | .idle => (false, d)

end Debouncer

end SessionBroker
