/-!
Bounded first-in, first-out mailboxes.

A mailbox keeps every message it ever accepted and how many of them were read, so its
state is also its history. `offer` never waits: it accepts a message or says why not.
-/

namespace SessionBroker

/-- A mailbox of at most `capacity` unread messages. -/
structure Mailbox (α : Type) where
  capacity : Nat
  /-- Every message ever accepted, oldest first. -/
  accepted : List α
  /-- How many of them were read. -/
  taken : Nat
  /-- Whether the reader is still there. -/
  isOpen : Bool
  deriving DecidableEq, Repr

inductive Refusal where
  | gone
  | full
  deriving DecidableEq, Repr

namespace Mailbox

variable {α : Type}

def empty (capacity : Nat) : Mailbox α := ⟨capacity, [], 0, true⟩

/-- The messages that are still to be read, oldest first. A reader that is gone leaves
none. -/
def waiting (m : Mailbox α) : List α := if m.isOpen then m.accepted.drop m.taken else []

def isFull (m : Mailbox α) : Bool := m.capacity ≤ m.waiting.length

/-- Whether an offer is settled at once: accepted, or refused because the reader is gone. -/
def isReady (m : Mailbox α) : Bool := !m.isOpen || !m.isFull

def put (m : Mailbox α) (a : α) : Mailbox α := { m with accepted := m.accepted ++ [a] }

/-- Accepts a message, unless the reader is gone or the mailbox is full. -/
def offer (m : Mailbox α) (a : α) : Except Refusal (Mailbox α) :=
  if !m.isOpen then .error .gone
  else if m.isFull then .error .full
  else .ok (m.put a)

def take (m : Mailbox α) (n : Nat) : List α × Mailbox α :=
  let read := m.waiting.take n
  (read, { m with taken := m.taken + read.length })

def next? (m : Mailbox α) : Option (α × Mailbox α) :=
  m.waiting.head?.map fun a => (a, { m with taken := m.taken + 1 })

def close (m : Mailbox α) : Mailbox α := { m with isOpen := false }

end Mailbox

end SessionBroker
