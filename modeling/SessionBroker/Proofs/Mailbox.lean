import SessionBroker.Mailbox
import SessionBroker.Session.Outlets

/-!
What the operations of a mailbox do to its history.

A mailbox is seen through two lists: what it accepted and what was read of it. An offer only
adds to the first, a read only moves the next accepted message into the second.
-/

namespace SessionBroker

namespace Mailbox

variable {α : Type} {m n : Mailbox α} {a : α}

def read (m : Mailbox α) : List α := m.accepted.take m.taken

/-- No more was read than was accepted. -/
def Sound (m : Mailbox α) : Prop := m.taken ≤ m.accepted.length

def Drained (m : Mailbox α) : Prop := m.taken = m.accepted.length

theorem read_prefix (m : Mailbox α) : m.read <+: m.accepted :=
  List.take_prefix _ _

/-- A mailbox that is drained has been read whole. -/
theorem Drained.read_eq (drained : m.Drained) : m.read = m.accepted := by
  rw [read, drained, List.take_length]

theorem Sound.drained_of_waiting (sound : m.Sound) (isOpen : m.isOpen = true)
    (idle : m.waiting = []) : m.Drained := by
  have short : m.accepted.length ≤ m.taken := by
    simpa [waiting, isOpen, List.drop_eq_nil_iff] using idle
  exact Nat.le_antisymm sound short

/-! ### Offers -/

/-- An offer is accepted by an open mailbox that is not full. -/
theorem offer_eq_ok : m.offer a = .ok n ↔ m.isOpen = true ∧ m.isFull = false ∧ n = m.put a := by
  unfold offer
  cases m.isOpen <;> cases m.isFull <;> simp [eq_comm]

/-- An offer finds the reader gone exactly if the mailbox is closed. -/
theorem offer_eq_gone : m.offer a = .error .gone ↔ m.isOpen = false := by
  unfold offer
  cases m.isOpen <;> cases m.isFull <;> simp

/-- An offer is refused for want of room by an open mailbox that is full. -/
theorem offer_eq_full : m.offer a = .error .full ↔ m.isOpen = true ∧ m.isFull = true := by
  unfold offer
  cases m.isOpen <;> cases m.isFull <;> simp

@[simp] theorem put_accepted : (m.put a).accepted = m.accepted ++ [a] := rfl

@[simp] theorem put_isOpen : (m.put a).isOpen = m.isOpen := rfl

@[simp] theorem put_taken : (m.put a).taken = m.taken := rfl

theorem Sound.put (sound : m.Sound) : (m.put a).Sound := by
  simp only [Sound, put_accepted, put_taken, List.length_append, List.length_singleton] at sound ⊢
  omega

theorem Sound.read_put (sound : m.Sound) : (m.put a).read = m.read := by
  simp only [read, put_accepted, put_taken]
  exact List.take_append_of_le_length sound

theorem Sound.waiting_put (sound : m.Sound) (isOpen : m.isOpen = true) :
    (m.put a).waiting = m.waiting ++ [a] := by
  simp only [waiting, put_isOpen, isOpen, if_true, put_accepted, put_taken]
  exact List.drop_append_of_le_length sound

theorem length_waiting_put : (m.put a).waiting.length ≤ m.waiting.length + 1 := by
  cases isOpen : m.isOpen with
  | false => simp [waiting, isOpen]
  | true =>
      simp only [waiting, put_isOpen, put_accepted, put_taken, isOpen, if_true, List.length_drop,
        List.length_append, List.length_singleton]
      omega

/-! ### Reads -/

/-- What is read next is the first message that has not been read. -/
theorem next?_eq_some (taken : m.next? = some (a, n)) :
    m.isOpen = true ∧ m.accepted[m.taken]? = some a ∧ n = { m with taken := m.taken + 1 } := by
  simp only [next?, Option.map_eq_some_iff, Prod.mk.injEq, waiting] at taken
  obtain ⟨b, head, rfl, rfl⟩ := taken
  cases isOpen : m.isOpen with
  | false => simp [isOpen] at head
  | true => simpa [isOpen, List.head?_drop] using head

/-- An open mailbox in which nothing is next is drained. -/
theorem next?_eq_none (sound : m.Sound) (isOpen : m.isOpen = true) (none : m.next? = none) :
    m.Drained := by
  apply sound.drained_of_waiting isOpen
  simpa [next?] using none

/-- The next message is read behind those that have been read. -/
theorem read_next (taken : m.next? = some (a, n)) : n.read = m.read ++ [a] := by
  obtain ⟨-, at_, rfl⟩ := next?_eq_some taken
  simp [read, List.take_add_one, at_]

theorem accepted_next (taken : m.next? = some (a, n)) : n.accepted = m.accepted := by
  obtain ⟨-, -, rfl⟩ := next?_eq_some taken
  rfl

theorem isOpen_next (taken : m.next? = some (a, n)) : n.isOpen = m.isOpen := by
  obtain ⟨-, -, rfl⟩ := next?_eq_some taken
  rfl

theorem sound_next (taken : m.next? = some (a, n)) : n.Sound := by
  obtain ⟨-, at_, rfl⟩ := next?_eq_some taken
  exact (List.getElem?_eq_some_iff.mp at_).1

/-- The next message is the one that has waited longest. -/
theorem waiting_next (taken : m.next? = some (a, n)) : m.waiting = a :: n.waiting := by
  obtain ⟨isOpen, at_, rfl⟩ := next?_eq_some taken
  obtain ⟨short, rfl⟩ := List.getElem?_eq_some_iff.mp at_
  simp [waiting, isOpen]

theorem next?_of_waiting (waits : m.waiting ≠ []) : ∃ a n, m.next? = some (a, n) := by
  obtain ⟨a, rest, waiting⟩ := List.exists_cons_of_ne_nil waits
  exact ⟨a, _, by simp only [next?, waiting, List.head?_cons, Option.map_some]; rfl⟩

theorem Sound.take (sound : m.Sound) (n : Nat) : (m.take n).2.Sound := by
  have short : m.waiting.length ≤ m.accepted.length - m.taken := by
    unfold waiting
    split <;> simp
  simp only [Sound, Mailbox.take, List.length_take] at sound ⊢
  omega

/-- A reader that is gone reads nothing more. -/
theorem take_of_closed (isClosed : m.isOpen = false) (n : Nat) : (m.take n).2 = m := by
  simp only [take, waiting, isClosed, Bool.false_eq_true, if_false, List.take_nil, List.length_nil,
    Nat.add_zero]
  rw [← isClosed]

theorem waiting_take_all (m : Mailbox α) : (m.take m.waiting.length).2.waiting = [] := by
  cases isOpen : m.isOpen with
  | false => simp [take, waiting, isOpen]
  | true =>
      simp only [take, List.take_length]
      simp only [waiting, isOpen, if_true, List.length_drop, List.drop_eq_nil_iff]
      omega

/-- A mailbox that holds nothing has room. -/
theorem isFull_of_waiting (size : 0 < m.capacity) (empty : m.waiting = []) : m.isFull = false := by
  rw [isFull, empty]
  exact decide_eq_false (Nat.not_le_of_lt size)

theorem Sound.close (sound : m.Sound) : m.close.Sound := sound

@[simp] theorem close_accepted : m.close.accepted = m.accepted := rfl

end Mailbox

namespace Outlets

variable {α : Type} {m : Mailbox α} {a : α}

/-- Telling a mailbox that is ready adds the message, unless the reader is gone. -/
theorem tell_eq_put (ready : m.isReady = true) (isOpen : m.isOpen = true) :
    tell m a = m.put a := by
  have room : m.isFull = false := by simpa [Mailbox.isReady, isOpen] using ready
  simp [tell, Mailbox.offer, isOpen, room]

theorem tell_eq_self (isClosed : m.isOpen = false) : tell m a = m := by
  simp [tell, Mailbox.offer, isClosed]

/-- Telling a mailbox that is ready puts the message in, or nobody reads it any more. -/
theorem tell_cases (ready : m.isReady = true) :
    (m.isOpen = true ∧ tell m a = m.put a) ∨ (m.isOpen = false ∧ tell m a = m) := by
  cases isOpen : m.isOpen with
  | true => exact .inl ⟨rfl, tell_eq_put ready isOpen⟩
  | false => exact .inr ⟨rfl, tell_eq_self isOpen⟩

/-- Telling a mailbox takes nothing out of what it has accepted. -/
theorem prefix_tell (m : Mailbox α) (a : α) :
    m.accepted <+: (tell m a).accepted := by
  unfold tell
  split
  · rename_i n offered
    obtain ⟨-, -, rfl⟩ := Mailbox.offer_eq_ok.mp offered
    exact List.prefix_append _ _
  · exact List.prefix_refl _

theorem tell_frame (m : Mailbox α) (a : α) :
    (tell m a).capacity = m.capacity ∧ (tell m a).isOpen = m.isOpen := by
  unfold tell
  split
  · rename_i n offered
    obtain ⟨-, -, rfl⟩ := Mailbox.offer_eq_ok.mp offered
    exact ⟨rfl, rfl⟩
  · exact ⟨rfl, rfl⟩

end Outlets

end SessionBroker
