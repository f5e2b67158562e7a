import SessionBroker.Proofs.Journal

/-!
Watches that are told to end.

A watch that delivers changes does not notice that it is to end. Main statement:
`CanDeliver.ends`, as long as there is room for the changes that are on their way it gets to
its end by its own moves.
-/

namespace SessionBroker

def Mailbox.room {α : Type} (m : Mailbox α) : Nat := m.capacity - m.waiting.length

namespace Mailbox

variable {α : Type} {m : Mailbox α} {a : α}

theorem isFull_of_room (room : 0 < m.room) : m.isFull = false := by
  rw [isFull, decide_eq_false_iff_not]
  exact Nat.not_le_of_lt (Nat.lt_of_sub_pos room)

theorem room_put (m : Mailbox α) (a : α) : m.room ≤ (m.put a).room + 1 := by
  have longer : (m.put a).waiting.length ≤ m.waiting.length + 1 := length_waiting_put
  have size : (m.put a).capacity = m.capacity := rfl
  rw [room, room, size]
  omega

end Mailbox

namespace Session

variable {s t : Session} {n : Nat} {w : Watch}

/-! ### Moves of a watch -/

/-- How many changes the watches have on their way to the broker. -/
def delivering (s : Session) : Nat := (s.watches.flatMap Watch.delivering).length

def withWatch (s : Session) (n : Nat) (w : Watch) : Session :=
  { s with watches := s.watches.set n w }

/-- What is still to be delivered changes with the watch. -/
theorem delivering_withWatch (found : s.watches[n]? = some w) (v : Watch) :
    (s.withWatch n v).delivering + w.delivering.length =
      s.delivering + v.delivering.length := by
  simp only [delivering, withWatch]
  generalize s.watches = ws at found ⊢
  induction ws generalizing n with
  | nil => cases found
  | cons x ws ih =>
      cases n with
      | zero =>
          obtain rfl : x = w := by simpa using found
          simp only [List.set_cons_zero, List.flatMap_cons, List.length_append]
          omega
      | succ n =>
          have rest := ih found
          simp only [List.set_cons_succ, List.flatMap_cons, List.length_append]
          omega

theorem watchEnded_withWatch (found : s.watches[n]? = some w) {v : Watch}
    (ended : v.running = false) : (s.withWatch n v).watchEnded n = true := by
  have short : n < s.watches.length := (List.getElem?_eq_some_iff.mp found).1
  simp [watchEnded, withWatch, List.getElem?_set_self short, ended]

/-- A watch that runs delivers a change, ends, or looks at the next event. -/
theorem stepWatch_of_running (found : s.watches[n]? = some w) (running : w.running = true) :
    s.stepWatch n =
      match w.delivering with
      | change :: rest =>
        if !s.hasSender then some (s.withWatch n w.stop)
        else
          match s.inbox.offer (.change change) with
          | .ok inbox =>
            some { s.withWatch n { w with delivering := rest, holdsSender := false } with inbox }
          | .error .gone => some (s.withWatch n w.stop)
          | .error .full =>
            if w.holdsSender then none else some (s.withWatch n { w with holdsSender := true })
      | [] =>
        if s.watchStopped n then some (s.withWatch n w.stop)
        else w.look.map (s.withWatch n) := by
  unfold stepWatch
  rw [found, Option.bind_some, if_neg (by simp [running])]
  rfl

/-- A watch that moves leaves the others as they are. -/
theorem watches_stepWatch (stepped : s.stepWatch n = some t) :
    ∃ v, t.watches = s.watches.set n v := by
  obtain ⟨w, found, -⟩ := Option.bind_eq_some_iff.mp stepped
  cases running : w.running with
  | false =>
      rw [stepWatch, found, Option.bind_some, running] at stepped
      cases stepped
  | true =>
      rw [stepWatch_of_running found running] at stepped
      split at stepped
      · split at stepped
        · cases stepped
          exact ⟨_, rfl⟩
        · split at stepped
          · cases stepped
            exact ⟨_, rfl⟩
          · cases stepped
            exact ⟨_, rfl⟩
          · split at stepped
            · cases stepped
            · cases stepped
              exact ⟨_, rfl⟩
      · split at stepped
        · cases stepped
          exact ⟨_, rfl⟩
        · obtain ⟨v, -, rfl⟩ := Option.map_eq_some_iff.mp stepped
          exact ⟨v, rfl⟩

/-! ### Watches that can go on -/

/-- The watches get rid of the changes on their way: there is room for all of them, or nobody
can send any more, and they give up. -/
def CanDeliver (s : Session) : Prop := s.hasSender = false ∨ s.delivering ≤ s.inbox.room

/-- A watch that stops gives nobody a way to send. -/
theorem hasSender_stop (w : Watch) (alone : s.hasSender = false) :
    (s.withWatch n w.stop).hasSender = false := by
  simp only [hasSender, withWatch, Bool.or_eq_false_iff, List.any_eq_false] at alone ⊢
  refine ⟨alone.1, ?_⟩
  intro v mem
  rcases List.mem_or_eq_of_mem_set mem with old | rfl
  · exact alone.2 v old
  · simp [Watch.stop]

/-- A watch that stops leaves room for the others. -/
theorem CanDeliver.stop (can : s.CanDeliver) (found : s.watches[n]? = some w) :
    (s.withWatch n w.stop).CanDeliver := by
  refine can.imp (hasSender_stop w) ?_
  intro fits
  have less := delivering_withWatch found w.stop
  have none_ : w.stop.delivering.length = 0 := rfl
  change (s.withWatch n w.stop).delivering ≤ s.inbox.room
  omega

/-- A watch that delivers a change leaves room for the others. -/
theorem CanDeliver.deliver (found : s.watches[n]? = some w) {change : Change}
    {rest : List Change} (delivering : w.delivering = change :: rest)
    (fits : s.delivering ≤ s.inbox.room) :
    { s.withWatch n { w with delivering := rest, holdsSender := false } with
      inbox := s.inbox.put (.change change) }.CanDeliver := by
  right
  have less := delivering_withWatch found { w with delivering := rest, holdsSender := false }
  have room := s.inbox.room_put (.change change)
  have length : w.delivering.length = rest.length + 1 := by rw [delivering, List.length_cons]
  change (s.withWatch n { w with delivering := rest, holdsSender := false }).delivering ≤
    (s.inbox.put (.change change)).room
  dsimp only at less
  omega

/-- One move of a watch that can go on: it ends, or it has delivered a change. -/
theorem CanDeliver.step (can : s.CanDeliver) (told : s.watchStopped n = true)
    (found : s.watches[n]? = some w) (running : w.running = true) :
    s.stepWatch n = some (s.withWatch n w.stop) ∨
      ∃ change rest, w.delivering = change :: rest ∧ s.delivering ≤ s.inbox.room ∧
        s.stepWatch n =
          some { s.withWatch n { w with delivering := rest, holdsSender := false } with
            inbox := s.inbox.put (.change change) } := by
  rw [stepWatch_of_running found running]
  cases delivering : w.delivering with
  | nil => exact .inl (if_pos told)
  | cons change rest =>
      dsimp only
      rcases can with alone | fits
      · left
        rw [alone]
        rfl
      · cases sender : s.hasSender with
        | false => exact .inl rfl
        | true =>
            -- There is at least one change on its way, so there is room for it.
            have some_ : 0 < s.inbox.room := by
              have less := delivering_withWatch found w.stop
              have none_ : w.stop.delivering.length = 0 := rfl
              have length : 0 < w.delivering.length := by
                rw [delivering]
                exact Nat.succ_pos _
              omega
            cases isOpen : s.inbox.isOpen with
            | false =>
                left
                rw [Mailbox.offer_eq_gone.mpr isOpen]
                rfl
            | true =>
                right
                rw [Mailbox.offer_eq_ok.mpr ⟨isOpen, Mailbox.isFull_of_room some_, rfl⟩]
                exact ⟨change, rest, rfl, fits, rfl⟩

/-- A watch that was told to end ends by its own moves, if it can go on. -/
theorem CanDeliver.ends (can : s.CanDeliver) (told : s.watchStopped n = true) :
    ∃ count inbox watches,
      s.run (List.replicate count (.step (.watch n))) = { s with inbox, watches } ∧
        watchEnded { s with inbox, watches } n = true ∧ CanDeliver { s with inbox, watches } := by
  cases found : s.watches[n]? with
  | none => exact ⟨0, s.inbox, s.watches, rfl, by simp [watchEnded, found], can⟩
  | some w =>
      cases running : w.running with
      | false => exact ⟨0, s.inbox, s.watches, rfl, by simp [watchEnded, found, running], can⟩
      | true =>
          generalize size : w.delivering.length = length
          induction length generalizing s w with
          | zero =>
              rcases can.step told found running with
                stops | ⟨change, rest, delivering, -, -⟩
              · refine ⟨1, s.inbox, s.watches.set n w.stop, ?_,
                  watchEnded_withWatch found rfl, can.stop found⟩
                change (s.stepWatch n).getD s = _
                rw [stops]
                rfl
              · simp [delivering] at size
          | succ length ih =>
              rcases can.step told found running with
                stops | ⟨change, rest, delivering, fits, delivers⟩
              · refine ⟨1, s.inbox, s.watches.set n w.stop, ?_,
                  watchEnded_withWatch found rfl, can.stop found⟩
                change (s.stepWatch n).getD s = _
                rw [stops]
                rfl
              · have short : n < s.watches.length := (List.getElem?_eq_some_iff.mp found).1
                have shorter : rest.length = length := by simpa [delivering] using size
                obtain ⟨count, inbox, watches, run, ended, can'⟩ :=
                  ih (CanDeliver.deliver found delivering fits) told _
                    (List.getElem?_set_self short) running shorter
                refine ⟨count + 1, inbox, watches, ?_, ended, can'⟩
                rw [List.replicate_succ]
                change ((s.stepWatch n).getD s).run _ = _
                rw [delivers]
                exact run

end Session

end SessionBroker
